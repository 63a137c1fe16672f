import Cascade.MaintainerSteps

/-!
# The run loop and the full channel

The run loop is the only one to receive events, so a task that waits for a place in the channel
waits for the loop.  The loop in turn waits for the lock of the pending zones whenever it has
received `ZoneAdded`, and the tasks that refresh zones hold that lock while they send events.  With
enough events under way the two wait for each other.
-/

namespace Cascade

open Lib

namespace ZoneMaintainer

/-- The run loop waits for a lock, all of whose holders wait for a place in the channel. -/
def Deadlocked (m : ZoneMaintainer) : Prop :=
  (∃ zoneId, m.runLoop = .added zoneId) ∧ (∃ i, m.holdsPending i = true) ∧
      (∀ i, m.holdsPending i = true → m.channel.Waits i) ∨
    (∃ zoneId handle, m.runLoop = .tracking zoneId handle) ∧
      (∃ i, m.holdsTracking i = true) ∧ ∀ i, m.holdsTracking i = true → m.channel.Waits i

/-- The run loop waits for the lock of the pending zones, which is held by a task that waits for a
place in the channel. -/
def Stuck (m : ZoneMaintainer) : Prop :=
  (∃ zoneId, m.runLoop = .added zoneId) ∧ ∃ i, m.holdsPending i = true ∧ m.channel.Waits i

/-- When the loop receives `ZoneAdded`, no task that holds the lock of the pending zones is left
waiting in the channel, and while the loop waits for that lock, no task that holds it finds the
channel full. -/
def roomForHolders (m : ZoneMaintainer) : Action → Bool
  | .receive =>
    match m.runLoop, m.channel.events with
    | .idle, .ZoneAdded _ :: _ => m.channel.waiters.tail.all (fun w ↦ !m.holdsPending w.1)
    | _, _ => true
  | .task i _ =>
    match m.runLoop with
    | .added _ =>
      m.channel.hasRoom capacity || !m.holdsPending i || (m.tasks[i]?.bind m.sent).isNone
    | _ => true
  | _ => true

/-! ## What a step does to locks and waiting tasks -/

section

variable {m m' : ZoneMaintainer} {a : Action} {i j : TaskId}

theorem OuterStep.waits (h : OuterStep m a m') (hj : m'.channel.Waits j) : m.channel.Waits j := by
  cases h with
  | tick | insertZone | notify | force | fire => exact hj
  | zoneChanged _ hreceive => exact Channel.waits_of_receive hreceive hj
  | zoneAdded _ hreceive => exact Channel.waits_of_receive hreceive hj
  | refreshRequested _ hreceive => exact Channel.waits_of_receive hreceive hj

-- The loop waits for the lock from the receipt of `ZoneAdded` on.
theorem OuterStep.added (h : OuterStep m a m') {zoneId : ZoneId}
    (hloop : m'.runLoop = .added zoneId) :
    m.runLoop = .added zoneId ∨ a = .receive ∧ m.runLoop = .idle ∧
      ∃ channel, m.channel.receive = some (.ZoneAdded zoneId, channel) ∧ m'.channel = channel := by
  cases h with
  | tick | insertZone | notify | force | fire | zoneChanged | refreshRequested => exact Or.inl hloop
  | zoneAdded hidle hreceive =>
    cases hloop
    exact Or.inr ⟨rfl, hidle, _, hreceive, rfl⟩

-- A task comes to wait by sending an event into a full channel.
theorem waits_of_turn {input : Input} (h : TaskTurn m i input m') (hj : m'.channel.Waits j) :
    m.channel.Waits j ∨ j = i ∧ m.channel.hasRoom capacity = false ∧
      (m.tasks[i]?.bind m.sent).isNone = false := by
  obtain ⟨task, task', htask, -, hstep, -⟩ := h.next
  rw [hstep.channel] at hj
  cases hsent : m.sent task with
  | none =>
    rw [hsent] at hj
    exact Or.inl hj
  | some event =>
    rw [hsent] at hj
    rcases Channel.waits_send.mp hj with hj | ⟨hfull, hji⟩
    · exact Or.inl hj
    · exact Or.inr ⟨hji, hfull, by simp [htask, hsent]⟩

end

/-! ## Runs -/

/-- The loop does not wait for a task that waits for the loop. -/
structure Unblocked (m : ZoneMaintainer) : Prop where
  exclusive : m.Exclusive
  free : ∀ zoneId, m.runLoop = .added zoneId → ∀ i, m.holdsPending i = true → ¬m.channel.Waits i

section

variable {m m' : ZoneMaintainer} {a : Action}

theorem unblocked_started (h : m.Started) : m.Unblocked := by
  refine ⟨exclusive_started h, ?_⟩
  intro zoneId hloop
  subst h
  cases hloop

theorem free_of_step (hinv : m.Unblocked) (hok : m.roomForHolders a = true)
    (h : m.step a = some m') {zoneId : ZoneId} (hloop : m'.runLoop = .added zoneId) {j : TaskId}
    (hj : m'.holdsPending j = true) : ¬m'.channel.Waits j := by
  intro hwaits
  rcases step_cases h with ⟨i, input, rfl, hturn⟩ | ⟨-, hstep⟩ | hstep
  · obtain ⟨task, task', htask, -, hstep, -⟩ := hturn.next
    rw [hstep.runLoop] at hloop
    rcases waits_of_turn hturn hwaits with hwaits | ⟨rfl, hfull, hsent⟩
    · -- a task that waits has not taken the lock now
      rcases holdsPending_of_turn hturn hj with hj | ⟨rfl, -, -⟩
      · exact hinv.free zoneId hloop j hj hwaits
      · exact hturn.runs hwaits
    · rcases holdsPending_of_turn hturn hj with hj | ⟨-, -, hsame⟩
      · simp [roomForHolders, hloop, hfull, hsent, hj] at hok
      · rw [hsame] at hwaits
        exact hturn.runs hwaits
  · exact hstep.not_added zoneId hloop
  · rw [hstep.holdsPending j] at hj
    rcases hstep.added hloop with hloop | ⟨rfl, hidle, channel, hreceive, rfl⟩
    · exact hinv.free zoneId hloop j hj (hstep.waits hwaits)
    · obtain ⟨w, hw, rfl⟩ := List.mem_map.mp hwaits
      obtain ⟨events, hevents⟩ := Channel.events_of_receive hreceive
      rw [Channel.waiters_receive hreceive] at hw
      simp only [roomForHolders, hidle, hevents, List.all_eq_true] at hok
      have hfree := hok w hw
      rw [hj] at hfree
      cases hfree

/-- In every run in which the tasks that refresh zones find room in the channel whenever the run loop
is after their lock, the loop is never deadlocked with them. -/
theorem run_loop_not_deadlocked
    (h : Reach ZoneMaintainer.step (fun m a ↦ m.roomForHolders a = true) Started m) :
    ¬m.Deadlocked := by
  have hinv : m.Unblocked := h.invariant (fun _ ↦ unblocked_started)
    (fun _ _ _ hinv hok hstep ↦
      ⟨exclusive_of_step hinv.exclusive hstep, fun _ hloop _ ↦ free_of_step hinv hok hstep hloop⟩)
  intro hdeadlocked
  rcases hdeadlocked with ⟨⟨zoneId, hloop⟩, ⟨i, hi⟩, hall⟩ | ⟨⟨zoneId, handle, hloop⟩, ⟨i, hi⟩, -⟩
  · exact hinv.free zoneId hloop i hi (hall i hi)
  · -- the loop has the lock of the pending zones already
    have hnone := hinv.exclusive (by simp [hloop, RunLoop.holdsPending]) i
    rw [holdsPending_of_holdsTracking hi] at hnone
    cases hnone

namespace ShortRun

/-- Primary zones are inserted one after the other, the first of them by the task `i`, in `n` steps
each. -/
def insertPrimaries (i : TaskId) (n : Nat) (zones : List ZoneId) : List Action :=
  (zones.zipIdx i).flatMap (fun z ↦ .insertZone z.1 primary (some soa) :: steps z.2 n)

/-- Between the commit of the first version and its event ten insertions are completed, which fill
the channel, and another one has to wait; then the loop receives the first of the other events. -/
def fullChannel : List Action :=
  firstTransfer ++ insertPrimaries 2 5 (primaryZones.take 10) ++
    insertPrimaries 12 2 (primaryZones.drop 10) ++ [.task 1 .next, .receive]

/-- The loop is after the lock of the pending zones, and its holders all wait in the channel. -/
def holdersWait (m : ZoneMaintainer) : Bool :=
  let holders := (List.range m.tasks.length).filter m.holdsPending
  match m.runLoop with
  | .added _ => !holders.isEmpty && holders.all (fun i ↦ decide (m.channel.Waits i))
  | _ => false

theorem deadlocked_of_holdersWait {m : ZoneMaintainer} (h : holdersWait m = true) :
    m.Deadlocked := by
  unfold holdersWait at h
  split at h
  next zoneId hloop =>
    have hmem : ∀ i, i ∈ (List.range m.tasks.length).filter m.holdsPending ↔
        m.holdsPending i = true := by
      intro i
      rw [List.mem_filter, List.mem_range]
      refine ⟨fun h ↦ h.2, ?_⟩
      intro hholds
      obtain ⟨task, htask, -⟩ := (Option.any_eq_true _ _).mp hholds
      exact ⟨(List.getElem?_eq_some_iff.mp htask).1, hholds⟩
    simp only [Bool.and_eq_true, Bool.not_eq_true', List.all_eq_true, decide_eq_true_eq] at h
    obtain ⟨hsome, hall⟩ := h
    obtain ⟨i, hi⟩ := List.exists_mem_of_ne_nil _ (List.isEmpty_eq_false_iff.mp hsome)
    exact Or.inl ⟨⟨zoneId, hloop⟩, ⟨i, (hmem i).mp hi⟩, fun j hj ↦ hall j ((hmem j).mpr hj)⟩
  · cases h

end ShortRun

theorem first_promotion_not_deadlocked :
    ∃ m : ZoneMaintainer, ¬m.Deadlocked ∧ ShortRun.served m = true := by
  have hrun : (exec ZoneMaintainer.step new ShortRun.firstPromotion).any
      ShortRun.served = true := by decide
  have hok : execOk ZoneMaintainer.step roomForHolders new ShortRun.firstPromotion = true := by
    decide
  obtain ⟨m, hreach, hm⟩ := Reach.of_exec new_started ShortRun.firstPromotion hok hrun
  exact ⟨m, run_loop_not_deadlocked hreach, hm⟩

/-- Eleven zones are inserted, one after the other, while one is being transferred. -/
theorem full_channel_deadlocks :
    ∃ m, Reach ZoneMaintainer.step anyStep Started m ∧ m.Deadlocked := by
  have hrun : (exec ZoneMaintainer.step new ShortRun.fullChannel).any
      ShortRun.holdersWait = true := by decide
  obtain ⟨m, hreach, hm⟩ := Reach.of_exec_any new_started ShortRun.fullChannel hrun
  exact ⟨m, hreach, ShortRun.deadlocked_of_holdersWait hm⟩

/-! ## The condition is needed -/

-- Once the loop waits for a task that waits for the loop, it waits for ever.
theorem stuck_of_step (hstuck : m.Stuck) (h : m.step a = some m') : m'.Stuck := by
  obtain ⟨⟨zoneId, hloop⟩, j, hj, hwaits⟩ := hstuck
  rcases step_cases h with ⟨i, input, rfl, hturn⟩ | ⟨-, hstep⟩ | hstep
  · obtain ⟨task, task', htask, -, hstep, -⟩ := hturn.next
    have hji : j ≠ i := by
      rintro rfl
      exact hturn.runs hwaits
    refine ⟨⟨zoneId, hstep.runLoop.trans hloop⟩, j, ?_, ?_⟩
    · rw [holdsPending_of_set htask hstep.tasks, if_neg hji]
      exact hj
    · rw [hstep.channel]
      cases m.sent task with
      | none => exact hwaits
      | some event => exact Channel.waits_send.mpr (Or.inl hwaits)
  · cases hstep with
    | locked _ hfree _ =>
      rw [holdsPending_of_pendingFree hfree j] at hj
      cases hj
    | notPending _ hfree _ =>
      rw [holdsPending_of_pendingFree hfree j] at hj
      cases hj
    | notSecondary hother | empty hother | loaded hother | again hother | duplicate hother
    | insert hother | store hother | load hother | update hother =>
      rw [hloop] at hother
      cases hother
  · have hidle : m.runLoop ≠ .idle := by
      rw [hloop]
      simp
    have hholds := hstep.holdsPending j
    cases hstep with
    | fire hother | zoneChanged hother _ | zoneAdded hother _ | refreshRequested hother _ =>
      exact absurd hother hidle
    | tick | insertZone | notify | force => exact ⟨⟨zoneId, hloop⟩, j, hholds.trans hj, hwaits⟩

theorem stuck_forever (h : Reach ZoneMaintainer.step anyStep Stuck m) : m.Stuck :=
  h.invariant (fun _ hstuck ↦ hstuck) (fun _ _ _ hstuck _ hstep ↦ stuck_of_step hstuck hstep)

-- A step against the condition ends in such a state.
theorem stuck_of_no_room (hok : m.roomForHolders a = false) (h : m.step a = some m') :
    m'.Stuck := by
  rcases step_cases h with ⟨i, input, rfl, hturn⟩ | ⟨rfl, -⟩ | hstep
  · cases hloop : m.runLoop with
    | added zoneId =>
      simp only [roomForHolders, hloop, Bool.or_eq_false_iff, Bool.not_eq_false'] at hok
      obtain ⟨⟨hfull, hholds⟩, hsends⟩ := hok
      obtain ⟨task, task', htask, -, hstep, -⟩ := hturn.next
      obtain ⟨task₁, htask₁, hholds⟩ := (Option.any_eq_true _ _).mp hholds
      have hsame : task₁ = task := Option.some.inj (htask₁.symm.trans htask)
      rw [hsame] at hholds
      cases hsent : m.sent task with
      | none => simp [htask, hsent] at hsends
      | some event =>
        refine ⟨⟨zoneId, hstep.runLoop.trans hloop⟩, i, ?_, ?_⟩
        · rw [holdsPending_of_set htask hstep.tasks, if_pos rfl]
          exact hstep.follows.keeps (by simp [hsent]) hholds
        · rw [hstep.channel, hsent]
          exact Channel.waits_send.mpr (Or.inr ⟨hfull, rfl⟩)
    | idle | tracking | promoting | storing | loading | updating | panicked =>
      simp [roomForHolders, hloop] at hok
  · cases hok
  · have hholds := hstep.holdsPending
    cases hstep with
    | zoneAdded hidle hreceive =>
      obtain ⟨events, hevents⟩ := Channel.events_of_receive hreceive
      simp only [roomForHolders, hidle, hevents, List.all_eq_false] at hok
      obtain ⟨w, hw, hfree⟩ := hok
      rw [← Channel.waiters_receive hreceive] at hw
      have hwaits : Channel.Waits _ w.1 := List.mem_map_of_mem hw
      exact ⟨⟨_, rfl⟩, w.1, (hholds w.1).trans (by simpa using hfree), hwaits⟩
    | zoneChanged hidle hreceive | refreshRequested hidle hreceive =>
      obtain ⟨events, hevents⟩ := Channel.events_of_receive hreceive
      simp [roomForHolders, hidle, hevents] at hok
    | tick | insertZone | notify | force | fire => cases hok

end

end ZoneMaintainer

end Cascade

import Cascade.InsertOnce

/-!
# Who refreshes a zone next

The duty to refresh a zone goes from its timer to the task that the timer starts, from the task to an
event, and from the event to the next timer.  The task looks the zone up among the pending zones and
in its copy of the active ones, and ends when it finds nothing.  So a zone that is lost from the
active zones is refreshed no more, and as long as none is lost the duty is always handed on.
-/

namespace Cascade

open Lib

namespace Event

/-- What `on_event` sets a timer for, unless the zone of a `ZoneAdded` is not pending. -/
def asksFor (zoneId : ZoneId) : Event → Bool
  | .ZoneRefreshRequested _ zoneId' _ | .ZoneAdded zoneId' => decide (zoneId' = zoneId)
  | .ZoneChanged _ _ => false

/-- What a refresh sends at its end. -/
def reschedules (zoneId : ZoneId) : Event → Bool
  | .ZoneRefreshRequested .SoaRefreshTimer zoneId' _ => decide (zoneId' = zoneId)
  | .ZoneRefreshRequested .SoaRetryTimer zoneId' _ => decide (zoneId' = zoneId)
  | _ => false

end Event

namespace ZoneMaintainer

/-! ## The duty to refresh a zone -/

/-- `on_zone_added` of this zone has not returned. -/
def RunLoop.handles (zoneId : ZoneId) : RunLoop → Bool
  | .added zoneId' | .tracking zoneId' _ | .promoting zoneId' _ _ | .storing zoneId' _ _
  | .loading zoneId' _ | .updating zoneId' _ _ => decide (zoneId' = zoneId)
  | .idle | .panicked => false

/-- The refresh has not come to its end. -/
def RefreshStage.goesOn : RefreshStage → Bool
  | .rescheduled _ | .migrated => false
  | _ => true

/-- A task that a timer has started for the zone, or a refresh of the zone that has not come to its
end. -/
def Task.refreshes (zoneId : ZoneId) : Task → Bool
  | .timer _ zoneId' _ | .known _ zoneId' _ => decide (zoneId' = zoneId)
  | .refresh r stage => decide (r.zoneId = zoneId) && stage.goesOn
  | _ => false

/-- The zone has a timer, a request for a refresh or the news that it was added has been sent and not
yet been handled, or a refresh is under way that has not sent its request for the next one, which may
be because the channel is full. -/
def Scheduled (m : ZoneMaintainer) (zoneId : ZoneId) : Prop :=
  (∃ timer ∈ m.refreshTimers, timer.zoneId = zoneId) ∨
    (∃ event ∈ m.channel.events, event.asksFor zoneId = true) ∨
    m.runLoop.handles zoneId = true ∨
    (∃ task ∈ m.tasks, task.refreshes zoneId = true) ∨
    ∃ waiter ∈ m.channel.waiters, waiter.2.reschedules zoneId = true

instance (m : ZoneMaintainer) (zoneId : ZoneId) : Decidable (m.Scheduled zoneId) :=
  inferInstanceAs (Decidable (_ ∨ _))

/-- When `loaded_arc` is replaced, the new tree has every tracked zone that the old one has, and the
one that the loop makes active. -/
def keepsTracked (m : ZoneMaintainer) : Action → Bool
  | .task i _ =>
    match m.tasks[i]? with
    | some (.updating zones) =>
      m.timeTracking.keys.all (fun zoneId ↦ decide (zoneId ∈ m.loadedArc → zoneId ∈ zones))
    | _ => true
  | .loop =>
    match m.runLoop with
    | .updating zoneId _ zones => m.timeTracking.keys.all (fun zoneId' ↦
        decide (zoneId' ∈ m.loadedArc ∨ zoneId' = zoneId → zoneId' ∈ zones))
    | _ => true
  | _ => true

/-! ## The invariant -/

/-- The zone has left the pending zones and is on its way to the active ones. -/
def RunLoop.activates (zoneId : ZoneId) : RunLoop → Bool
  | .promoting zoneId' _ _ | .storing zoneId' _ _ | .loading zoneId' _ | .updating zoneId' _ _ =>
    decide (zoneId' = zoneId)
  | _ => false

/-- A refresh that has asked the last primary ends well or has an error. -/
def Primaries.goOn (primaries : Primaries) : Prop :=
  primaries.remaining ≠ [] ∨ 0 < primaries.numOk ∨ primaries.savedErr = true

def RefreshStage.Live : RefreshStage → Prop
  | .querying primaries => primaries.goOn
  | .rescheduled _ | .migrated => False
  | _ => True

/-- The task will find the zone and ask for its next refresh. -/
def Task.Carries (m : ZoneMaintainer) (zoneId : ZoneId) : Task → Prop
  | .timer _ zoneId' zones | .known _ zoneId' zones =>
    zoneId' = zoneId ∧ (zoneId ∈ zones ∨ zoneId ∈ m.pendingZones)
  | .refresh r stage => r.zoneId = zoneId ∧ m.isSecondary zoneId r.handle = true ∧ stage.Live
  | _ => False

/-- Who has the duty to refresh the zone. -/
inductive Carried (m : ZoneMaintainer) (zoneId : ZoneId) : Prop
  | timer {timer : ZoneRefreshInstant} : timer ∈ m.refreshTimers → timer.zoneId = zoneId →
      Carried m zoneId
  | event {cause : ZoneRefreshCause} {after : Option UInt32} :
      .ZoneRefreshRequested cause zoneId after ∈ m.channel.events → Carried m zoneId
  | waiter {i : TaskId} {event : Event} : (i, event) ∈ m.channel.waiters →
      event.reschedules zoneId = true → Carried m zoneId
  | loop : m.runLoop.activates zoneId = true → Carried m zoneId
  | task {task : Task} : task ∈ m.tasks → task.Carries m zoneId → Carried m zoneId

/-- A tracked zone is pending, active or in between. -/
def Located (m : ZoneMaintainer) : Prop := ∀ zoneId ∈ m.timeTracking,
  zoneId ∈ m.pendingZones ∨ zoneId ∈ m.loadedArc ∨ m.runLoop.activates zoneId = true

/-- What holds while no tracked zone is lost. -/
structure Watched (m : ZoneMaintainer) : Prop where
  single : m.Single
  located : m.Located
  carried : ∀ zoneId ∈ m.timeTracking, m.expiredAt zoneId 0 = some false → m.Carried zoneId

section

variable {m m' : ZoneMaintainer} {a : Action} {i : TaskId} {zoneId : ZoneId}

theorem asksFor_requested {cause : ZoneRefreshCause} {after : Option UInt32} :
    (Event.ZoneRefreshRequested cause zoneId after).asksFor zoneId = true := decide_eq_true rfl

theorem handles_of_activates {loop : RunLoop} (h : loop.activates zoneId = true) :
    loop.handles zoneId = true := by
  cases loop with
  | promoting | storing | loading | updating => exact h
  | idle | added | tracking | panicked => cases h

theorem goesOn_of_live {stage : RefreshStage} (h : stage.Live) : stage.goesOn = true := by
  cases stage with
  | rescheduled | migrated => exact h.elim
  | starting | reading | querying | requesting | transferring | changed | finishing => rfl

theorem refreshes_of_carries {task : Task} (h : task.Carries m zoneId) :
    task.refreshes zoneId = true := by
  cases task with
  | timer | known => exact decide_eq_true h.1
  | refresh r stage => exact Bool.and_eq_true_iff.mpr ⟨decide_eq_true h.1, goesOn_of_live h.2.2⟩
  | notify | notifying | asked | accepted | insert | announcing | storing | loading | updating
  | sending | ended => exact h.elim

theorem Carried.scheduled (h : m.Carried zoneId) : m.Scheduled zoneId := by
  cases h with
  | timer hmem hzone => exact Or.inl ⟨_, hmem, hzone⟩
  | event hmem => exact Or.inr (Or.inl ⟨_, hmem, asksFor_requested⟩)
  | loop hloop => exact Or.inr (Or.inr (Or.inl (handles_of_activates hloop)))
  | task hmem hcarries =>
    exact Or.inr (Or.inr (Or.inr (Or.inl ⟨_, hmem, refreshes_of_carries hcarries⟩)))
  | waiter hmem hevent => exact Or.inr (Or.inr (Or.inr (Or.inr ⟨_, hmem, hevent⟩)))

theorem requested_of_reschedules {event : Event} (h : event.reschedules zoneId = true) :
    ∃ cause after, event = .ZoneRefreshRequested cause zoneId after := by
  unfold Event.reschedules at h
  split at h
  · rw [of_decide_eq_true h]
    exact ⟨_, _, rfl⟩
  · rw [of_decide_eq_true h]
    exact ⟨_, _, rfl⟩
  · cases h

/-! ## Timers -/

-- A zone that has a timer keeps one.
theorem mem_refreshZoneAt {timers : List ZoneRefreshInstant} {new timer : ZoneRefreshInstant}
    (h : timer ∈ timers) : ∃ timer' ∈ refreshZoneAt timers new, timer'.zoneId = timer.zoneId := by
  induction timers with
  | nil => cases h
  | cons first rest ih =>
    unfold refreshZoneAt
    split
    next hsame =>
      split
      · exact ⟨timer, h, rfl⟩
      · rcases List.mem_cons.mp h with rfl | hrest
        · exact ⟨new, List.mem_cons_self, hsame.symm⟩
        · exact ⟨timer, List.mem_cons_of_mem _ hrest, rfl⟩
    · rcases List.mem_cons.mp h with rfl | hrest
      · exact ⟨timer, List.mem_cons_self, rfl⟩
      · have ⟨timer', hmem, hzone⟩ := ih hrest
        exact ⟨timer', List.mem_cons_of_mem _ hmem, hzone⟩

theorem new_mem_refreshZoneAt (timers : List ZoneRefreshInstant) (new : ZoneRefreshInstant) :
    ∃ timer ∈ refreshZoneAt timers new, timer.zoneId = new.zoneId := by
  induction timers with
  | nil => exact ⟨new, List.mem_singleton_self _, rfl⟩
  | cons first rest ih =>
    unfold refreshZoneAt
    split
    next hsame =>
      split
      · exact ⟨first, List.mem_cons_self, hsame⟩
      · exact ⟨new, List.mem_cons_self, rfl⟩
    · have ⟨timer, hmem, hzone⟩ := ih
      exact ⟨timer, List.mem_cons_of_mem _ hmem, hzone⟩

/-! ## The tasks -/

theorem Task.Carries.mono {task : Task} (h : task.Carries m zoneId)
    (hpending : zoneId ∈ m.pendingZones → zoneId ∈ m'.pendingZones)
    (hheap : Grows m.zoneHeap m'.zoneHeap) : task.Carries m' zoneId := by
  cases task with
  | timer | known => exact ⟨h.1, h.2.imp_right hpending⟩
  | refresh => exact ⟨h.1, hheap.isSecondary h.2.1, h.2.2⟩
  | notify | notifying | asked | accepted | insert | announcing | storing | loading | updating
  | sending | ended => exact h

-- A secondary zone has a primary to ask.
theorem primaryAddrs_ne_nil {config : ZoneConfig} (h : config.isSecondary = true)
    (addr : Option SocketAddr) : primaryAddrs config addr ≠ [] := by
  intro hnil
  cases hentries : config.requestXfrFrom.entries with
  | nil => simp [ZoneConfig.isSecondary, HashMap.isEmpty, hentries] at h
  | cons entry rest =>
    have hmem : entry ∈ config.requestXfrFrom.entries := by
      rw [hentries]
      exact List.mem_cons_self
    have hlookup : config.requestXfrFrom.lookup entry.1 = some entry.2 :=
      HashMap.lookup_eq_some_iff.mpr hmem
    have hkey : entry.1 ∈ addr.toList ++ config.requestXfrFrom.keys :=
      List.mem_append_right _ (List.mem_map.mpr ⟨entry, hmem, rfl⟩)
    have hfound : (entry.1, entry.2) ∈ primaryAddrs config addr :=
      List.mem_filterMap.mpr ⟨entry.1, hkey, by rw [hlookup]; rfl⟩
    rw [hnil] at hfound
    cases hfound

theorem Advance.live {r : Refresh} {stage stage' : RefreshStage} (h : Advance m r stage stage')
    (hsecondary : m.isSecondary r.zoneId r.handle = true) : stage'.Live := by
  cases h with
  | read hget =>
    apply Or.inl
    apply primaryAddrs_ne_nil
    rw [isSecondary, hget, Option.any_some] at hsecondary
    exact hsecondary
  | nextPrimary _ hgoOn => exact Or.inr hgoOn
  | start | notNeeded | allFailed | newer | request | progress | transferred | fallback =>
    exact trivial

theorem carried_of_set {task' : Task} (hlt : i < m.tasks.length)
    (htasks : m'.tasks = m.tasks.set i task') (h : task'.Carries m' zoneId) :
    m'.Carried zoneId := by
  have hmem : task' ∈ m'.tasks := by
    rw [htasks]
    exact List.mem_set hlt task'
  exact .task hmem h

-- What a refresh sends at its end is received or waits.
theorem carried_of_send {event : Event} (hevent : event.reschedules zoneId = true)
    (hchannel : m'.channel = m.channel.send capacity i event) : m'.Carried zoneId := by
  rcases Channel.mem_send capacity m.channel i event with hmem | hmem
  · obtain ⟨cause, after, rfl⟩ := requested_of_reschedules hevent
    rw [← hchannel] at hmem
    exact .event hmem
  · rw [← hchannel] at hmem
    exact .waiter hmem hevent

-- A refresh goes on until it sends its request, unless it marks the zone as expired.
theorem RefreshStep.carried {r : Refresh} {input : Input} {stage : RefreshStage} {task' : Task}
    (h : RefreshStep m i r input stage task' m') (hlt : i < m.tasks.length)
    (htracked : r.zoneId ∈ m.timeTracking)
    (hmarks : m.marks (.refresh r stage) ≠ some (r.zoneId, r.handle))
    (hsecondary : m.isSecondary r.zoneId r.handle = true) (hlive : stage.Live) :
    m'.Carried r.zoneId := by
  have hsecondary' : m'.isSecondary r.zoneId r.handle = true :=
    h.taskStep.heap.isSecondary hsecondary
  cases h with
  | advance hadvance _ =>
    exact carried_of_set hlt rfl ⟨rfl, hsecondary', hadvance.live hsecondary⟩
  | write | commit | changed => exact carried_of_set hlt rfl ⟨rfl, hsecondary', trivial⟩
  | expired hlookup hexpired => exact absurd (marks_expired hlookup hexpired) hmarks
  | @failed _ info =>
    have hevent : (Event.ZoneRefreshRequested .SoaRetryTimer r.zoneId
        (some info.retry)).reschedules r.zoneId = true := decide_eq_true rfl
    exact carried_of_send hevent rfl
  | @succeeded _ newSoa info =>
    have hevent : (Event.ZoneRefreshRequested .SoaRefreshTimer r.zoneId
        (some (newSoa.elim info info.refreshSucceeded).refresh)).reschedules r.zoneId = true :=
      decide_eq_true rfl
    exact carried_of_send hevent rfl
  | announce => exact hlive.elim
  | stop hstops =>
    cases hstops with
    | noPrimary hremaining hnumOk herr =>
      rcases hlive with hlive | hlive | hlive
      · exact absurd hremaining hlive
      · omega
      · rw [herr] at hlive
        cases hlive
    | untracked hlookup =>
      rw [← AList.lookup_isSome, hlookup] at htracked
      cases htracked
    | notPending | migrated => exact hlive.elim

-- A timer's task finds the zone, which is the secondary one.
theorem TimerStep.carries {task task' : Task} (hinv : m.Single) (h : TimerStep m task task')
    (hmem : task ∈ m.tasks) (htracked : zoneId ∈ m.timeTracking)
    (hcarries : task.Carries m zoneId) : task'.Carries m zoneId := by
  cases h with
  | known => exact hcarries
  | untracked hnot =>
    obtain ⟨rfl, -⟩ := hcarries
    exact absurd htracked hnot
  | pending _ _ hsecondary | active _ _ _ hsecondary =>
    obtain ⟨rfl, -⟩ := hcarries
    exact ⟨rfl, hsecondary, trivial⟩
  | gone hpending hactive =>
    obtain ⟨rfl, hfound | hfound⟩ := hcarries
    · rw [← AList.lookup_isSome, hactive] at hfound
      cases hfound
    · rw [← AList.lookup_isSome, hpending] at hfound
      cases hfound
  | @primary _ _ _ handle hlookup hprimary =>
    obtain ⟨rfl, -⟩ := hcarries
    have hzero : handle = 0 := by
      rcases hlookup with hpending | ⟨-, hactive⟩
      · exact (hinv.pending _ _ hpending).1
      · exact hinv.snapshots _ hmem _ (List.mem_singleton_self _) _ _ hactive
    rw [hzero, hinv.tracked _ htracked] at hprimary
    cases hprimary

theorem carried_of_next {input : Input} {task task' : Task} (hinv : m.Single)
    (htask : m.tasks[i]? = some task) (h : TaskNext m i input task task' m')
    (htracked : zoneId ∈ m.timeTracking) (hmarks : m.marks task ≠ some (zoneId, 0))
    (hcarries : task.Carries m zoneId) :
    m'.Carried zoneId := by
  have hlt : i < m.tasks.length := (List.getElem?_eq_some_iff.mp htask).1
  cases h with
  | @refresh r stage _ _ hstep =>
    obtain ⟨rfl, hsecondary, hlive⟩ := hcarries
    have hzero : r.handle = 0 := by
      apply hinv.first r.zoneId
      obtain ⟨zone, hget, -⟩ := (Option.any_eq_true _ _).mp hsecondary
      rw [hget]
      rfl
    rw [← hzero] at hmarks
    exact hstep.carried hlt htracked hmarks hsecondary hlive
  | timer hstep =>
    have hnext := hstep.carries hinv (List.mem_of_getElem? htask) htracked hcarries
    exact carried_of_set hlt rfl (hnext.mono (fun hmem ↦ hmem) (.refl _))
  | notify hstep => cases hstep <;> exact hcarries.elim
  | insert hstep => cases hstep <;> exact hcarries.elim

theorem pending_of_turn {input : Input} (h : TaskTurn m i input m')
    (hmem : zoneId ∈ m.pendingZones) : zoneId ∈ m'.pendingZones := by
  rcases pendingZones_of_turn h with hsame | ⟨zoneId', handle, newZones, -, -, -, heq⟩
  · rw [hsame]
    exact hmem
  · rw [heq]
    exact (AList.mem_insert _).mpr (Or.inr hmem)

-- A task replaces the active zones by the tree that it has.
theorem loadedArc_of_turn {input : Input} (h : TaskTurn m i input m') :
    m'.loadedArc = m.loadedArc ∨ ∃ zones, m.tasks[i]? = some (.updating zones) ∧
      m'.loadedArc = zones := by
  obtain ⟨task, task', htask, -, hstep, hinsert | hcaller⟩ := h.next
  · cases hinsert with
    | update => exact Or.inr ⟨_, htask, rfl⟩
    | pending | «exists» | active | announce | store | load | send => exact Or.inl rfl
  · exact Or.inl (hstep.loadedArc hcaller)

/-! ## One step -/

theorem located_of_turn {input : Input} (hinv : m.Located)
    (hok : m.keepsTracked (.task i input) = true) (h : TaskTurn m i input m') : m'.Located := by
  obtain ⟨task, task', -, -, hstep, -⟩ := h.next
  intro zoneId htracked
  rw [hstep.tracked] at htracked
  rcases hinv zoneId htracked with hpending | hactive | hloop
  · exact Or.inl (pending_of_turn h hpending)
  · rcases loadedArc_of_turn h with hsame | ⟨zones, htask, hnew⟩
    · rw [hsame]
      exact Or.inr (Or.inl hactive)
    · simp only [keepsTracked, htask, List.all_eq_true, decide_eq_true_eq] at hok
      rw [hnew]
      exact Or.inr (Or.inl (hok zoneId htracked hactive))
  · rw [hstep.runLoop]
    exact Or.inr (Or.inr hloop)

theorem carried_of_turn {input : Input} (hinv : m.Watched) (h : TaskTurn m i input m')
    (htracked : zoneId ∈ m'.timeTracking) (hexpired : m'.expiredAt zoneId 0 = some false) :
    m'.Carried zoneId := by
  obtain ⟨task, task', htask, hnext, hstep, -⟩ := h.next
  rw [hstep.tracked] at htracked
  have hmarked := hnext.marks.expiredAt zoneId 0
  rw [hexpired] at hmarked
  have hmarks : m.marks task ≠ some (zoneId, 0) := by
    intro heq
    rw [if_pos heq] at hmarked
    obtain ⟨b, -, hb⟩ := Option.map_eq_some_iff.mp hmarked.symm
    cases hb
  rw [if_neg hmarks] at hmarked
  cases hinv.carried zoneId htracked hmarked.symm with
  | timer hmem hzone =>
    rw [← hnext.refreshTimers] at hmem
    exact .timer hmem hzone
  | @event cause after hmem =>
    have hmem' : Event.ZoneRefreshRequested cause zoneId after ∈ m'.channel.events := by
      rw [hstep.channel]
      cases m.sent task with
      | none => exact hmem
      | some event => exact Channel.mem_events_send hmem
    exact .event hmem'
  | @waiter j event hmem hevent =>
    have hmem' : (j, event) ∈ m'.channel.waiters := by
      rw [hstep.channel]
      cases m.sent task with
      | none => exact hmem
      | some event' => exact Channel.mem_waiters_send hmem
    exact .waiter hmem' hevent
  | loop hloop =>
    rw [← hstep.runLoop] at hloop
    exact .loop hloop
  | @task task₁ hmem hcarries =>
    obtain ⟨j, hj⟩ := List.mem_iff_getElem?.mp hmem
    by_cases hij : i = j
    · rw [← hij, htask] at hj
      cases hj
      exact carried_of_next hinv.single htask hnext htracked hmarks hcarries
    · rw [← List.getElem?_set_ne hij (a := task'), ← hstep.tasks] at hj
      exact .task (List.mem_of_getElem? hj) (hcarries.mono (pending_of_turn h) hstep.heap)

-- What the loop leaves as it is still has the duty.
theorem carried_of_frame (h : LoopStep m m') (hc : m.Carried zoneId)
    (htimers : ∀ timer ∈ m.refreshTimers, ∃ timer' ∈ m'.refreshTimers, timer'.zoneId = timer.zoneId)
    (hloop : m.runLoop.activates zoneId = true → m'.Carried zoneId)
    (hpending : zoneId ∈ m.pendingZones → zoneId ∈ m'.pendingZones) : m'.Carried zoneId := by
  obtain ⟨htasks, hchannel, hheap⟩ := h.frame
  cases hc with
  | timer hmem hzone =>
    obtain ⟨timer', hmem', hzone'⟩ := htimers _ hmem
    exact .timer hmem' (hzone'.trans hzone)
  | event hmem =>
    rw [← hchannel] at hmem
    exact .event hmem
  | waiter hmem hevent =>
    rw [← hchannel] at hmem
    exact .waiter hmem hevent
  | loop hactivates => exact hloop hactivates
  | task hmem hcarries =>
    rw [← htasks] at hmem
    exact .task hmem (hcarries.mono hpending (by rw [hheap]; exact .refl _))

theorem carried_refreshZoneAt {timers : List ZoneRefreshInstant} {new : ZoneRefreshInstant}
    (htimers : m.refreshTimers = refreshZoneAt timers new) (hzone : new.zoneId = zoneId) :
    m.Carried zoneId := by
  obtain ⟨timer, hmem, hsame⟩ := new_mem_refreshZoneAt timers new
  rw [← htimers] at hmem
  exact .timer hmem (hsame.trans hzone)

theorem tracked_of_ne (h : LoopStep m m') {zoneId' : ZoneId} {handle : Handle}
    (hloop : m.runLoop = .tracking zoneId' handle) (hne : zoneId' ≠ zoneId)
    (htracked : zoneId ∈ m'.timeTracking) : zoneId ∈ m.timeTracking := by
  rcases tracked_of_loop h htracked with hold | ⟨handle', hloop'⟩
  · exact hold
  · rw [hloop] at hloop'
    cases hloop'
    exact absurd rfl hne

theorem carried_of_loop (hinv : m.Watched) (h : LoopStep m m')
    (htracked : zoneId ∈ m'.timeTracking) (hexpired : m'.expiredAt zoneId 0 = some false) :
    m'.Carried zoneId := by
  have hexpired' : m.expiredAt zoneId 0 = some false := by
    unfold expiredAt at hexpired ⊢
    rw [← h.frame.2.2]
    exact hexpired
  have hc : zoneId ∈ m.timeTracking → m.Carried zoneId :=
    fun hmem ↦ hinv.carried zoneId hmem hexpired'
  have hnone : ∀ {zoneId' : ZoneId}, m.runLoop = .added zoneId' ∨
      (∃ handle, m.runLoop = .tracking zoneId' handle) → ¬m.runLoop.activates zoneId = true := by
    intro zoneId' hloop hactivates
    rcases hloop with hloop | ⟨handle, hloop⟩
    · rw [hloop] at hactivates
      cases hactivates
    · rw [hloop] at hactivates
      cases hactivates
  have hsame : ∀ timer ∈ m.refreshTimers, ∃ timer' ∈ m.refreshTimers,
      timer'.zoneId = timer.zoneId := fun timer hmem ↦ ⟨timer, hmem, rfl⟩
  have hstep := h
  cases h with
  | locked hloop | notPending hloop =>
    exact carried_of_frame hstep (hc htracked) hsame
      (fun hactivates ↦ absurd hactivates (hnone (Or.inl hloop))) (fun hmem ↦ hmem)
  | notSecondary hloop =>
    exact carried_of_frame hstep (hc htracked) hsame
      (fun hactivates ↦ absurd hactivates (hnone (Or.inr ⟨_, hloop⟩))) (fun hmem ↦ hmem)
  | @empty zoneId' handle hloop =>
    rcases (AList.mem_insert _).mp htracked with rfl | hold
    · exact carried_refreshZoneAt rfl rfl
    · exact carried_of_frame hstep (hc hold) (fun _ hmem ↦ mem_refreshZoneAt hmem)
        (fun hactivates ↦ absurd hactivates (hnone (Or.inr ⟨_, hloop⟩))) (fun hmem ↦ hmem)
  | @loaded zoneId' handle soa hloop | @again zoneId' handle soa hloop =>
    by_cases hzone : zoneId' = zoneId
    · exact .loop (decide_eq_true hzone)
    · have hold : zoneId ∈ m.timeTracking := tracked_of_ne hstep hloop hzone htracked
      exact carried_of_frame hstep (hc hold) hsame
        (fun hactivates ↦ absurd hactivates (hnone (Or.inr ⟨_, hloop⟩)))
        (fun hmem ↦ AList.mem_erase.mpr ⟨fun heq ↦ hzone heq.symm, hmem⟩)
  | duplicate => exact absurd rfl (apart_of_loop hinv.single.apart hstep).runs
  | insert hloop | store hloop | load hloop =>
    apply carried_of_frame hstep (hc htracked) hsame _ (fun hmem ↦ hmem)
    intro hactivates
    rw [hloop] at hactivates
    exact .loop hactivates
  | update hloop =>
    apply carried_of_frame hstep (hc htracked) (fun _ hmem ↦ mem_refreshZoneAt hmem) _
      (fun hmem ↦ hmem)
    intro hactivates
    rw [hloop] at hactivates
    exact carried_refreshZoneAt rfl (of_decide_eq_true hactivates)

theorem located_of_loop (hinv : m.Watched) (hok : m.keepsTracked .loop = true)
    (h : LoopStep m m') : m'.Located := by
  intro zoneId htracked
  have hstep := h
  cases h with
  | locked hloop | notPending hloop | notSecondary hloop =>
    rcases hinv.located zoneId htracked with hpending | hactive | hactivates
    · exact Or.inl hpending
    · exact Or.inr (Or.inl hactive)
    · rw [hloop] at hactivates
      cases hactivates
  | empty hloop =>
    rcases (AList.mem_insert _).mp htracked with rfl | hold
    · exact Or.inl (HashMap.mem_iff_lookup.mpr ⟨_, hinv.single.apart.tracked _ _ hloop⟩)
    · rcases hinv.located zoneId hold with hpending | hactive | hactivates
      · exact Or.inl hpending
      · exact Or.inr (Or.inl hactive)
      · rw [hloop] at hactivates
        cases hactivates
  | @loaded zoneId' handle soa hloop | @again zoneId' handle soa hloop =>
    by_cases hzone : zoneId' = zoneId
    · exact Or.inr (Or.inr (decide_eq_true hzone))
    · have hold : zoneId ∈ m.timeTracking := tracked_of_ne hstep hloop hzone htracked
      rcases hinv.located zoneId hold with hpending | hactive | hactivates
      · exact Or.inl (AList.mem_erase.mpr ⟨fun heq ↦ hzone heq.symm, hpending⟩)
      · exact Or.inr (Or.inl hactive)
      · rw [hloop] at hactivates
        cases hactivates
  | duplicate => exact absurd rfl (apart_of_loop hinv.single.apart hstep).runs
  | insert hloop | store hloop | load hloop =>
    rcases hinv.located zoneId htracked with hpending | hactive | hactivates
    · exact Or.inl hpending
    · exact Or.inr (Or.inl hactive)
    · rw [hloop] at hactivates
      exact Or.inr (Or.inr hactivates)
  | update hloop =>
    simp only [keepsTracked, hloop, List.all_eq_true, decide_eq_true_eq] at hok
    rcases hinv.located zoneId htracked with hpending | hactive | hactivates
    · exact Or.inl hpending
    · exact Or.inr (Or.inl (hok zoneId htracked (Or.inl hactive)))
    · rw [hloop] at hactivates
      exact Or.inr (Or.inl (hok zoneId htracked (Or.inr (of_decide_eq_true hactivates).symm)))

-- What has been requested is received, or still there afterwards.
theorem carried_of_receive {event : Event} {channel : Channel TaskId Event}
    (hreceive : m.channel.receive = some (event, channel)) (hchannel : m'.channel = channel)
    (hfirst : ∀ cause after, event = .ZoneRefreshRequested cause zoneId after → m'.Carried zoneId) :
    (∀ cause after, .ZoneRefreshRequested cause zoneId after ∈ m.channel.events →
      m'.Carried zoneId) ∧
    ∀ waiter ∈ m.channel.waiters, waiter.2.reschedules zoneId = true → m'.Carried zoneId := by
  subst hchannel
  constructor
  · intro cause after hmem
    rcases Channel.mem_events_receive hreceive hmem with heq | hmem
    · exact hfirst cause after heq.symm
    · exact .event hmem
  · intro waiter hmem hevent
    rcases Channel.mem_waiters_receive hreceive hmem with hmem | hmem
    · obtain ⟨cause, after, heq⟩ := requested_of_reschedules hevent
      rw [heq] at hmem
      exact .event hmem
    · exact .waiter hmem hevent

theorem OuterStep.timeTracking (h : OuterStep m a m') : m'.timeTracking = m.timeTracking := by
  cases h <;> rfl

theorem OuterStep.loadedArc (h : OuterStep m a m') : m'.loadedArc = m.loadedArc := by
  cases h <;> rfl

theorem OuterStep.mem_tasks (h : OuterStep m a m') {task : Task} (hmem : task ∈ m.tasks) :
    task ∈ m'.tasks := by
  cases h with
  | tick | zoneAdded | refreshRequested => exact hmem
  | insertZone | notify | force | fire | zoneChanged => exact List.mem_append_left _ hmem

theorem OuterStep.activates (h : OuterStep m a m') :
    m'.runLoop.activates zoneId = m.runLoop.activates zoneId := by
  cases h with
  | zoneAdded hidle =>
    rw [hidle]
    rfl
  | tick | insertZone | notify | force | fire | zoneChanged | refreshRequested => rfl

theorem located_of_outer (hinv : m.Located) (h : OuterStep m a m') : m'.Located := by
  intro zoneId htracked
  rw [h.timeTracking] at htracked
  rw [h.pendingZones, h.loadedArc, h.activates]
  exact hinv zoneId htracked

-- A zone that exists is not marked by such a step.
theorem expiredAt_of_outer (h : OuterStep m a m') (hsecondary : m.isSecondary zoneId 0 = true)
    (hexpired : m'.expiredAt zoneId 0 = some false) : m.expiredAt zoneId 0 = some false := by
  obtain ⟨zone, hget, -⟩ := (Option.any_eq_true _ _).mp hsecondary
  have hget' : m'.zoneHeap.get zoneId 0 = some zone := by
    cases h with
    | insertZone => exact Heap.get_alloc_of_some hget
    | tick | notify | force | fire | zoneChanged | zoneAdded | refreshRequested => exact hget
  rw [expiredAt, hget'] at hexpired
  rw [expiredAt, hget]
  exact hexpired

-- The timer that fires hands its duty to the task, and a request that is received to a timer.
theorem carried_of_outer (hinv : m.Watched) (h : OuterStep m a m')
    (htracked : zoneId ∈ m'.timeTracking) (hexpired : m'.expiredAt zoneId 0 = some false) :
    m'.Carried zoneId := by
  rw [h.timeTracking] at htracked
  have hexpired' := expiredAt_of_outer h (hinv.single.tracked zoneId htracked) hexpired
  have htimer : ∀ timer ∈ m.refreshTimers, timer.zoneId = zoneId → m'.Carried zoneId := by
    intro timer hmem hzone
    cases h with
    | tick | insertZone | notify | force | zoneChanged | zoneAdded => exact .timer hmem hzone
    | refreshRequested =>
      obtain ⟨timer', hmem', hzone'⟩ := mem_refreshZoneAt hmem
      exact .timer hmem' (hzone'.trans hzone)
    | @fire k fired hidle hfired =>
      by_cases hsame : fired.zoneId = zoneId
      · have hfound : zoneId ∈ m.loadedArc ∨ zoneId ∈ m.pendingZones := by
          rcases hinv.located zoneId htracked with hpending | hactive | hactivates
          · exact Or.inr hpending
          · exact Or.inl hactive
          · rw [hidle] at hactivates
            cases hactivates
        have hlast : ∀ task : Task, task ∈ m.tasks ++ [task] :=
          fun task ↦ List.mem_append_right _ (List.mem_singleton_self task)
        exact .task (hlast (.timer fired.cause fired.zoneId m.loadedArc)) ⟨hsame, hfound⟩
      · obtain ⟨j, hj⟩ := List.mem_iff_getElem?.mp hmem
        have hjk : j ≠ k := by
          intro heq
          rw [heq, hfired] at hj
          cases hj
          exact hsame hzone
        exact .timer (List.mem_eraseIdx_iff_getElem?.mpr ⟨j, hjk, hj⟩) hzone
  cases hinv.carried zoneId htracked hexpired' with
  | timer hmem hzone => exact htimer _ hmem hzone
  | @event cause after hmem =>
    cases h with
    | tick | insertZone | notify | force | fire => exact .event hmem
    | zoneChanged _ hreceive | zoneAdded _ hreceive =>
      exact (carried_of_receive hreceive rfl (fun _ _ heq ↦ by cases heq)).1 cause after hmem
    | refreshRequested _ hreceive =>
      apply (carried_of_receive hreceive rfl _).1 cause after hmem
      intro _ _ heq
      cases heq
      exact carried_refreshZoneAt rfl rfl
  | waiter hmem hevent =>
    cases h with
    | tick | insertZone | notify | force | fire => exact .waiter hmem hevent
    | zoneChanged _ hreceive | zoneAdded _ hreceive =>
      exact (carried_of_receive hreceive rfl (fun _ _ heq ↦ by cases heq)).2 _ hmem hevent
    | refreshRequested _ hreceive =>
      apply (carried_of_receive hreceive rfl _).2 _ hmem hevent
      intro _ _ heq
      cases heq
      exact carried_refreshZoneAt rfl rfl
  | loop hactivates =>
    rw [← h.activates] at hactivates
    exact .loop hactivates
  | task hmem hcarries =>
    exact .task (h.mem_tasks hmem)
      (hcarries.mono (fun hmem ↦ by rw [h.pendingZones]; exact hmem) h.grows)

theorem watched_started (h : m.Started) : m.Watched := by
  refine ⟨single_started h, ?_, ?_⟩
  · intro zoneId htracked
    rw [h] at htracked
    cases htracked
  · intro zoneId htracked
    rw [h] at htracked
    cases htracked

theorem Watched.step (hinv : m.Watched) (hok : (m.insertsOnce a && m.keepsTracked a) = true)
    (h : m.step a = some m') : m'.Watched := by
  obtain ⟨honce, hkeeps⟩ := Bool.and_eq_true_iff.mp hok
  have hsingle := hinv.single.step honce h
  rcases step_cases h with ⟨i, input, rfl, hturn⟩ | ⟨rfl, hloop⟩ | houter
  · exact ⟨hsingle, located_of_turn hinv.located hkeeps hturn,
      fun zoneId ↦ carried_of_turn hinv hturn⟩
  · exact ⟨hsingle, located_of_loop hinv hkeeps hloop, fun zoneId ↦ carried_of_loop hinv hloop⟩
  · exact ⟨hsingle, located_of_outer hinv.located houter,
      fun zoneId ↦ carried_of_outer hinv houter⟩

end

/-! ## Runs -/

/-- In every run in which no name is inserted twice and no tracked zone is lost from the active ones,
every tracked zone that is not marked as expired is refreshed again. -/
theorem tracked_zone_scheduled {m : ZoneMaintainer}
    (h : Reach ZoneMaintainer.step (fun m a ↦ (m.insertsOnce a && m.keepsTracked a) = true)
      Started m)
    {zoneId : ZoneId} {handle : Handle} {zone : MaintainedZone}
    (hget : m.zoneHeap.get zoneId handle = some zone) (htracked : zoneId ∈ m.timeTracking)
    (hexpired : zone.expired = false) : m.Scheduled zoneId := by
  have hinv : m.Watched := h.invariant (fun _ ↦ watched_started)
    (fun _ _ _ hinv hok hstep ↦ hinv.step hok hstep)
  have hzero : handle = 0 := hinv.single.first zoneId handle (by rw [hget]; rfl)
  have hmark : m.expiredAt zoneId 0 = some false := by
    rw [expiredAt, ← hzero, hget, Option.map_some, hexpired]
  exact (hinv.carried zoneId htracked hmark).scheduled

namespace ShortRun

/-- A primary zone. -/
def other : ZoneId := zoneId 98 (by decide)

/-- The first version of the secondary zone has been transferred, and its `ZoneAdded` is to be
received. -/
def shortTransfer : List Action :=
  firstRefresh .AxfrOnly ++ [.task 1 .next, .task 1 (.commit (shortSoa 1)), .task 1 .next,
    .task 1 .finished] ++ steps 1 3

/-- The loop makes the zone active and sets a timer for it. -/
def shortActivation : List Action := [.receive, .receive, .receive] ++ List.replicate 6 .loop

/-- The primary zone is inserted when the secondary one is active, whose timer starts a refresh. -/
def insertAfterwards : List Action :=
  shortPromotion ++ [.insertZone other primary none] ++ steps 3 5 ++
    [.receive, .loop, .tick (seconds 1), .fire 0] ++ steps 4 3

/-- The primary zone is inserted with a copy of the active zones from before. -/
def insertAround : List Action :=
  shortTransfer ++ [.insertZone other primary none] ++ shortActivation ++ steps 2 5 ++
    steps 3 1 ++ [.receive, .loop, .tick (seconds 1), .fire 0] ++ steps 4 2

/-- The secondary zone is tracked and not expired. -/
def tracked (m : ZoneMaintainer) : Bool :=
  decide (zone ∈ m.timeTracking) && (m.zoneHeap.get zone 0).any (fun zone ↦
    zone.config.isSecondary && !zone.expired)

theorem of_tracked {m : ZoneMaintainer} (h : tracked m = true) : zone ∈ m.timeTracking ∧
    ∃ zone', m.zoneHeap.get zone 0 = some zone' ∧ zone'.config.isSecondary = true ∧
      zone'.expired = false := by
  obtain ⟨htracked, hany⟩ := Bool.and_eq_true_iff.mp h
  obtain ⟨zone', hget, hzone⟩ := (Option.any_eq_true _ _).mp hany
  obtain ⟨hsecondary, hexpired⟩ := Bool.and_eq_true_iff.mp hzone
  exact ⟨of_decide_eq_true htracked, zone', hget, hsecondary, by simpa using hexpired⟩

end ShortRun

theorem refreshed_zone_scheduled : ∃ m : ZoneMaintainer, m.Scheduled ShortRun.zone := by
  have hrun : ∃ m, Reach ZoneMaintainer.step
      (fun m a ↦ (m.insertsOnce a && m.keepsTracked a) = true) Started m ∧
        ShortRun.tracked m = true :=
    Reach.of_exec new_started ShortRun.insertAfterwards (by decide) (by decide)
  obtain ⟨m, hm, hend⟩ := hrun
  obtain ⟨htracked, zone, hget, -, hexpired⟩ := ShortRun.of_tracked hend
  exact ⟨m, tracked_zone_scheduled hm hget htracked hexpired⟩

/-- The insertion stores its copy without the zone that has become active, the timer of that zone fires,
and its task does not find it. -/
theorem overwritten_zone_forgotten : ∃ m : ZoneMaintainer,
    Reach ZoneMaintainer.step (fun m a ↦ m.insertsOnce a = true) Started m ∧
      ShortRun.zone ∈ m.timeTracking ∧
      (∃ zone, m.zoneHeap.get ShortRun.zone 0 = some zone ∧ zone.config.isSecondary = true ∧
        zone.expired = false) ∧
      ¬m.Scheduled ShortRun.zone := by
  have hrun : ∃ m, Reach ZoneMaintainer.step (fun m a ↦ m.insertsOnce a = true) Started m ∧
      (ShortRun.tracked m && !decide (m.Scheduled ShortRun.zone)) = true :=
    Reach.of_exec new_started ShortRun.insertAround (by decide) (by decide)
  obtain ⟨m, hm, hend⟩ := hrun
  obtain ⟨htracked, hforgotten⟩ := Bool.and_eq_true_iff.mp hend
  obtain ⟨hmem, hzone⟩ := ShortRun.of_tracked htracked
  exact ⟨m, hm, hmem, hzone, by simpa using hforgotten⟩

end ZoneMaintainer

end Cascade

import Cascade.MaintainerSteps

/-!
# Refreshes for NOTIFYs

While a zone is refreshed for a NOTIFY, further NOTIFYs for it are to be ignored.  The code tells by the
status of the zone, which says `NotifyInProgress` from the check on, but only until the refresh itself,
or any other refresh of the zone, writes the status.  As long as no check is made after that while the
refresh is under way, there is never a second one.
-/

namespace Cascade

open Lib

namespace ZoneRefreshCause

def isNotify : ZoneRefreshCause → Bool
  | .NotifyFromPrimary _ => true
  | _ => false

end ZoneRefreshCause

/-- The event requests a refresh for a NOTIFY, which nobody does. -/
def Event.isNotify : Event → Bool
  | .ZoneRefreshRequested cause _ _ => cause.isNotify
  | _ => false

namespace ZoneMaintainer

/-! ## Where a NOTIFY comes from -/

/-- What is refreshed by a task of `handle_notify` is refreshed for a NOTIFY, and nothing else is. -/
def Task.caused : Task → Bool
  | .timer cause _ _ | .known cause _ _ => !cause.isNotify
  | .sending event => !event.isNotify
  | .asked _ r | .accepted _ r => r.cause.isNotify
  | _ => true

/-- No timer, and nothing that becomes one, is for a NOTIFY. -/
structure Caused (m : ZoneMaintainer) : Prop where
  timers : ∀ timer ∈ m.refreshTimers, timer.cause.isNotify = false
  events : ∀ event ∈ m.channel.queue, event.isNotify = false
  tasks : ∀ task ∈ m.tasks, task.caused = true

section

variable {m m' : ZoneMaintainer} {a : Action} {i j : TaskId} {zoneId : ZoneId}

theorem mem_of_refreshZoneAt {timers : List ZoneRefreshInstant} {new timer : ZoneRefreshInstant}
    (h : timer ∈ refreshZoneAt timers new) : timer ∈ timers ∨ timer = new := by
  induction timers with
  | nil => exact Or.inr (List.mem_singleton.mp h)
  | cons first rest ih =>
    unfold refreshZoneAt at h
    split at h
    · split at h
      · exact Or.inl h
      · rcases List.mem_cons.mp h with rfl | hrest
        · exact Or.inr rfl
        · exact Or.inl (List.mem_cons_of_mem _ hrest)
    · rcases List.mem_cons.mp h with rfl | hrest
      · exact Or.inl List.mem_cons_self
      · exact (ih hrest).imp_left (List.mem_cons_of_mem _)

theorem isNotify_refreshZoneAt {timers : List ZoneRefreshInstant} {new : ZoneRefreshInstant}
    (htimers : ∀ timer ∈ timers, timer.cause.isNotify = false) (hnew : new.cause.isNotify = false) :
    ∀ timer ∈ refreshZoneAt timers new, timer.cause.isNotify = false := by
  intro timer hmem
  rcases mem_of_refreshZoneAt hmem with hold | rfl
  · exact htimers timer hold
  · exact hnew

theorem isNotify_sent {task : Task} {event : Event} (htask : task.caused = true)
    (hsent : m.sent task = some event) : event.isNotify = false := by
  unfold sent at hsent
  split at hsent
  · cases hsent
    rfl
  · cases hsent
    exact by simpa [Task.caused] using htask
  · cases hsent
    rfl
  · obtain ⟨info, -, rfl⟩ := Option.map_eq_some_iff.mp hsent
    rfl
  · obtain ⟨info, -, hif⟩ := Option.bind_eq_some_iff.mp hsent
    split at hif
    · cases hif
    · cases hif
      rfl
  · split at hsent
    · cases hsent
      rfl
    · cases hsent
  · cases hsent

theorem TaskNext.caused {input : Input} {task task' : Task} (h : TaskNext m i input task task' m')
    (htask : task.caused = true) : task'.caused = true := by
  cases h with
  | refresh hstep => cases hstep <;> rfl
  | insert hstep => cases hstep <;> rfl
  | timer hstep =>
    cases hstep with
    | known => exact htask
    | untracked | pending | active | gone | primary => rfl
  | notify hstep =>
    cases hstep with
    | accepted => exact htask
    | unknown | changedHere | asked | notified | refused | untracked | inProgress | start => rfl

theorem caused_started (h : m.Started) : m.Caused := by
  subst h
  refine ⟨?_, ?_, ?_⟩
  · intro timer hmem
    cases hmem
  · intro event hmem
    cases hmem
  · intro task hmem
    cases hmem

theorem caused_of_turn {input : Input} (hinv : m.Caused) (h : TaskTurn m i input m') :
    m'.Caused := by
  obtain ⟨task, task', htask, hnext, hstep, -⟩ := h.next
  have hold := hinv.tasks task (List.mem_of_getElem? htask)
  refine ⟨?_, ?_, ?_⟩
  · rw [hnext.refreshTimers]
    exact hinv.timers
  · intro event hmem
    rw [hstep.channel] at hmem
    cases hsent : m.sent task with
    | none =>
      rw [hsent] at hmem
      exact hinv.events event hmem
    | some event' =>
      rw [hsent, Option.elim_some, Channel.queue_send] at hmem
      rcases List.mem_append.mp hmem with hmem | hmem
      · exact hinv.events event hmem
      · rw [List.mem_singleton.mp hmem]
        exact isNotify_sent hold hsent
  · intro task₁ hmem
    rw [hstep.tasks] at hmem
    rcases List.mem_or_eq_of_mem_set hmem with hmem | rfl
    · exact hinv.tasks task₁ hmem
    · exact hnext.caused hold

theorem caused_of_loop (hinv : m.Caused) (h : LoopStep m m') : m'.Caused := by
  obtain ⟨htasks, hchannel, -⟩ := h.frame
  refine ⟨?_, by rw [hchannel]; exact hinv.events, by rw [htasks]; exact hinv.tasks⟩
  cases h with
  | empty | update => exact isNotify_refreshZoneAt hinv.timers rfl
  | locked | notPending | notSecondary | loaded | again | duplicate | insert | store | load =>
    exact hinv.timers

theorem caused_of_outer (hinv : m.Caused) (h : OuterStep m a m') : m'.Caused := by
  have hspawn : ∀ new : Task, new.caused = true →
      ∀ task ∈ m.tasks ++ [new], task.caused = true := by
    intro new hnew task hmem
    rcases List.mem_append.mp hmem with hmem | hmem
    · exact hinv.tasks task hmem
    · rw [List.mem_singleton.mp hmem]
      exact hnew
  have hreceived : ∀ {event : Event} {channel : Channel TaskId Event},
      m.channel.receive = some (event, channel) → event.isNotify = false ∧
        ∀ event ∈ channel.queue, event.isNotify = false := by
    intro event channel hreceive
    have hqueue := Channel.queue_receive hreceive
    have hevents := hinv.events
    rw [hqueue] at hevents
    exact ⟨hevents event List.mem_cons_self,
      fun event' hmem ↦ hevents event' (List.mem_cons_of_mem _ hmem)⟩
  cases h with
  | tick => exact ⟨hinv.timers, hinv.events, hinv.tasks⟩
  | insertZone | notify | force => exact ⟨hinv.timers, hinv.events, hspawn _ rfl⟩
  | fire _ htimer =>
    have hcause := hinv.timers _ (List.mem_of_getElem? htimer)
    exact ⟨fun timer hmem ↦ hinv.timers timer (List.mem_of_mem_eraseIdx hmem), hinv.events,
      hspawn _ (by rw [Task.caused, hcause]; rfl)⟩
  | zoneChanged _ hreceive => exact ⟨hinv.timers, (hreceived hreceive).2, hspawn _ rfl⟩
  | zoneAdded _ hreceive => exact ⟨hinv.timers, (hreceived hreceive).2, hinv.tasks⟩
  | refreshRequested _ hreceive =>
    obtain ⟨hcause, hevents⟩ := hreceived hreceive
    exact ⟨isNotify_refreshZoneAt hinv.timers hcause, hevents, hinv.tasks⟩

theorem Caused.step (hinv : m.Caused) (h : m.step a = some m') : m'.Caused := by
  rcases step_cases h with ⟨i, input, rfl, hturn⟩ | ⟨-, hloop⟩ | houter
  · exact caused_of_turn hinv hturn
  · exact caused_of_loop hinv hloop
  · exact caused_of_outer hinv houter

end

/-! ## Refreshes that are under way -/

/-- The task refreshes the zone for a NOTIFY, and `refresh_zone_and_update_state` has not returned. -/
def Task.notified (zoneId : ZoneId) : Task → Bool
  | .refresh _ .migrated => false
  | .refresh r _ => decide (r.zoneId = zoneId) && r.cause.isNotify
  | _ => false

/-- The task `i` is between the check and the end of its refresh. -/
def Notified (m : ZoneMaintainer) (i : TaskId) (zoneId : ZoneId) : Prop :=
  m.tasks[i]?.any (Task.notified zoneId) = true

/-- When a task checks the status of a zone that is being refreshed for a NOTIFY, the status still says
so. -/
def checksInTime (m : ZoneMaintainer) : Action → Bool
  | .task i _ =>
    match m.tasks[i]? with
    | some (.accepted _ r) => !m.tasks.any (Task.notified r.zoneId) ||
        (m.timeTracking.lookup r.zoneId).all (fun info ↦ decide (info.status = .NotifyInProgress))
    | _ => true
  | _ => true

/-- A task passes the check. -/
def Passes (m : ZoneMaintainer) (i : TaskId) (zoneId : ZoneId) : Prop :=
  ∃ source r info, m.tasks[i]? = some (.accepted source r) ∧ r.zoneId = zoneId ∧
    m.timeTracking.lookup zoneId = some info ∧ info.status ≠ .NotifyInProgress

section

variable {m m' : ZoneMaintainer} {a : Action} {i j : TaskId} {zoneId : ZoneId}

theorem Advance.notified {r : Refresh} {stage stage' : RefreshStage} (h : Advance m r stage stage')
    (hnotified : (Task.refresh r stage').notified zoneId = true) :
    (Task.refresh r stage).notified zoneId = true := by
  cases h with
  | nextPrimary hstage =>
    rcases hstage with rfl | ⟨transfers, rfl | rfl⟩
    · exact hnotified
    · exact hnotified
    · exact hnotified
  | start | read | notNeeded | allFailed | newer | request | progress | transferred | fallback =>
    exact hnotified

-- A task comes to refresh a zone for a NOTIFY by passing the check.
theorem TaskNext.notified {input : Input} {task task' : Task} (h : TaskNext m i input task task' m')
    (htask : m.tasks[i]? = some task) (hcaused : task.caused = true)
    (hnotified : task'.notified zoneId = true) :
    task.notified zoneId = true ∨ m.Passes i zoneId := by
  cases h with
  | refresh hstep =>
    cases hstep with
    | advance hadvance => exact Or.inl (hadvance.notified hnotified)
    | write | commit | changed | failed | succeeded => exact Or.inl hnotified
    | expired | announce | stop => cases hnotified
  | timer hstep =>
    cases hstep with
    | pending | active =>
      have hcause := (Bool.and_eq_true_iff.mp hnotified).2
      simp only [Task.caused, Bool.not_eq_true'] at hcaused
      rw [hcaused] at hcause
      cases hcause
    | known | untracked | gone | primary => cases hnotified
  | notify hstep =>
    cases hstep with
    | start hlookup hstatus =>
      have hzone := of_decide_eq_true (Bool.and_eq_true_iff.mp hnotified).1
      rw [hzone] at hlookup
      exact Or.inr ⟨_, _, _, htask, hzone, hlookup, hstatus⟩
    | unknown | changedHere | asked | notified | refused | accepted | untracked | inProgress =>
      cases hnotified
  | insert hstep => cases hstep <;> cases hnotified

theorem notified_of_turn {input : Input} (hinv : m.Caused) (h : TaskTurn m i input m')
    (hj : m'.Notified j zoneId) : m.Notified j zoneId ∨ j = i ∧ m.Passes i zoneId := by
  obtain ⟨task, task', htask, hnext, hstep, -⟩ := h.next
  unfold Notified at hj ⊢
  rw [hstep.tasks, List.getElem?_set] at hj
  by_cases hij : i = j
  · subst hij
    rw [if_pos rfl, if_pos (List.getElem?_eq_some_iff.mp htask).1, Option.any_some] at hj
    have hcaused := hinv.tasks task (List.mem_of_getElem? htask)
    rw [htask, Option.any_some]
    exact (hnext.notified htask hcaused hj).imp_right (fun hi ↦ ⟨rfl, hi⟩)
  · rw [if_neg hij] at hj
    exact Or.inl hj

theorem notified_of_step (hinv : m.Caused) (h : m.step a = some m')
    (hj : m'.Notified j zoneId) :
    m.Notified j zoneId ∨ ∃ input, a = .task j input ∧ m.Passes j zoneId := by
  rcases step_cases h with ⟨i, input, rfl, hturn⟩ | ⟨-, hloop⟩ | houter
  · rcases notified_of_turn hinv hturn hj with hold | ⟨rfl, hpasses⟩
    · exact Or.inl hold
    · exact Or.inr ⟨input, rfl, hpasses⟩
  · unfold Notified at hj
    rw [hloop.frame.1] at hj
    exact Or.inl hj
  · have hspawn : ∀ task : Task, task.notified zoneId = false →
        (m.tasks ++ [task])[j]?.any (Task.notified zoneId) = true → m.Notified j zoneId := by
      intro task htask happend
      rw [List.getElem?_append] at happend
      split at happend
      · exact happend
      · obtain ⟨task', hget, hnotified⟩ := (Option.any_eq_true _ _).mp happend
        rw [List.mem_singleton.mp (List.mem_of_getElem? hget), htask] at hnotified
        cases hnotified
    cases houter with
    | tick | zoneAdded | refreshRequested => exact Or.inl hj
    | insertZone | notify | force | fire | zoneChanged => exact Or.inl (hspawn _ rfl hj)

/-- No two refreshes of one zone for NOTIFYs are under way. -/
def NotifiedOnce (m : ZoneMaintainer) : Prop :=
  ∀ i j zoneId, m.Notified i zoneId → m.Notified j zoneId → i = j

theorem not_passes_of_checksInTime {input : Input} (hok : m.checksInTime (.task i input) = true)
    (hj : m.Notified j zoneId) : ¬m.Passes i zoneId := by
  intro hpasses
  obtain ⟨source, r, info, htask, rfl, hlookup, hstatus⟩ := hpasses
  obtain ⟨task, hget, hnotified⟩ := (Option.any_eq_true _ _).mp hj
  have hany : m.tasks.any (Task.notified r.zoneId) = true :=
    List.any_eq_true.mpr ⟨task, List.mem_of_getElem? hget, hnotified⟩
  simp only [checksInTime, htask, hany, hlookup] at hok
  exact hstatus (of_decide_eq_true hok)

theorem NotifiedOnce.step (honce : m.NotifiedOnce) (hinv : m.Caused)
    (hok : m.checksInTime a = true) (h : m.step a = some m') : m'.NotifiedOnce := by
  intro i j zoneId hi hj
  rcases notified_of_step hinv h hi with hi | ⟨input, rfl, hpasses⟩
  · rcases notified_of_step hinv h hj with hj | ⟨input, rfl, hpasses⟩
    · exact honce i j zoneId hi hj
    · exact absurd hpasses (not_passes_of_checksInTime hok hi)
  · rcases notified_of_step hinv h hj with hj | ⟨input', heq, -⟩
    · exact absurd hpasses (not_passes_of_checksInTime hok hj)
    · cases heq
      rfl

-- A check that does not see the refresh that is under way starts another one.
theorem starts_of_status {input : Input} {source : IpAddr} {r : Refresh} {task' : Task}
    (h : TaskNext m i input (.accepted source r) task' m')
    (hstatus : (m.timeTracking.lookup r.zoneId).all
      (fun info ↦ decide (info.status = .NotifyInProgress)) = false) :
    task' = .refresh r (.starting (some (.new source ianaDnsPortNumber))) := by
  cases h with
  | insert hinsert => cases hinsert
  | timer htimer => cases htimer
  | notify hnotify =>
    cases hnotify with
    | untracked hlookup => simp [hlookup] at hstatus
    | inProgress hlookup hsame => simp [hlookup, hsame] at hstatus
    | start => rfl

-- A check that comes too late starts a second refresh.
theorem not_notifiedOnce_of_late {input : Input} (hinv : m.Caused)
    (hlate : m.checksInTime (.task i input) = false) (h : m.step (.task i input) = some m') :
    ¬m'.NotifiedOnce := by
  obtain ⟨source, r, htask⟩ : ∃ source r, m.tasks[i]? = some (.accepted source r) := by
    simp only [checksInTime] at hlate
    split at hlate
    next source r htask => exact ⟨source, r, htask⟩
    · cases hlate
  simp only [checksInTime, htask, Bool.or_eq_false_iff, Bool.not_eq_false'] at hlate
  obtain ⟨hany, hstatus⟩ := hlate
  rcases step_cases h with ⟨_, _, heq, hturn⟩ | ⟨heq, -⟩ | houter
  · cases heq
    obtain ⟨task, task', htask', hnext, hstep, -⟩ := hturn.next
    rw [htask] at htask'
    cases htask'
    have hstart := starts_of_status hnext hstatus
    have hlt : i < m.tasks.length := (List.getElem?_eq_some_iff.mp htask).1
    have hi : m'.Notified i r.zoneId := by
      unfold Notified
      rw [hstep.tasks, List.getElem?_set_self hlt, hstart]
      exact Bool.and_eq_true_iff.mpr
        ⟨decide_eq_true rfl, hinv.tasks _ (List.mem_of_getElem? htask)⟩
    obtain ⟨task, hmem, hnotified⟩ := List.any_eq_true.mp hany
    obtain ⟨j, hj⟩ := List.mem_iff_getElem?.mp hmem
    have hij : i ≠ j := by
      intro heq
      rw [← heq, htask] at hj
      cases hj
      cases hnotified
    have hj' : m'.Notified j r.zoneId := by
      unfold Notified
      rw [hstep.tasks, List.getElem?_set_ne hij, hj]
      exact hnotified
    exact fun honce ↦ hij (honce i j r.zoneId hi hj')
  · cases heq
  · cases houter

theorem notifiedOnce_step_iff (hinv : m.Caused) (honce : m.NotifiedOnce)
    (h : m.step a = some m') : m'.NotifiedOnce ↔ m.checksInTime a = true := by
  constructor
  · intro honce'
    by_contra hlate
    cases a with
    | task i input => exact not_notifiedOnce_of_late hinv (Bool.eq_false_iff.mpr hlate) h honce'
    | tick | insertZone | notifyZoneChanged | forceZoneRefresh | receive | fire | loop =>
      exact hlate rfl
  · exact fun hok ↦ honce.step hinv hok h

end

/-- In every run in which the status of a zone that is being refreshed for a NOTIFY still says so at
each check, no zone is refreshed for two NOTIFYs at once. -/
theorem notified_once {m : ZoneMaintainer}
    (h : Reach ZoneMaintainer.step (fun m a ↦ m.checksInTime a = true) Started m) :
    m.NotifiedOnce := by
  have hinv : m.Caused ∧ m.NotifiedOnce := by
    apply h.invariant
    · intro m hm
      refine ⟨caused_started hm, ?_⟩
      intro i j zoneId hi
      rw [hm] at hi
      cases hi
    · intro m a m' hinv hok hstep
      exact ⟨hinv.1.step hstep, hinv.2.step hinv.1 hok hstep⟩
  exact hinv.2

namespace ShortRun

/-- The primary sends a NOTIFY, which the task `i + 1` gets to handle up to the check. -/
def primaryNotifies (i : TaskId) : List Action :=
  [.notifyZoneChanged zone none (.V4 0), .task i .next, .receive, .task (i + 1) .next,
    .task (i + 1) (.knownPrimary true)]

/-- Two NOTIFYs are checked at once, and the second one is ignored. -/
def notifiedTwice : List Action :=
  firstPromotion ++ primaryNotifies 3 ++ primaryNotifies 5 ++ steps 4 1 ++ steps 6 1

/-- The second NOTIFY is checked when the first refresh has begun. -/
def notifiedLate : List Action :=
  firstPromotion ++ primaryNotifies 3 ++ steps 4 2 ++ primaryNotifies 5 ++ steps 6 1

end ShortRun

theorem second_notify_ignored : ∃ m : ZoneMaintainer, m.Notified 4 ShortRun.zone ∧
    m.NotifiedOnce := by
  have hrun : ∃ m, Reach ZoneMaintainer.step (fun m a ↦ m.checksInTime a = true) Started m ∧
      m.tasks[4]?.any (Task.notified ShortRun.zone) = true :=
    Reach.of_exec new_started ShortRun.notifiedTwice (by decide) (by decide)
  obtain ⟨m, hm, hnotified⟩ := hrun
  exact ⟨m, hnotified, notified_once hm⟩

/-- The first refresh has set the status to `RefreshInProgress`, so that the second NOTIFY passes the
check while it is under way. -/
theorem zone_notified_twice : ∃ m : ZoneMaintainer, Reach ZoneMaintainer.step anyStep Started m ∧
    m.Notified 4 ShortRun.zone ∧ m.Notified 6 ShortRun.zone ∧ ¬m.NotifiedOnce := by
  have hrun : ∃ m, Reach ZoneMaintainer.step anyStep Started m ∧
      (m.tasks[4]?.any (Task.notified ShortRun.zone) &&
        m.tasks[6]?.any (Task.notified ShortRun.zone)) = true :=
    Reach.of_exec_any new_started ShortRun.notifiedLate (by decide)
  obtain ⟨m, hm, hboth⟩ := hrun
  obtain ⟨hfirst, hsecond⟩ := Bool.and_eq_true_iff.mp hboth
  refine ⟨m, hm, hfirst, hsecond, ?_⟩
  intro honce
  have heq : (4 : Nat) = 6 := honce 4 6 ShortRun.zone hfirst hsecond
  omega

end ZoneMaintainer

end Cascade

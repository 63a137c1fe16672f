import Cascade.Maintainer

/-!
# What the tasks of the maintainer do

`TaskNext` says once how a task goes on, and `TaskStep` what it may change; `sent` is the event that
it sends.  The pending zones and the active zones are changed by the callers of `insert_zone` only,
and no zone is lost.
-/

namespace Cascade

open Lib

namespace ZoneMaintainer

/-! ## Zones -/

/-- No zone is lost or changes its settings. -/
def Grows (heap heap' : Heap ZoneId MaintainedZone) : Prop :=
  ∀ zoneId handle zone, heap.get zoneId handle = some zone → ∃ zone',
    heap'.get zoneId handle = some zone' ∧ zone'.config = zone.config

namespace Grows

theorem refl (heap : Heap ZoneId MaintainedZone) : Grows heap heap :=
  fun _ _ zone hzone ↦ ⟨zone, hzone, rfl⟩

theorem alloc (heap : Heap ZoneId MaintainedZone) (zoneId : ZoneId) (zone : MaintainedZone) :
    Grows heap (heap.alloc zoneId zone) :=
  fun _ _ zone' hzone' ↦ ⟨zone', Heap.get_alloc_of_some hzone', rfl⟩

theorem set {heap : Heap ZoneId MaintainedZone} {zoneId : ZoneId} {handle : Handle}
    {zone new : MaintainedZone} (hget : heap.get zoneId handle = some zone)
    (hconfig : new.config = zone.config) :
    Grows heap (heap.set zoneId handle new) := by
  intro zoneId' handle' zone' hzone'
  rw [Heap.get_set]
  by_cases heq : zoneId' = zoneId ∧ handle' = handle
  · obtain ⟨rfl, rfl⟩ := heq
    have hsame : zone' = zone := Option.some.inj (hzone'.symm.trans hget)
    rw [if_pos ⟨rfl, rfl⟩, hget, hsame]
    exact ⟨new, rfl, hconfig⟩
  · rw [if_neg heq]
    exact ⟨zone', hzone', rfl⟩

end Grows

/-! ## Tasks -/

/-- The event that the next step of a task sends. -/
def sent (m : ZoneMaintainer) : Task → Option Event
  | .announcing zoneId _ => some (.ZoneAdded zoneId)
  | .sending event => some event
  | .refresh r (.changed _ _) => some (.ZoneChanged r.zoneId none)
  | .refresh r (.finishing (.ok newSoa)) =>
    (m.timeTracking.lookup r.zoneId).map (fun info ↦ .ZoneRefreshRequested .SoaRefreshTimer r.zoneId
      (some (newSoa.elim info info.refreshSucceeded).refresh))
  | .refresh r (.finishing (.error ())) =>
    (m.timeTracking.lookup r.zoneId).bind (fun info ↦
      if info.status = .RetryInProgress ∧ info.isExpired m.now = true then none
      else some (.ZoneRefreshRequested .SoaRetryTimer r.zoneId (some info.retry)))
  | .refresh r (.rescheduled ok) =>
    if ok && r.isPending then some (.ZoneAdded r.zoneId) else none
  | _ => none

/-- The tasks of the callers of the API, as opposed to those that the loop spawns. -/
def Task.isCaller : Task → Bool
  | .insert _ _ _ | .announcing _ _ | .storing _ | .loading | .updating _ | .sending _ => true
  | _ => false

/-- The refresh that a task is about. -/
def Task.job : Task → Option Refresh
  | .asked _ r | .accepted _ r | .refresh r _ => some r
  | _ => none

/-- The refresh that has ended well and, but for the result that no transfer is needed, with a zone
that has been loaded. -/
def Task.succeeded : Task → Option Refresh
  | .refresh r (.finishing (.ok (some _))) => some r
  | .refresh r (.rescheduled true) => some r
  | _ => none

/-- How a task comes from `task` to `task'`. -/
structure Follows (m : ZoneMaintainer) (task task' : Task) : Prop where
  holds : task'.holdsPending = true → task.holdsPending = true ∨
    m.pendingReadable = true ∧ m.sent task = none
  keeps : (m.sent task).isSome = true → task.holdsPending = true → task'.holdsPending = true
  isCaller : task'.isCaller = true → task.isCaller = true
  job : ∀ r, task'.job = some r → task.job = some r ∨
    (r.isPending = true → m.pendingZones.lookup r.zoneId = some r.handle)
  succeeded : ∀ r, task'.succeeded = some r → task.succeeded = some r ∨
    (m.soa r.zoneId r.handle).isSome = true ∨ task = .refresh r (.finishing (.ok none))

/-- What the step of the task `i` from `task` to `task'` may change. -/
structure TaskStep (m : ZoneMaintainer) (i : TaskId) (task task' : Task) (m' : ZoneMaintainer) :
    Prop where
  tasks : m'.tasks = m.tasks.set i task'
  runLoop : m'.runLoop = m.runLoop
  channel : m'.channel = (m.sent task).elim m.channel (m.channel.send capacity i)
  tracked : ∀ zoneId, zoneId ∈ m'.timeTracking ↔ zoneId ∈ m.timeTracking
  heap : Grows m.zoneHeap m'.zoneHeap
  follows : Follows m task task'
  pendingZones : task.isCaller = false → m'.pendingZones = m.pendingZones
  memberZones : task.isCaller = false → m'.memberZones = m.memberZones
  loadedArc : task.isCaller = false → m'.loadedArc = m.loadedArc

section

variable {m m' : ZoneMaintainer} {i : TaskId}

theorem mem_track {zoneId zoneId' : ZoneId} {info : ZoneRefreshState}
    (h : zoneId ∈ m.timeTracking) :
    zoneId' ∈ (m.track zoneId info).timeTracking ↔ zoneId' ∈ m.timeTracking := by
  show zoneId' ∈ m.timeTracking.insert zoneId info ↔ _
  rw [AList.mem_insert]
  constructor
  · intro hmem
    rcases hmem with rfl | hmem
    · exact h
    · exact hmem
  · exact Or.inr

theorem mem_track_ne {zoneId zoneId' : ZoneId} {info : ZoneRefreshState}
    (hne : zoneId' ≠ zoneId) :
    zoneId ∈ (m.track zoneId' info).timeTracking ↔ zoneId ∈ m.timeTracking := by
  show zoneId ∈ m.timeTracking.insert zoneId' info ↔ _
  rw [AList.mem_insert]
  constructor
  · intro hmem
    rcases hmem with heq | hmem
    · exact absurd heq.symm hne
    · exact hmem
  · exact Or.inr

theorem mem_retrack {zoneId zoneId' : ZoneId} {f : ZoneRefreshState → ZoneRefreshState} :
    zoneId' ∈ (m.retrack zoneId f).timeTracking ↔ zoneId' ∈ m.timeTracking := by
  unfold retrack
  split
  next info hlookup => exact mem_track (HashMap.mem_iff_lookup.mpr ⟨info, hlookup⟩)
  · rfl

theorem retrack_eq (zoneId : ZoneId) (f : ZoneRefreshState → ZoneRefreshState) :
    m.retrack zoneId f = { m with timeTracking := (m.retrack zoneId f).timeTracking } := by
  unfold retrack
  split <;> rfl

/-- The steps of `insert_zone`, and the sending of an event on its own. -/
inductive InsertStep (m : ZoneMaintainer) (i : TaskId) : Task → Task → ZoneMaintainer → Prop
  | pending {zoneId : ZoneId} {handle : Handle} {newZones : MemberZones} :
      m.isSecondary zoneId handle = true → m.pendingFree = true →
      InsertStep m i (.insert zoneId handle newZones) (.announcing zoneId newZones)
        ({ m with pendingZones := m.pendingZones.insert zoneId handle }.setTask i
          (.announcing zoneId newZones))
  | exists {zoneId : ZoneId} {handle : Handle} {newZones : MemberZones} :
      InsertStep m i (.insert zoneId handle newZones) .ended (m.setTask i .ended)
  | active {zoneId : ZoneId} {handle : Handle} {newZones : MemberZones} :
      m.isSecondary zoneId handle = false → zoneId ∉ newZones →
      InsertStep m i (.insert zoneId handle newZones)
        (.announcing zoneId (newZones.insert zoneId handle))
        (m.setTask i (.announcing zoneId (newZones.insert zoneId handle)))
  | announce {zoneId : ZoneId} {newZones : MemberZones} :
      InsertStep m i (.announcing zoneId newZones) (.storing newZones)
        (m.sendFrom i (.ZoneAdded zoneId) (.storing newZones))
  | store {newZones : MemberZones} :
      InsertStep m i (.storing newZones) .loading
        ({ m with memberZones := newZones }.setTask i .loading)
  | load : InsertStep m i .loading (.updating m.memberZones)
      (m.setTask i (.updating m.memberZones))
  | update {zones : MemberZones} :
      InsertStep m i (.updating zones) .ended ({ m with loadedArc := zones }.setTask i .ended)
  | send {event : Event} : InsertStep m i (.sending event) .ended (m.sendFrom i event .ended)

theorem insertNext_cases {task : Task} (h : m.insertNext i task = some m') :
    ∃ task', InsertStep m i task task' m' := by
  unfold insertNext at h
  split at h
  · split at h
    next hsecondary =>
      split at h
      next hfree =>
        cases h
        exact ⟨_, .pending hsecondary hfree⟩
      · cases h
    next hprimary =>
      split at h
      · cases h
        exact ⟨_, .exists⟩
      next hnew =>
        cases h
        exact ⟨_, .active (Bool.of_not_eq_true hprimary) hnew⟩
  all_goals cases h
  · exact ⟨_, .announce⟩
  · exact ⟨_, .store⟩
  · exact ⟨_, .load⟩
  · exact ⟨_, .update⟩
  · exact ⟨_, .send⟩

-- A caller is no task of a refresh.
theorem InsertStep.follows {task task' : Task} (h : InsertStep m i task task' m') :
    Follows m task task' := by
  cases h
  all_goals exact ⟨by simp [Task.holdsPending], by simp [Task.holdsPending],
    by simp [Task.isCaller], by simp [Task.job], by simp [Task.succeeded]⟩

theorem InsertStep.taskStep {task task' : Task} (h : InsertStep m i task task' m') :
    TaskStep m i task task' m' := by
  have hfollows := h.follows
  cases h
  all_goals exact ⟨rfl, rfl, rfl, fun _ ↦ Iff.rfl, .refl _, hfollows,
    by simp [Task.isCaller], by simp [Task.isCaller], by simp [Task.isCaller]⟩

-- A task may end when it has nothing to send.
theorem follows_ended {task : Task} (hsent : m.sent task = none) : Follows m task .ended where
  holds := by simp [Task.holdsPending]
  keeps := by simp [hsent]
  isCaller := by simp [Task.isCaller]
  job := by simp [Task.job]
  succeeded := by simp [Task.succeeded]

-- The tasks that the loop spawns go on as such.
theorem Follows.not_caller {task task' : Task} (h : Follows m task task')
    (hcaller : task.isCaller = false) : task'.isCaller = false := by
  by_contra hnot
  rw [h.isCaller (Bool.of_not_eq_false hnot)] at hcaller
  cases hcaller

-- A refresh goes on, and comes to succeed with a zone that is loaded or needs no transfer.
theorem follows_refresh {r : Refresh} {stage stage' : RefreshStage}
    (h : (Task.refresh r stage').succeeded = some r →
      (Task.refresh r stage).succeeded = some r ∨ (m.soa r.zoneId r.handle).isSome = true ∨
        stage = .finishing (.ok none)) :
    Follows m (.refresh r stage) (.refresh r stage') where
  holds := fun _ ↦ Or.inl rfl
  keeps := fun _ _ ↦ rfl
  isCaller := by simp [Task.isCaller]
  job := fun _ hjob ↦ Or.inl hjob
  succeeded := by
    intro r' hr'
    have hr : r' = r := by
      unfold Task.succeeded at hr'
      split at hr'
      next heq => cases hr'; cases heq; rfl
      next heq => cases hr'; cases heq; rfl
      · cases hr'
    subst hr
    rcases h hr' with hold | hsoa | hnone
    · exact Or.inl hold
    · exact Or.inr (Or.inl hsoa)
    · exact Or.inr (Or.inr (by rw [hnone]))

-- A step that sends nothing, and changes the time tracking and the zones at most.
theorem taskStep_quiet {task task' : Task} {tracking : HashMap ZoneId ZoneRefreshState}
    {heap : Heap ZoneId MaintainedZone} (hfollows : Follows m task task')
    (hsent : m.sent task = none)
    (htracked : ∀ zoneId, zoneId ∈ tracking ↔ zoneId ∈ m.timeTracking)
    (hheap : Grows m.zoneHeap heap) :
    TaskStep m i task task'
      ({ m with timeTracking := tracking, zoneHeap := heap }.setTask i task') where
  tasks := rfl
  runLoop := rfl
  channel := by simp [hsent, setTask]
  tracked := htracked
  heap := hheap
  follows := hfollows
  pendingZones := fun _ ↦ rfl
  memberZones := fun _ ↦ rfl
  loadedArc := fun _ ↦ rfl

-- A step that sends nothing and changes nothing else.
theorem taskStep_setTask {task task' : Task} (hfollows : Follows m task task')
    (hsent : m.sent task = none) : TaskStep m i task task' (m.setTask i task') :=
  taskStep_quiet hfollows hsent (fun _ ↦ Iff.rfl) (.refl _)

-- A refresh goes on with sending an event.
theorem taskStep_send {r : Refresh} {stage stage' : RefreshStage} {event : Event}
    {tracking : HashMap ZoneId ZoneRefreshState}
    (hfollows : Follows m (.refresh r stage) (.refresh r stage'))
    (hsent : m.sent (.refresh r stage) = some event)
    (htracked : ∀ zoneId, zoneId ∈ tracking ↔ zoneId ∈ m.timeTracking) :
    TaskStep m i (.refresh r stage) (.refresh r stage')
      ({ m with timeTracking := tracking }.sendFrom i event (.refresh r stage')) where
  tasks := rfl
  runLoop := rfl
  channel := by simp [hsent, sendFrom, setTask]
  tracked := htracked
  heap := .refl _
  follows := hfollows
  pendingZones := fun _ ↦ rfl
  memberZones := fun _ ↦ rfl
  loadedArc := fun _ ↦ rfl

-- A task takes the lock of the pending zones and finds its zone.
theorem follows_found {task task' : Task} (hsent : m.sent task = none)
    (hread : m.pendingReadable = true) (hcaller : task'.isCaller = false)
    (hjob : ∀ r, task'.job = some r → r.isPending = true →
      m.pendingZones.lookup r.zoneId = some r.handle)
    (hsucceeded : task'.succeeded = none) : Follows m task task' where
  holds := fun _ ↦ Or.inr ⟨hread, hsent⟩
  keeps := by simp [hsent]
  isCaller := by simp [hcaller]
  job := fun r hr ↦ Or.inr (hjob r hr)
  succeeded := by simp [hsucceeded]

-- A task that holds the lock goes on with the zone that it has found.
theorem follows_same {task task' : Task} (hholds : task.holdsPending = true)
    (hsent : m.sent task = none) (hcaller : task'.isCaller = false)
    (hjob : task'.job = task.job) (hsucceeded : task'.succeeded = none) :
    Follows m task task' where
  holds := fun _ ↦ Or.inl hholds
  keeps := by simp [hsent]
  isCaller := by simp [hcaller]
  job := fun _ hr ↦ Or.inl (hjob ▸ hr)
  succeeded := by simp [hsucceeded]

/-- The steps of the task of a refresh timer until it starts to refresh. -/
inductive TimerStep (m : ZoneMaintainer) : Task → Task → Prop
  | known {cause : ZoneRefreshCause} {zoneId : ZoneId} {zones : MemberZones} :
      zoneId ∈ m.timeTracking → TimerStep m (.timer cause zoneId zones) (.known cause zoneId zones)
  | untracked {cause : ZoneRefreshCause} {zoneId : ZoneId} {zones : MemberZones} :
      zoneId ∉ m.timeTracking → TimerStep m (.timer cause zoneId zones) .ended
  | pending {cause : ZoneRefreshCause} {zoneId : ZoneId} {zones : MemberZones} {handle : Handle} :
      m.pendingReadable = true → m.pendingZones.lookup zoneId = some handle →
      m.isSecondary zoneId handle = true →
      TimerStep m (.known cause zoneId zones)
        (.refresh ⟨cause, zoneId, handle, true⟩ (.starting none))
  | active {cause : ZoneRefreshCause} {zoneId : ZoneId} {zones : MemberZones} {handle : Handle} :
      m.pendingReadable = true → m.pendingZones.lookup zoneId = none →
      zones.lookup zoneId = some handle → m.isSecondary zoneId handle = true →
      TimerStep m (.known cause zoneId zones)
        (.refresh ⟨cause, zoneId, handle, false⟩ (.starting none))
  | gone {cause : ZoneRefreshCause} {zoneId : ZoneId} {zones : MemberZones} :
      m.pendingZones.lookup zoneId = none → zones.lookup zoneId = none →
      TimerStep m (.known cause zoneId zones) .ended
  | primary {cause : ZoneRefreshCause} {zoneId : ZoneId} {zones : MemberZones} {handle : Handle} :
      (m.pendingZones.lookup zoneId = some handle ∨ m.pendingZones.lookup zoneId = none ∧
        zones.lookup zoneId = some handle) → m.isSecondary zoneId handle = false →
      TimerStep m (.known cause zoneId zones) .ended

theorem timerNext_cases {task : Task} (h : m.timerNext i task = some m') :
    ∃ task', TimerStep m task task' ∧ m' = m.setTask i task' := by
  unfold timerNext at h
  split at h
  · split at h
    · split at h
      next htracked =>
        cases h
        exact ⟨_, .known htracked, rfl⟩
      next htracked =>
        cases h
        exact ⟨_, .untracked htracked, rfl⟩
    · cases h
  next cause zoneId zones =>
    split at h
    next hread =>
      cases hpending : m.pendingZones.lookup zoneId with
      | some handle =>
        simp only [hpending, Option.map_some,
          Option.orElse_eq_orElse, Option.orElse_eq_or, Option.some_or] at h
        split at h
        next hsecondary =>
          cases h
          exact ⟨_, .pending hread hpending hsecondary, rfl⟩
        next hprimary =>
          cases h
          exact ⟨_, .primary (Or.inl hpending) (Bool.eq_false_iff.mpr hprimary), rfl⟩
      | none =>
        cases hactive : zones.lookup zoneId with
        | none =>
          simp only [hpending, hactive, Option.map_none,
            Option.orElse_eq_orElse, Option.orElse_eq_or, Option.none_or] at h
          cases h
          exact ⟨_, .gone hpending hactive, rfl⟩
        | some handle =>
          simp only [hpending, hactive, Option.map_none, Option.map_some,
            Option.orElse_eq_orElse, Option.orElse_eq_or, Option.none_or] at h
          split at h
          next hsecondary =>
            cases h
            exact ⟨_, .active hread hpending hactive hsecondary, rfl⟩
          next hprimary =>
            cases h
            exact ⟨_, .primary (Or.inr ⟨hpending, hactive⟩) (Bool.eq_false_iff.mpr hprimary), rfl⟩
    · cases h
  · cases h

theorem TimerStep.taskStep {task task' : Task} (h : TimerStep m task task') :
    TaskStep m i task task' (m.setTask i task') := by
  cases h with
  | known =>
    refine taskStep_setTask ⟨?_, ?_, ?_, ?_, ?_⟩ rfl
    all_goals simp [Task.holdsPending, Task.isCaller, Task.job, Task.succeeded, sent]
  | untracked | gone | primary => exact taskStep_setTask (follows_ended rfl) rfl
  | pending hread hlookup _ =>
    refine taskStep_setTask (follows_found rfl hread rfl ?_ rfl) rfl
    intro r hr _
    cases hr
    exact hlookup
  | active hread _ _ _ =>
    refine taskStep_setTask (follows_found rfl hread rfl ?_ rfl) rfl
    intro r hr hpending
    cases hr
    cases hpending

/-- The steps of `handle_notify` until it starts to refresh, with what they leave of the time tracking. -/
inductive NotifyStep (m : ZoneMaintainer) : Task → Task → HashMap ZoneId ZoneRefreshState → Prop
  | unknown {zoneId : ZoneId} {source : Option IpAddr} {zones : MemberZones} :
      zones.lookup zoneId = none → m.pendingZones.lookup zoneId = none →
      NotifyStep m (.notify zoneId source zones) .ended m.timeTracking
  | changedHere {zoneId : ZoneId} {zones : MemberZones} : m.pendingReadable = true →
      NotifyStep m (.notify zoneId none zones) .notifying m.timeTracking
  | asked {zoneId : ZoneId} {source : IpAddr} {zones : MemberZones} {handle : Handle}
      {isPending : Bool} : m.pendingReadable = true →
      (isPending = true → m.pendingZones.lookup zoneId = some handle) →
      NotifyStep m (.notify zoneId (some source) zones)
        (.asked source ⟨.NotifyFromPrimary source, zoneId, handle, isPending⟩) m.timeTracking
  | notified : NotifyStep m .notifying .ended m.timeTracking
  | refused {source : IpAddr} {r : Refresh} : NotifyStep m (.asked source r) .ended m.timeTracking
  | accepted {source : IpAddr} {r : Refresh} :
      NotifyStep m (.asked source r) (.accepted source r) m.timeTracking
  | untracked {source : IpAddr} {r : Refresh} : m.timeTracking.lookup r.zoneId = none →
      NotifyStep m (.accepted source r) .ended m.timeTracking
  | inProgress {source : IpAddr} {r : Refresh} {info : ZoneRefreshState} :
      m.timeTracking.lookup r.zoneId = some info → info.status = .NotifyInProgress →
      NotifyStep m (.accepted source r) .ended m.timeTracking
  | start {source : IpAddr} {r : Refresh} {info : ZoneRefreshState} :
      m.timeTracking.lookup r.zoneId = some info → info.status ≠ .NotifyInProgress →
      NotifyStep m (.accepted source r)
        (.refresh r (.starting (some (.new source ianaDnsPortNumber))))
        (m.track r.zoneId { info with status := .NotifyInProgress }).timeTracking

theorem notifyNext_cases {task : Task} {input : Input} (h : m.notifyNext i task input = some m') :
    ∃ task' tracking, NotifyStep m task task' tracking ∧
      m' = { m with timeTracking := tracking }.setTask i task' := by
  unfold notifyNext at h
  split at h
  next zoneId source zones =>
    split at h
    next hread =>
      cases hactive : zones.lookup zoneId with
      | some handle =>
        simp only [hactive, Option.map_some,
          Option.orElse_eq_orElse, Option.orElse_eq_or, Option.some_or] at h
        cases source with
        | none =>
          cases h
          exact ⟨_, _, .changedHere hread, rfl⟩
        | some source =>
          cases h
          exact ⟨_, _, .asked hread (fun hpending ↦ by cases hpending), rfl⟩
      | none =>
        cases hlookup : m.pendingZones.lookup zoneId with
        | none =>
          simp only [hactive, hlookup, Option.map_none,
            Option.orElse_eq_orElse, Option.orElse_eq_or, Option.none_or] at h
          cases h
          exact ⟨_, _, .unknown hactive hlookup, rfl⟩
        | some handle =>
          simp only [hactive, hlookup, Option.map_none, Option.map_some,
            Option.orElse_eq_orElse, Option.orElse_eq_or, Option.none_or] at h
          cases source with
          | none =>
            cases h
            exact ⟨_, _, .changedHere hread, rfl⟩
          | some source =>
            cases h
            exact ⟨_, _, .asked hread (fun _ ↦ hlookup), rfl⟩
    · cases h
  · cases h
    exact ⟨_, _, .notified, rfl⟩
  next known =>
    cases h
    cases known with
    | true => exact ⟨_, _, .accepted, rfl⟩
    | false => exact ⟨_, _, .refused, rfl⟩
  · split at h
    · split at h
      next hlookup =>
        cases h
        exact ⟨_, _, .untracked hlookup, rfl⟩
      next info hlookup =>
        split at h
        next hstatus =>
          cases h
          exact ⟨_, _, .inProgress hlookup hstatus, rfl⟩
        next hstatus =>
          cases h
          exact ⟨_, _, .start hlookup hstatus, rfl⟩
    · cases h
  · cases h

theorem NotifyStep.taskStep {task task' : Task} {tracking : HashMap ZoneId ZoneRefreshState}
    (h : NotifyStep m task task' tracking) :
    TaskStep m i task task' ({ m with timeTracking := tracking }.setTask i task') := by
  cases h with
  | unknown | notified | refused | untracked | inProgress =>
    exact taskStep_setTask (follows_ended rfl) rfl
  | changedHere hread =>
    exact taskStep_setTask (follows_found rfl hread rfl (fun r hr ↦ by cases hr) rfl) rfl
  | asked hread hlookup =>
    refine taskStep_setTask (follows_found rfl hread rfl ?_ rfl) rfl
    intro r hr hpending
    cases hr
    exact hlookup hpending
  | accepted => exact taskStep_setTask (follows_same rfl rfl rfl rfl rfl) rfl
  | start hlookup _ =>
    exact taskStep_quiet (follows_same rfl rfl rfl rfl rfl) rfl
      (fun _ ↦ mem_track (HashMap.mem_iff_lookup.mpr ⟨_, hlookup⟩)) (.refl _)

/-- A stage of a refresh and the next one, with nothing to send in between. -/
inductive Advance (m : ZoneMaintainer) (r : Refresh) : RefreshStage → RefreshStage → Prop
  | start {addr : Option SocketAddr} : Advance m r (.starting addr) (.reading addr)
  | read {addr : Option SocketAddr} {zone : MaintainedZone} :
      m.zoneHeap.get r.zoneId r.handle = some zone → Advance m r (.reading addr)
        (.querying ⟨zone.soa.map Soa.serial, primaryAddrs zone.config addr, 0, false⟩)
  | notNeeded {primaries : Primaries} : primaries.remaining = [] → 0 < primaries.numOk →
      Advance m r (.querying primaries) (.finishing (.ok none))
  | allFailed {primaries : Primaries} : primaries.remaining = [] → primaries.savedErr = true →
      Advance m r (.querying primaries) (.finishing (.error ()))
  | nextPrimary {stage : RefreshStage} {primaries primaries' : Primaries} :
      (stage = .querying primaries ∨ ∃ transfers, stage = .requesting primaries transfers ∨
        stage = .transferring primaries transfers) →
      (0 < primaries'.numOk ∨ primaries'.savedErr = true) →
      Advance m r stage (.querying primaries')
  | newer {primaries primaries' : Primaries} {transfers : List XfrType} :
      Advance m r (.querying primaries) (.requesting primaries' transfers)
  | request {primaries : Primaries} {transfers : List XfrType} :
      Advance m r (.requesting primaries transfers) (.transferring primaries transfers)
  | progress {primaries : Primaries} {transfers : List XfrType} :
      Advance m r (.transferring primaries transfers) (.transferring primaries transfers)
  | transferred {primaries : Primaries} {transfers : List XfrType} {soa : Soa} :
      m.soa r.zoneId r.handle = some soa →
      Advance m r (.transferring primaries transfers) (.finishing (.ok (some soa)))
  | fallback {primaries : Primaries} {transfers : List XfrType} :
      Advance m r (.transferring primaries (.IXFR :: transfers)) (.requesting primaries transfers)

/-- A stage of a refresh after which the task ends. -/
inductive Stops (m : ZoneMaintainer) (r : Refresh) : RefreshStage → Prop
  | noPrimary {primaries : Primaries} : primaries.remaining = [] → primaries.numOk = 0 →
      primaries.savedErr = false → Stops m r (.querying primaries)
  | untracked {res : Except Unit (Option Soa)} : m.timeTracking.lookup r.zoneId = none →
      Stops m r (.finishing res)
  | notPending {ok : Bool} : (ok && r.isPending) = false → Stops m r (.rescheduled ok)
  | migrated : Stops m r .migrated

/-- The steps of a refresh. -/
inductive RefreshStep (m : ZoneMaintainer) (i : TaskId) (r : Refresh) :
    Input → RefreshStage → Task → ZoneMaintainer → Prop
  | advance {input : Input} {stage stage' : RefreshStage}
      {tracking : HashMap ZoneId ZoneRefreshState} :
      Advance m r stage stage' → (∀ zoneId, zoneId ∈ tracking ↔ zoneId ∈ m.timeTracking) →
      RefreshStep m i r input stage (.refresh r stage')
        ({ m with timeTracking := tracking }.setTask i (.refresh r stage'))
  | write {primaries : Primaries} {transfers : List XfrType} {zone : MaintainedZone}
      {soa : Option Soa} : m.zoneHeap.get r.zoneId r.handle = some zone →
      RefreshStep m i r (.write soa) (.transferring primaries transfers)
        (.refresh r (.transferring primaries transfers))
        ({ m with
          zoneHeap := m.zoneHeap.set r.zoneId r.handle { zone with soa := soa } }.setTask i
          (.refresh r (.transferring primaries transfers)))
  | commit {primaries : Primaries} {transfers : List XfrType} {zone : MaintainedZone} {soa : Soa} :
      m.zoneHeap.get r.zoneId r.handle = some zone →
      RefreshStep m i r (.commit soa) (.transferring primaries transfers)
        (.refresh r (.changed primaries transfers))
        ({ m with
          zoneHeap := m.zoneHeap.set r.zoneId r.handle { zone with soa := some soa } }.setTask i
          (.refresh r (.changed primaries transfers)))
  | changed {input : Input} {primaries : Primaries} {transfers : List XfrType} :
      RefreshStep m i r input (.changed primaries transfers)
        (.refresh r (.transferring primaries transfers))
        (m.sendFrom i (.ZoneChanged r.zoneId none)
          (.refresh r (.transferring primaries transfers)))
  | expired {input : Input} {info : ZoneRefreshState} : m.timeTracking.lookup r.zoneId = some info →
      (info.status = .RetryInProgress ∧ info.isExpired m.now = true) →
      RefreshStep m i r input (.finishing (.error ())) .ended
        ({ m with
          zoneHeap := (m.zoneHeap.get r.zoneId r.handle).elim m.zoneHeap
            (fun zone ↦ m.zoneHeap.set r.zoneId r.handle { zone with expired := true }) }.setTask i
          .ended)
  | failed {input : Input} {info info' : ZoneRefreshState} :
      m.timeTracking.lookup r.zoneId = some info →
      ¬(info.status = .RetryInProgress ∧ info.isExpired m.now = true) →
      RefreshStep m i r input (.finishing (.error ())) (.refresh r (.rescheduled false))
        ((m.track r.zoneId info').sendFrom i
          (.ZoneRefreshRequested .SoaRetryTimer r.zoneId (some info.retry))
          (.refresh r (.rescheduled false)))
  | succeeded {input : Input} {newSoa : Option Soa} {info info' : ZoneRefreshState} :
      m.timeTracking.lookup r.zoneId = some info →
      RefreshStep m i r input (.finishing (.ok newSoa)) (.refresh r (.rescheduled true))
        ((m.track r.zoneId info').sendFrom i
          (.ZoneRefreshRequested .SoaRefreshTimer r.zoneId
            (some (newSoa.elim info info.refreshSucceeded).refresh))
          (.refresh r (.rescheduled true)))
  | announce {input : Input} {ok : Bool} : (ok && r.isPending) = true →
      RefreshStep m i r input (.rescheduled ok) (.refresh r .migrated)
        (m.sendFrom i (.ZoneAdded r.zoneId) (.refresh r .migrated))
  | stop {input : Input} {stage : RefreshStage} : m.Stops r stage →
      RefreshStep m i r input stage .ended (m.setTask i .ended)

-- A step that sends nothing and changes nothing but the stage.
theorem RefreshStep.quiet {r : Refresh} {input : Input} {stage stage' : RefreshStage}
    (h : Advance m r stage stage') :
    RefreshStep m i r input stage (.refresh r stage') (m.setTask i (.refresh r stage')) :=
  .advance h (fun _ ↦ Iff.rfl)

-- A step that also changes what is recorded of the zone.
theorem RefreshStep.retracked {r : Refresh} {input : Input} {stage stage' : RefreshStage}
    (f : ZoneRefreshState → ZoneRefreshState) (h : Advance m r stage stage') :
    RefreshStep m i r input stage (.refresh r stage')
      ((m.retrack r.zoneId f).setTask i (.refresh r stage')) := by
  rw [retrack_eq]
  exact .advance h (fun _ ↦ mem_retrack)

theorem finishRefresh_cases {r : Refresh} {input : Input} {info : ZoneRefreshState}
    {res : Except Unit (Option Soa)} (hlookup : m.timeTracking.lookup r.zoneId = some info) :
    ∃ task', RefreshStep m i r input (.finishing res) task' (m.finishRefresh i r info res) := by
  cases res with
  | error e =>
    simp only [finishRefresh]
    split
    next hexpired => exact ⟨_, .expired hlookup hexpired⟩
    next hexpired => exact ⟨_, .failed hlookup hexpired⟩
  | ok newSoa => exact ⟨_, .succeeded hlookup⟩

/-! ### The stages of a refresh -/

section

variable {r : Refresh} {input : Input}

theorem starting_cases {addr : Option SocketAddr}
    (h : m.refreshNext i r (.starting addr) input = some m') :
    ∃ task', RefreshStep m i r input (.starting addr) task' m' := by
  cases input with
  | next =>
    simp only [refreshNext] at h
    split at h
    · cases h
      exact ⟨_, .retracked _ .start⟩
    · cases h
  | _ => cases h

theorem reading_cases {addr : Option SocketAddr}
    (h : m.refreshNext i r (.reading addr) input = some m') :
    ∃ task', RefreshStep m i r input (.reading addr) task' m' := by
  cases input with
  | next =>
    simp only [refreshNext] at h
    split at h
    next zone hget =>
      cases h
      exact ⟨_, .quiet (.read hget)⟩
    · cases h
  | _ => cases h

-- No primary is left.
theorem querying_nil_cases {currentSerial : Option Serial} {numOk : Nat} {savedErr : Bool}
    (h : m.refreshNext i r (.querying ⟨currentSerial, [], numOk, savedErr⟩) input = some m') :
    ∃ task', RefreshStep m i r input (.querying ⟨currentSerial, [], numOk, savedErr⟩) task' m' := by
  cases input with
  | next =>
    simp only [refreshNext] at h
    split at h
    next hok =>
      cases h
      exact ⟨_, .quiet (.notNeeded rfl hok)⟩
    next hok =>
      split at h
      next herr =>
        cases h
        exact ⟨_, .quiet (.allFailed rfl herr)⟩
      next herr =>
        cases h
        exact ⟨_, .stop (.noPrimary rfl (Nat.eq_zero_of_not_pos hok) (Bool.eq_false_iff.mpr herr))⟩
  | _ => cases h

-- The next primary answers the SOA query, or does not.
theorem querying_cons_cases {currentSerial : Option Serial} {primary : SocketAddr × XfrConfig}
    {remaining : List (SocketAddr × XfrConfig)} {numOk : Nat} {savedErr : Bool}
    (h : m.refreshNext i r (.querying ⟨currentSerial, primary :: remaining, numOk, savedErr⟩) input =
      some m') :
    ∃ task', RefreshStep m i r input
      (.querying ⟨currentSerial, primary :: remaining, numOk, savedErr⟩) task' m' := by
  cases input with
  | soaAnswer serial =>
    cases serial with
    | none =>
      cases h
      exact ⟨_, .quiet (.nextPrimary (Or.inl rfl) (Or.inr rfl))⟩
    | some serial =>
      simp only [refreshNext] at h
      split at h
      · cases h
        refine ⟨_, .retracked _ ?_⟩
        split
        · exact .nextPrimary (Or.inl rfl) (Or.inl (Nat.succ_pos _))
        · exact .newer
      · cases h
  | _ => cases h

theorem requesting_cases {primaries : Primaries} {transfers : List XfrType}
    (h : m.refreshNext i r (.requesting primaries transfers) input = some m') :
    ∃ task', RefreshStep m i r input (.requesting primaries transfers) task' m' := by
  cases input with
  | next =>
    cases transfers with
    | nil =>
      cases h
      exact ⟨_, .quiet (.nextPrimary (Or.inr ⟨_, Or.inl rfl⟩) (Or.inl (Nat.succ_pos _)))⟩
    | cons xfrType transfers =>
      simp only [refreshNext] at h
      split at h
      · cases h
        exact ⟨_, .quiet (.nextPrimary (Or.inr ⟨_, Or.inl rfl⟩) (Or.inr rfl))⟩
      · cases h
        exact ⟨_, .quiet .request⟩
  | _ => cases transfers <;> cases h

-- A transfer that fails leads on to the next primary, unless the server knows no IXFR.
theorem transferring_failed_cases {primaries : Primaries} {transfers : List XfrType}
    (hinput : input = .notImplemented ∨ input = .failed)
    (h : m.refreshNext i r (.transferring primaries transfers) input = some m') :
    ∃ task', RefreshStep m i r input (.transferring primaries transfers) task' m' := by
  have hfailed : RefreshStep m i r input (.transferring primaries transfers)
      (.refresh r (.querying primaries.failed))
      (m.setTask i (.refresh r (.querying primaries.failed))) :=
    .quiet (.nextPrimary (Or.inr ⟨_, Or.inr rfl⟩) (Or.inr rfl))
  rcases hinput with rfl | rfl
  · match transfers with
    | .IXFR :: transfers =>
      cases h
      exact ⟨_, .quiet .fallback⟩
    | .AXFR :: transfers =>
      cases h
      exact ⟨_, hfailed⟩
    | [] =>
      cases h
      exact ⟨_, hfailed⟩
  · cases h
    exact ⟨_, hfailed⟩

theorem transferring_cases {primaries : Primaries} {transfers : List XfrType}
    (h : m.refreshNext i r (.transferring primaries transfers) input = some m') :
    ∃ task', RefreshStep m i r input (.transferring primaries transfers) task' m' := by
  cases input with
  | write soa =>
    simp only [refreshNext] at h
    split at h
    next zone hget =>
      cases h
      exact ⟨_, .write hget⟩
    · cases h
  | commit soa =>
    simp only [refreshNext] at h
    split at h
    next zone hget =>
      cases h
      exact ⟨_, .commit hget⟩
    · cases h
  | progress =>
    simp only [refreshNext] at h
    split at h
    · cases h
      exact ⟨_, .retracked _ .progress⟩
    · cases h
  | finished =>
    simp only [refreshNext] at h
    split at h
    · split at h
      next hsoa =>
        cases h
        exact ⟨_, .retracked _ (.transferred hsoa)⟩
      · cases h
        exact ⟨_, .quiet (.nextPrimary (Or.inr ⟨_, Or.inr rfl⟩) (Or.inr rfl))⟩
    · cases h
  | notImplemented => exact transferring_failed_cases (Or.inl rfl) h
  | failed => exact transferring_failed_cases (Or.inr rfl) h
  | next | knownPrimary | soaAnswer => cases h

theorem finishing_cases {res : Except Unit (Option Soa)}
    (h : m.refreshNext i r (.finishing res) input = some m') :
    ∃ task', RefreshStep m i r input (.finishing res) task' m' := by
  cases input with
  | next =>
    simp only [refreshNext] at h
    split at h
    · split at h
      next hlookup =>
        cases h
        exact finishRefresh_cases hlookup
      next hlookup =>
        cases h
        exact ⟨_, .stop (.untracked hlookup)⟩
    · cases h
  | _ => cases h

theorem rescheduled_cases {ok : Bool} (h : m.refreshNext i r (.rescheduled ok) input = some m') :
    ∃ task', RefreshStep m i r input (.rescheduled ok) task' m' := by
  cases input with
  | next =>
    simp only [refreshNext] at h
    split at h
    next hok =>
      cases h
      exact ⟨_, .announce hok⟩
    next hok =>
      cases h
      exact ⟨_, .stop (.notPending (Bool.eq_false_iff.mpr hok))⟩
  | _ => cases h

theorem refreshNext_cases {stage : RefreshStage}
    (h : m.refreshNext i r stage input = some m') :
    ∃ task', RefreshStep m i r input stage task' m' := by
  cases stage with
  | starting addr => exact starting_cases h
  | reading addr => exact reading_cases h
  | querying primaries =>
    obtain ⟨currentSerial, remaining, numOk, savedErr⟩ := primaries
    cases remaining with
    | nil => exact querying_nil_cases h
    | cons primary remaining => exact querying_cons_cases h
  | requesting primaries transfers => exact requesting_cases h
  | transferring primaries transfers => exact transferring_cases h
  | changed primaries transfers =>
    cases input with
    | next =>
      cases h
      exact ⟨_, .changed⟩
    | _ => cases h
  | finishing res => exact finishing_cases h
  | rescheduled ok => exact rescheduled_cases h
  | migrated =>
    cases input with
    | next =>
      cases h
      exact ⟨_, .stop .migrated⟩
    | _ => cases h

end

-- A refresh that ends well has a loaded zone, or needed no transfer.
theorem Advance.follows {r : Refresh} {stage stage' : RefreshStage} (h : Advance m r stage stage') :
    Follows m (.refresh r stage) (.refresh r stage') := by
  apply follows_refresh
  intro hsucceeded
  cases h with
  | transferred hsoa => exact Or.inr (Or.inl (by rw [hsoa]; rfl))
  | _ => cases hsucceeded

theorem Advance.sent {r : Refresh} {stage stage' : RefreshStage} (h : Advance m r stage stage') :
    m.sent (.refresh r stage) = none := by
  cases h with
  | nextPrimary hstage =>
    rcases hstage with rfl | ⟨transfers, rfl | rfl⟩
    · rfl
    · rfl
    · rfl
  | _ => rfl

theorem Stops.sent {r : Refresh} {stage : RefreshStage} (h : m.Stops r stage) :
    m.sent (.refresh r stage) = none := by
  cases h with
  | @untracked res hlookup => cases res <;> simp [ZoneMaintainer.sent, hlookup]
  | notPending hok => simp [ZoneMaintainer.sent, hok]
  | noPrimary | migrated => rfl

theorem RefreshStep.taskStep {r : Refresh} {input : Input} {stage : RefreshStage} {task' : Task}
    (h : RefreshStep m i r input stage task' m') : TaskStep m i (.refresh r stage) task' m' := by
  have hmem : ∀ {info : ZoneRefreshState}, m.timeTracking.lookup r.zoneId = some info →
      r.zoneId ∈ m.timeTracking := fun hlookup ↦ HashMap.mem_iff_lookup.mpr ⟨_, hlookup⟩
  cases h with
  | advance hadvance htracked => exact taskStep_quiet hadvance.follows hadvance.sent htracked (.refl _)
  | write hget | commit hget =>
    exact taskStep_quiet (follows_refresh (by simp [Task.succeeded])) rfl (fun _ ↦ Iff.rfl)
      (.set hget rfl)
  | changed =>
    exact taskStep_send (follows_refresh (by simp [Task.succeeded])) rfl (fun _ ↦ Iff.rfl)
  | expired hlookup hexpired =>
    have hsent : m.sent (.refresh r (.finishing (.error ()))) = none := by
      simp [sent, hlookup, hexpired]
    refine taskStep_quiet (follows_ended hsent) hsent (fun _ ↦ Iff.rfl) ?_
    cases hget : m.zoneHeap.get r.zoneId r.handle with
    | none => exact .refl _
    | some zone => exact .set hget rfl
  | failed hlookup hexpired =>
    exact taskStep_send (follows_refresh (by simp [Task.succeeded]))
      (by simp [sent, hlookup, hexpired]) (fun _ ↦ mem_track (hmem hlookup))
  | @succeeded _ newSoa _ _ hlookup =>
    have hfollows : Follows m (.refresh r (.finishing (.ok newSoa)))
        (.refresh r (.rescheduled true)) := by
      apply follows_refresh
      intro _
      cases newSoa with
      | some soa => exact Or.inl rfl
      | none => exact Or.inr (Or.inr rfl)
    exact taskStep_send hfollows (by simp [sent, hlookup]) (fun _ ↦ mem_track (hmem hlookup))
  | announce hok =>
    exact taskStep_send (follows_refresh (by simp [Task.succeeded])) (by simp [sent, hok])
      (fun _ ↦ Iff.rfl)
  | stop hstops => exact taskStep_setTask (follows_ended hstops.sent) hstops.sent

/-- The steps of a task. -/
inductive TaskNext (m : ZoneMaintainer) (i : TaskId) (input : Input) :
    Task → Task → ZoneMaintainer → Prop
  | refresh {r : Refresh} {stage : RefreshStage} {task' : Task} {m' : ZoneMaintainer} :
      RefreshStep m i r input stage task' m' → TaskNext m i input (.refresh r stage) task' m'
  | timer {task task' : Task} : TimerStep m task task' →
      TaskNext m i input task task' (m.setTask i task')
  | notify {task task' : Task} {tracking : HashMap ZoneId ZoneRefreshState} :
      NotifyStep m task task' tracking →
      TaskNext m i input task task' ({ m with timeTracking := tracking }.setTask i task')
  | insert {task task' : Task} {m' : ZoneMaintainer} : InsertStep m i task task' m' →
      TaskNext m i input task task' m'

variable {input : Input}

theorem taskNext_cases {task : Task} (h : m.taskNext i input task = some m') :
    ∃ task', TaskNext m i input task task' m' := by
  cases task with
  | refresh r stage =>
    obtain ⟨task', hstep⟩ := refreshNext_cases h
    exact ⟨task', .refresh hstep⟩
  | timer | known =>
    simp only [taskNext] at h
    obtain ⟨task', hstep, rfl⟩ := timerNext_cases h
    exact ⟨task', .timer hstep⟩
  | notify | notifying | asked | accepted =>
    simp only [taskNext] at h
    obtain ⟨task', tracking, hstep, rfl⟩ := notifyNext_cases h
    exact ⟨task', .notify hstep⟩
  | insert | announcing | storing | loading | updating | sending | ended =>
    simp only [taskNext] at h
    obtain ⟨task', hstep⟩ := insertNext_cases h
    exact ⟨task', .insert hstep⟩

theorem TaskNext.taskStep {task task' : Task} (h : TaskNext m i input task task' m') :
    TaskStep m i task task' m' := by
  cases h with
  | refresh hstep => exact hstep.taskStep
  | timer hstep => exact hstep.taskStep
  | notify hstep => exact hstep.taskStep
  | insert hstep => exact hstep.taskStep

theorem TaskNext.insertStep {task task' : Task} (h : TaskNext m i input task task' m') :
    InsertStep m i task task' m' ∨ task.isCaller = false := by
  cases h with
  | refresh => exact Or.inr rfl
  | timer hstep => cases hstep <;> exact Or.inr rfl
  | notify hstep => cases hstep <;> exact Or.inr rfl
  | insert hstep => exact Or.inl hstep

-- A task sets no timer.
theorem TaskNext.refreshTimers {task task' : Task} (h : TaskNext m i input task task' m') :
    m'.refreshTimers = m.refreshTimers := by
  cases h with
  | refresh hstep => cases hstep <;> rfl
  | timer | notify => rfl
  | insert hstep => cases hstep <;> rfl

end

/-! ## The run loop -/

/-- The steps of `on_zone_added`. -/
inductive LoopStep (m : ZoneMaintainer) : ZoneMaintainer → Prop
  | locked {zoneId : ZoneId} {handle : Handle} : m.runLoop = .added zoneId →
      m.pendingFree = true → m.pendingZones.lookup zoneId = some handle →
      LoopStep m { m with runLoop := .tracking zoneId handle }
  | notPending {zoneId : ZoneId} : m.runLoop = .added zoneId → m.pendingFree = true →
      m.pendingZones.lookup zoneId = none → LoopStep m { m with runLoop := .idle }
  | notSecondary {zoneId : ZoneId} {handle : Handle} : m.runLoop = .tracking zoneId handle →
      LoopStep m { m with runLoop := .idle }
  | empty {zoneId : ZoneId} {handle : Handle} : m.runLoop = .tracking zoneId handle →
      m.timeTracking.lookup zoneId = none → m.soa zoneId handle = none →
      LoopStep m ((m.track zoneId (.default m.now)).scheduleAdded zoneId none)
  | loaded {zoneId : ZoneId} {handle : Handle} {soa : Soa} :
      m.runLoop = .tracking zoneId handle → m.timeTracking.lookup zoneId = none →
      m.soa zoneId handle = some soa →
      LoopStep m { m.track zoneId (.new soa m.now) with
        pendingZones := m.pendingZones.erase zoneId
        runLoop := .promoting zoneId handle soa.refresh }
  | again {zoneId : ZoneId} {handle : Handle} {info : ZoneRefreshState} :
      m.runLoop = .tracking zoneId handle → m.timeTracking.lookup zoneId = some info →
      LoopStep m { m with
        pendingZones := m.pendingZones.erase zoneId
        runLoop := .promoting zoneId handle info.refresh }
  | duplicate {zoneId : ZoneId} {handle : Handle} {soaRefresh : UInt32} :
      m.runLoop = .promoting zoneId handle soaRefresh → zoneId ∈ m.loadedArc →
      LoopStep m { m with runLoop := .panicked }
  | insert {zoneId : ZoneId} {handle : Handle} {soaRefresh : UInt32} :
      m.runLoop = .promoting zoneId handle soaRefresh → zoneId ∉ m.loadedArc →
      LoopStep m { m with
        runLoop := .storing zoneId soaRefresh (m.loadedArc.insert zoneId handle) }
  | store {zoneId : ZoneId} {soaRefresh : UInt32} {newZones : MemberZones} :
      m.runLoop = .storing zoneId soaRefresh newZones →
      LoopStep m { m with memberZones := newZones, runLoop := .loading zoneId soaRefresh }
  | load {zoneId : ZoneId} {soaRefresh : UInt32} : m.runLoop = .loading zoneId soaRefresh →
      LoopStep m { m with runLoop := .updating zoneId soaRefresh m.memberZones }
  | update {zoneId : ZoneId} {soaRefresh : UInt32} {zones : MemberZones} :
      m.runLoop = .updating zoneId soaRefresh zones →
      LoopStep m ({ m with loadedArc := zones }.scheduleAdded zoneId (some soaRefresh))

section

variable {m m' : ZoneMaintainer} {a : Action}

theorem loopNext_spec (h : m.loopNext = some m') : LoopStep m m' := by
  unfold loopNext at h
  split at h
  next zoneId hloop =>
    split at h
    next hfree =>
      split at h
      next handle hlookup =>
        cases h
        exact .locked hloop hfree hlookup
      next hlookup =>
        cases h
        exact .notPending hloop hfree hlookup
    · cases h
  next zoneId handle hloop =>
    unfold trackZoneFreshness at h
    by_cases hfree : m.trackingFree = true
    · rw [if_pos hfree] at h
      by_cases hsecondary : m.isSecondary zoneId handle = true
      · rw [if_pos hsecondary] at h
        cases hlookup : m.timeTracking.lookup zoneId with
        | none =>
          cases hsoa : m.soa zoneId handle with
          | none =>
            rw [hlookup, hsoa] at h
            cases h
            exact .empty hloop hlookup hsoa
          | some soa =>
            rw [hlookup, hsoa] at h
            cases h
            exact .loaded hloop hlookup hsoa
        | some info =>
          rw [hlookup] at h
          cases h
          exact .again hloop hlookup
      · rw [if_neg hsecondary] at h
        cases h
        exact .notSecondary hloop
    · rw [if_neg hfree] at h
      cases h
  next zoneId handle soaRefresh hloop =>
    split at h
    next hmem =>
      cases h
      exact .duplicate hloop hmem
    next hmem =>
      cases h
      exact .insert hloop hmem
  next hloop =>
    cases h
    exact .store hloop
  next hloop =>
    cases h
    exact .load hloop
  next hloop =>
    cases h
    exact .update hloop
  · cases h
  · cases h

theorem LoopStep.frame (h : LoopStep m m') :
    m'.tasks = m.tasks ∧ m'.channel = m.channel ∧ m'.zoneHeap = m.zoneHeap := by
  cases h <;> exact ⟨rfl, rfl, rfl⟩

-- The loop comes to wait for the lock by receiving an event only.
theorem LoopStep.not_added (h : LoopStep m m') (zoneId : ZoneId) :
    m'.runLoop ≠ .added zoneId := by
  cases h <;> simp [scheduleAdded]

/-! ## Locks and the channel -/

/-- The task `i` holds the lock of the pending zones. -/
def holdsPending (m : ZoneMaintainer) (i : TaskId) : Bool := m.tasks[i]?.any Task.holdsPending

/-- The task `i` holds the lock of the time tracking. -/
def holdsTracking (m : ZoneMaintainer) (i : TaskId) : Bool := m.tasks[i]?.any Task.holdsTracking

-- Who holds the lock of the time tracking is refreshing a zone.
theorem holdsPending_of_holdsTracking {i : TaskId} (h : m.holdsTracking i = true) :
    m.holdsPending i = true := by
  obtain ⟨task, htask, hholds⟩ := (Option.any_eq_true _ _).mp h
  refine (Option.any_eq_true _ _).mpr ⟨task, htask, ?_⟩
  cases task with
  | refresh => rfl
  | _ => cases hholds

theorem holdsPending_of_pendingFree (h : m.pendingFree = true) (i : TaskId) :
    m.holdsPending i = false := by
  have hnone : m.tasks.any Task.holdsPending = false := by
    simp only [pendingFree, Bool.and_eq_true, Bool.not_eq_true'] at h
    exact h.2
  cases hholds : m.holdsPending i with
  | false => rfl
  | true =>
    obtain ⟨task, htask, hholds⟩ := (Option.any_eq_true _ _).mp hholds
    rw [List.any_eq_false] at hnone
    exact absurd hholds (hnone task (List.mem_of_getElem? htask))

-- Spawned tasks hold no lock.
theorem holdsPending_spawn {task : Task} (h : task.holdsPending = false) (i : TaskId) :
    (m.spawn task).holdsPending i = m.holdsPending i := by
  unfold holdsPending spawn
  simp only [List.getElem?_append]
  by_cases hi : i < m.tasks.length
  · rw [if_pos hi]
  · have hnone : m.tasks[i]? = none := List.getElem?_eq_none (Nat.le_of_not_lt hi)
    rw [if_neg hi, hnone]
    cases hj : i - m.tasks.length with
    | zero => simp [h]
    | succ j => rfl

end

/-! ## All steps -/

/-- The steps that neither a task nor `on_zone_added` takes. -/
inductive OuterStep (m : ZoneMaintainer) : Action → ZoneMaintainer → Prop
  | tick (elapsed : Nat) : OuterStep m (.tick elapsed) { m with now := m.now + elapsed }
  | insertZone (zoneId : ZoneId) (config : ZoneConfig) (soa : Option Soa) :
      OuterStep m (.insertZone zoneId config soa) (m.insertZone zoneId config soa)
  | notify {zoneId : ZoneId} {serial : Option Serial} {source : IpAddr} :
      OuterStep m (.notifyZoneChanged zoneId serial source)
        (m.spawn (.sending (.ZoneChanged zoneId (some source))))
  | force {zoneId : ZoneId} : OuterStep m (.forceZoneRefresh zoneId) (m.forceZoneRefresh zoneId)
  | fire {k : Nat} {timer : ZoneRefreshInstant} : m.runLoop = .idle →
      m.refreshTimers[k]? = some timer → timer.endInstant ≤ m.now →
      OuterStep m (.fire k)
        ({ m with refreshTimers := m.refreshTimers.eraseIdx k }.spawn
          (.timer timer.cause timer.zoneId m.loadedArc))
  | zoneChanged {zoneId : ZoneId} {source : Option IpAddr} {channel : Channel TaskId Event} :
      m.runLoop = .idle → m.channel.receive = some (.ZoneChanged zoneId source, channel) →
      OuterStep m .receive
        ({ m with channel := channel }.spawn (.notify zoneId source m.loadedArc))
  | zoneAdded {zoneId : ZoneId} {channel : Channel TaskId Event} : m.runLoop = .idle →
      m.channel.receive = some (.ZoneAdded zoneId, channel) →
      OuterStep m .receive { m with channel := channel, runLoop := .added zoneId }
  | refreshRequested {cause : ZoneRefreshCause} {zoneId : ZoneId} {after : Option UInt32}
      {channel : Channel TaskId Event} : m.runLoop = .idle →
      m.channel.receive = some (.ZoneRefreshRequested cause zoneId after, channel) →
      OuterStep m .receive { m with
        channel := channel
        refreshTimers := refreshZoneAt m.refreshTimers
          (.new m.now zoneId (after.getD 0) cause) }

/-- A step of the task `i`, which does not wait for a place in the channel. -/
structure TaskTurn (m : ZoneMaintainer) (i : TaskId) (input : Input) (m' : ZoneMaintainer) :
    Prop where
  runs : ¬m.channel.Waits i
  next : ∃ task task', m.tasks[i]? = some task ∧ TaskNext m i input task task' m' ∧
    TaskStep m i task task' m' ∧ (InsertStep m i task task' m' ∨ task.isCaller = false)

theorem step_cases {m m' : ZoneMaintainer} {a : Action} (h : m.step a = some m') :
    (∃ i input, a = .task i input ∧ TaskTurn m i input m') ∨ a = .loop ∧ LoopStep m m' ∨
      OuterStep m a m' := by
  cases a with
  | task i input =>
    simp only [step] at h
    split at h
    · cases h
    next hruns =>
      split at h
      next task htask =>
        obtain ⟨task', hnext⟩ := taskNext_cases h
        exact Or.inl ⟨i, input, rfl, hruns, task, task', htask, hnext, hnext.taskStep,
          hnext.insertStep⟩
      · cases h
  | loop => exact Or.inr (Or.inl ⟨rfl, loopNext_spec h⟩)
  | tick =>
    cases h
    exact Or.inr (Or.inr (.tick _))
  | insertZone zoneId config soa =>
    cases h
    exact Or.inr (Or.inr (.insertZone zoneId config soa))
  | forceZoneRefresh zoneId =>
    cases h
    exact Or.inr (Or.inr .force)
  | notifyZoneChanged zoneId serial source =>
    simp only [step, notifyZoneChanged] at h
    repeat' split at h
    all_goals cases h
    all_goals exact Or.inr (Or.inr .notify)
  | receive =>
    simp only [step, receive] at h
    split at h
    next hloop hreceive =>
      split at h
      · cases h
        exact Or.inr (Or.inr (.zoneChanged hloop hreceive))
      · cases h
        exact Or.inr (Or.inr (.zoneAdded hloop hreceive))
      · cases h
        exact Or.inr (Or.inr (.refreshRequested hloop hreceive))
    · cases h
  | fire k =>
    simp only [step, fire] at h
    split at h
    next hloop _ htimer =>
      split at h
      next hdue =>
        cases h
        exact Or.inr (Or.inr (.fire hloop htimer hdue))
      · cases h
    · cases h

/-! ## The lock of the pending zones -/

/-- The loop shares the lock of the pending zones with nobody. -/
def Exclusive (m : ZoneMaintainer) : Prop :=
  m.runLoop.holdsPending = true → ∀ i, m.holdsPending i = false

section

variable {m m' : ZoneMaintainer} {a : Action} {i j : TaskId}

theorem holdsPending_of_set {task task' : Task} (htask : m.tasks[i]? = some task)
    (htasks : m'.tasks = m.tasks.set i task') :
    m'.holdsPending j = if j = i then task'.holdsPending else m.holdsPending j := by
  unfold holdsPending
  rw [htasks, List.getElem?_set]
  by_cases hj : j = i
  · subst hj
    have hlt : j < m.tasks.length := (List.getElem?_eq_some_iff.mp htask).1
    simp [hlt]
  · have hne : ¬i = j := fun heq ↦ hj heq.symm
    simp [hj, hne]

theorem OuterStep.holdsPending (h : OuterStep m a m') (j : TaskId) :
    m'.holdsPending j = m.holdsPending j := by
  cases h with
  | tick | zoneAdded | refreshRequested => rfl
  | insertZone | notify | force | fire | zoneChanged => exact holdsPending_spawn rfl j

theorem LoopStep.holdsPending (h : LoopStep m m') (j : TaskId) :
    m'.holdsPending j = m.holdsPending j := by
  show m'.tasks[j]?.any Task.holdsPending = _
  rw [h.frame.1]
  rfl

-- A lock is taken by a step of the task, which sends nothing, and not while the loop holds it.
theorem holdsPending_of_turn {input : Input} (h : TaskTurn m i input m')
    (hj : m'.holdsPending j = true) :
    m.holdsPending j = true ∨ j = i ∧ m.pendingReadable = true ∧ m'.channel = m.channel := by
  obtain ⟨task, task', htask, -, hstep, -⟩ := h.next
  rw [holdsPending_of_set htask hstep.tasks] at hj
  by_cases hji : j = i
  · rw [if_pos hji] at hj
    rcases hstep.follows.holds hj with hholds | ⟨hread, hsent⟩
    · rw [hji]
      exact Or.inl ((Option.any_eq_true _ _).mpr ⟨task, htask, hholds⟩)
    · refine Or.inr ⟨hji, hread, ?_⟩
      rw [hstep.channel, hsent]
      rfl
  · rw [if_neg hji] at hj
    exact Or.inl hj

theorem exclusive_started (h : m.Started) : m.Exclusive := by
  subst h
  intro hholds
  cases hholds

theorem exclusive_of_step (hinv : m.Exclusive) (h : m.step a = some m') : m'.Exclusive := by
  intro hholds j
  rcases step_cases h with ⟨i, input, rfl, hturn⟩ | ⟨-, hstep⟩ | hstep
  · obtain ⟨task, task', htask, -, hstep, -⟩ := hturn.next
    rw [hstep.runLoop] at hholds
    by_contra hj
    rcases holdsPending_of_turn hturn (Bool.of_not_eq_false hj) with hj | ⟨-, hread, -⟩
    · rw [hinv hholds j] at hj
      cases hj
    · rw [pendingReadable, hholds] at hread
      cases hread
  · rw [hstep.holdsPending j]
    cases hstep with
    | locked _ hfree _ => exact holdsPending_of_pendingFree hfree j
    | notPending | notSecondary | empty | duplicate | update => cases hholds
    | loaded hloop | again hloop | insert hloop | store hloop | load hloop =>
      exact hinv (by simp [hloop, RunLoop.holdsPending]) j
  · rw [hstep.holdsPending j]
    cases hstep with
    | zoneAdded => cases hholds
    | tick | insertZone | notify | force | fire | zoneChanged | refreshRequested =>
      exact hinv hholds j

end

end ZoneMaintainer

end Cascade

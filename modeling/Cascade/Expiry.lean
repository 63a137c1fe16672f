import Cascade.FirstLoad

/-!
# Expired zones

A zone is marked as expired when it could not be checked for the EXPIRE time, and then it is not
given out.  It goes on being refreshed when its primary notifies it or the user asks for it, but the
mark is never taken back: after a transfer the zone is given out if and only if it has never been
marked.
-/

namespace Cascade

open Lib

inductive XfrDataProviderError
  | UnknownZone
  | Refused
  | TemporarilyUnavailable
deriving DecidableEq

namespace ZoneMaintainer

/-! ## Giving zones out -/

/-- The closest active zone that `qname` is in. -/
def closest (m : ZoneMaintainer) (qname : Name) (qclass : Class) : Option Name :=
  qname.ancestors.find? (fun apexName ↦ decide (⟨apexName, qclass⟩ ∈ m.loadedArc))

/-- The zone that a transfer request gets, without the differences to what the client has.  `access`
says whether the client may have it, by its address and its key, and by the kind of transfer. -/
def request (m : ZoneMaintainer) (question : Option (Name × Class))
    (access : MaintainedZone → Bool) : Except XfrDataProviderError MaintainedZone :=
  match question with
  | none => .error .Refused
  | some (qname, qclass) =>
    match m.findZone qname qclass with
    | .ok (some zone) => if access zone then .ok zone else .error .Refused
    | .ok none => .error .UnknownZone
    | .error .TemporarilyUnavailable => .error .TemporarilyUnavailable

/-- The zone is not pending, and it is given out: by its own name, for names that it is the closest
zone of, and for transfers. -/
def Active (m : ZoneMaintainer) (zoneId : ZoneId) (handle : Handle) : Prop :=
  m.loadedArc.lookup zoneId = some handle ∧ ∃ zone,
    m.zoneHeap.get zoneId handle = some zone ∧ m.getZone zoneId = .ok (some zone) ∧
      ∀ qname, m.closest qname zoneId.zoneClass = some zoneId.name →
        m.findZone qname zoneId.zoneClass = .ok (some zone) ∧
          ∀ access, m.request (some (qname, zoneId.zoneClass)) access ≠
            .error .TemporarilyUnavailable

section

variable {m : ZoneMaintainer} {zoneId : ZoneId} {handle : Handle} {zone : MaintainedZone}

theorem activeZone_of_lookup (hlookup : m.loadedArc.lookup zoneId = some handle)
    (hget : m.zoneHeap.get zoneId handle = some zone) : m.activeZone zoneId = some zone := by
  rw [activeZone, hlookup, Option.bind_some, hget]

theorem findZone_of_closest {qname : Name} (hactive : m.activeZone zoneId = some zone)
    (hclosest : m.closest qname zoneId.zoneClass = some zoneId.name) :
    m.findZone qname zoneId.zoneClass = unexpired (some zone) := by
  have ⟨_, before, after, hancestors, hnone⟩ := List.find?_eq_some_iff_append.mp hclosest
  have hfound : qname.ancestors.findSome?
      (fun apexName ↦ m.activeZone ⟨apexName, zoneId.zoneClass⟩) = some zone := by
    refine List.findSome?_eq_some_iff.mpr ⟨before, zoneId.name, after, hancestors, hactive, ?_⟩
    intro apexName hmem
    have hmissing : (⟨apexName, zoneId.zoneClass⟩ : ZoneId) ∉ m.loadedArc := by
      simpa using hnone apexName hmem
    rw [activeZone, AList.lookup_eq_none.mpr hmissing, Option.bind_none]
  rw [findZone, hfound]

-- A zone that is not pending is given out unless it is marked.
theorem active_iff (hget : m.zoneHeap.get zoneId handle = some zone) :
    m.Active zoneId handle ↔ m.loadedArc.lookup zoneId = some handle ∧ zone.expired = false := by
  constructor
  · intro h
    obtain ⟨hlookup, zone', hget', hzone, -⟩ := h
    refine ⟨hlookup, ?_⟩
    rw [getZone, activeZone_of_lookup hlookup hget, unexpired] at hzone
    by_cases hexpired : zone.expired = true
    · rw [if_pos hexpired] at hzone
      cases hzone
    · exact Bool.eq_false_iff.mpr hexpired
  · intro h
    obtain ⟨hlookup, hexpired⟩ := h
    have hactive := activeZone_of_lookup hlookup hget
    have hgiven : unexpired (some zone) = .ok (some zone) := by
      rw [unexpired, if_neg (by rw [hexpired]; exact Bool.false_ne_true)]
    refine ⟨hlookup, zone, hget, by rw [getZone, hactive, hgiven], ?_⟩
    intro qname hclosest
    have hfound := (findZone_of_closest hactive hclosest).trans hgiven
    refine ⟨hfound, ?_⟩
    intro access
    simp only [request, hfound]
    by_cases haccess : access zone = true
    · simp [haccess]
    · simp [haccess]

end

/-! ## Marks -/

/-- Whether the zone is marked as expired, if there is such a zone. -/
def expiredAt (m : ZoneMaintainer) (zoneId : ZoneId) (handle : Handle) : Option Bool :=
  (m.zoneHeap.get zoneId handle).map MaintainedZone.expired

/-- The zone that the next step of a task marks as expired. -/
def marks (m : ZoneMaintainer) : Task → Option (ZoneId × Handle)
  | .refresh r (.finishing (.error ())) =>
    (m.timeTracking.lookup r.zoneId).bind (fun info ↦
      if info.status = .RetryInProgress ∧ info.isExpired m.now = true then
        some (r.zoneId, r.handle)
      else none)
  | _ => none

/-- The zone that a refresh has looked at. -/
def Task.examined : Task → Option (ZoneId × Handle)
  | .refresh _ (.starting _) | .refresh _ (.reading _) => none
  | .refresh r _ => some (r.zoneId, r.handle)
  | _ => none

def marksExpired (m : ZoneMaintainer) : Action → Option (ZoneId × Handle)
  | .task i _ => m.tasks[i]?.bind m.marks
  | _ => none

/-- The zones that a transfer has brought a new SOA record for, after an action: an attempt ends with
it, and until a later attempt fails. -/
def refreshedAfter (m : ZoneMaintainer) (refreshed : List (ZoneId × Handle)) :
    Action → List (ZoneId × Handle)
  | .task i _ =>
    match m.tasks[i]? with
    | some (.refresh r (.finishing (.ok (some _)))) => (r.zoneId, r.handle) :: refreshed
    | some (.refresh r (.finishing (.error ()))) =>
      refreshed.filter (fun k ↦ decide (k ≠ (r.zoneId, r.handle)))
    | _ => refreshed
  | _ => refreshed

/-- What the step of the task `i` from `task` to `task'` does to the marks. -/
structure MarkStep (m : ZoneMaintainer) (i : TaskId) (task task' : Task) (m' : ZoneMaintainer) :
    Prop where
  tasks : m'.tasks = m.tasks.set i task'
  examined : ∀ k, task'.examined = some k →
    task.examined = some k ∨ (m.expiredAt k.1 k.2).isSome = true
  expiredAt : ∀ zoneId handle, m'.expiredAt zoneId handle =
    if m.marks task = some (zoneId, handle) then (m.expiredAt zoneId handle).map (fun _ ↦ true)
    else m.expiredAt zoneId handle

section

variable {m m' : ZoneMaintainer} {i : TaskId}

theorem expiredAt_set {zoneId zoneId' : ZoneId} {handle handle' : Handle}
    {zone new : MaintainedZone} (hget : m.zoneHeap.get zoneId handle = some zone) :
    ((m.zoneHeap.set zoneId handle new).get zoneId' handle').map MaintainedZone.expired =
      if zoneId' = zoneId ∧ handle' = handle then some new.expired
      else m.expiredAt zoneId' handle' := by
  rw [Heap.get_set]
  by_cases hsame : zoneId' = zoneId ∧ handle' = handle
  · rw [if_pos hsame, if_pos hsame, hget]
    rfl
  · rw [if_neg hsame, if_neg hsame]
    rfl

-- Most steps mark nothing.
theorem markStep_quiet {task task' : Task} (htasks : m'.tasks = m.tasks.set i task')
    (hexamined : ∀ k, task'.examined = some k →
      task.examined = some k ∨ (m.expiredAt k.1 k.2).isSome = true)
    (hheap : m'.zoneHeap = m.zoneHeap) (hmarks : m.marks task = none) :
    MarkStep m i task task' m' := by
  refine ⟨htasks, hexamined, ?_⟩
  intro zoneId handle
  rw [hmarks, if_neg (Option.some_ne_none _).symm]
  unfold expiredAt
  rw [hheap]

theorem InsertStep.marks {task task' : Task} (h : InsertStep m i task task' m') :
    MarkStep m i task task' m' := by
  cases h <;> exact markStep_quiet rfl (fun _ hk ↦ by cases hk) rfl rfl

theorem TimerStep.marks {task task' : Task} (h : TimerStep m task task') :
    MarkStep m i task task' (m.setTask i task') := by
  cases h <;> exact markStep_quiet rfl (fun _ hk ↦ by cases hk) rfl rfl

theorem NotifyStep.marks {task task' : Task} {tracking : HashMap ZoneId ZoneRefreshState}
    (h : NotifyStep m task task' tracking) :
    MarkStep m i task task' ({ m with timeTracking := tracking }.setTask i task') := by
  cases h <;> exact markStep_quiet rfl (fun _ hk ↦ by cases hk) rfl rfl

theorem Advance.marks {r : Refresh} {stage stage' : RefreshStage} (h : Advance m r stage stage') :
    m.marks (.refresh r stage) = none := by
  cases h with
  | nextPrimary hstage =>
    rcases hstage with rfl | ⟨transfers, rfl | rfl⟩
    · rfl
    · rfl
    · rfl
  | _ => rfl

theorem Advance.examined {r : Refresh} {stage stage' : RefreshStage}
    (h : Advance m r stage stage') {k : ZoneId × Handle}
    (hk : (Task.refresh r stage').examined = some k) :
    (Task.refresh r stage).examined = some k ∨ (m.expiredAt k.1 k.2).isSome = true := by
  cases h with
  | start => cases hk
  | read hget =>
    cases hk
    rw [expiredAt, hget]
    exact Or.inr rfl
  | nextPrimary hstage =>
    rcases hstage with rfl | ⟨transfers, rfl | rfl⟩
    · exact Or.inl hk
    · exact Or.inl hk
    · exact Or.inl hk
  | notNeeded | allFailed | newer | request | progress | transferred | fallback => exact Or.inl hk

-- An attempt that fails while the zone is retried and out of date marks it.
theorem marks_expired {r : Refresh} {info : ZoneRefreshState}
    (hlookup : m.timeTracking.lookup r.zoneId = some info)
    (hexpired : info.status = .RetryInProgress ∧ info.isExpired m.now = true) :
    m.marks (.refresh r (.finishing (.error ()))) = some (r.zoneId, r.handle) := by
  rw [marks, hlookup, Option.bind_some, if_pos hexpired]

-- A new SOA record does not change what is out of date.
theorem expiredAt_write {zoneId zoneId' : ZoneId} {handle handle' : Handle} {zone : MaintainedZone}
    {soa : Option Soa} (hget : m.zoneHeap.get zoneId handle = some zone) :
    ((m.zoneHeap.set zoneId handle { zone with soa := soa }).get zoneId' handle').map
      MaintainedZone.expired = m.expiredAt zoneId' handle' := by
  rw [expiredAt_set hget]
  by_cases hsame : zoneId' = zoneId ∧ handle' = handle
  · rw [if_pos hsame, hsame.1, hsame.2, expiredAt, hget]
    rfl
  · rw [if_neg hsame]

-- Marking a zone changes that zone, if it is still there.
theorem expiredAt_expire {zoneId zoneId' : ZoneId} {handle handle' : Handle} :
    (((m.zoneHeap.get zoneId handle).elim m.zoneHeap
      (fun zone ↦ m.zoneHeap.set zoneId handle { zone with expired := true })).get zoneId'
        handle').map MaintainedZone.expired =
      if some (zoneId, handle) = some (zoneId', handle') then
        (m.expiredAt zoneId' handle').map (fun _ ↦ true)
      else m.expiredAt zoneId' handle' := by
  by_cases hsame : some (zoneId, handle) = some (zoneId', handle')
  · cases hsame
    rw [if_pos rfl]
    cases hget : m.zoneHeap.get zoneId handle with
    | none =>
      show (m.zoneHeap.get zoneId handle).map _ = _
      rw [expiredAt, hget]
      rfl
    | some zone =>
      show ((m.zoneHeap.set zoneId handle _).get zoneId handle).map _ = _
      rw [expiredAt_set hget, if_pos ⟨rfl, rfl⟩, expiredAt, hget]
      rfl
  · rw [if_neg hsame]
    cases hget : m.zoneHeap.get zoneId handle with
    | none => rfl
    | some zone =>
      show ((m.zoneHeap.set zoneId handle _).get zoneId' handle').map _ = _
      rw [expiredAt_set hget, if_neg]
      rintro ⟨rfl, rfl⟩
      exact hsame rfl

theorem RefreshStep.marks {r : Refresh} {input : Input} {stage : RefreshStage} {task' : Task}
    (h : RefreshStep m i r input stage task' m') : MarkStep m i (.refresh r stage) task' m' := by
  cases h with
  | advance hadvance _ => exact markStep_quiet rfl (fun _ ↦ hadvance.examined) rfl hadvance.marks
  | write hget | commit hget => exact ⟨rfl, fun _ hk ↦ Or.inl hk, fun _ _ ↦ expiredAt_write hget⟩
  | expired hlookup hexpired =>
    refine ⟨rfl, (fun _ hk ↦ by cases hk), ?_⟩
    intro zoneId handle
    rw [marks_expired hlookup hexpired]
    exact expiredAt_expire
  | failed hlookup hexpired =>
    refine markStep_quiet rfl (fun _ hk ↦ Or.inl hk) rfl ?_
    rw [ZoneMaintainer.marks, hlookup, Option.bind_some, if_neg hexpired]
  | changed | succeeded | announce => exact markStep_quiet rfl (fun _ hk ↦ Or.inl hk) rfl rfl
  | stop hstops =>
    refine markStep_quiet rfl (fun _ hk ↦ by cases hk) rfl ?_
    cases hstops with
    | @untracked res hlookup => cases res <;> simp [ZoneMaintainer.marks, hlookup]
    | noPrimary | notPending | migrated => rfl

theorem TaskNext.marks {input : Input} {task task' : Task} (h : TaskNext m i input task task' m') :
    MarkStep m i task task' m' := by
  cases h with
  | refresh hstep => exact hstep.marks
  | timer hstep => exact hstep.marks
  | notify hstep => exact hstep.marks
  | insert hstep => exact hstep.marks

/-- A task takes its turn, a zone is inserted, or the zones stay as they are. -/
inductive ZonesStep (m m' : ZoneMaintainer) : Action → Prop
  | turn {i : TaskId} {input : Input} {task task' : Task} : m.tasks[i]? = some task →
      MarkStep m i task task' m' → ZonesStep m m' (.task i input)
  | insert {a : Action} {zoneId : ZoneId} {zone : MaintainedZone} : zone.expired = false →
      m'.zoneHeap = m.zoneHeap.alloc zoneId zone → m.marksExpired a = none →
      (∀ task ∈ m'.tasks, task ∈ m.tasks ∨ task.examined = none) → ZonesStep m m' a
  | keep {a : Action} : m'.zoneHeap = m.zoneHeap → m.marksExpired a = none →
      (∀ task ∈ m'.tasks, task ∈ m.tasks ∨ task.examined = none) → ZonesStep m m' a

theorem job_of_examined {task : Task} {k : ZoneId × Handle} (h : task.examined = some k) :
    ∃ r, task.job = some r ∧ k = (r.zoneId, r.handle) := by
  unfold Task.examined at h
  split at h
  · cases h
  · cases h
  next r _ _ _ => exact ⟨r, rfl, (Option.some.inj h).symm⟩
  · cases h

theorem zonesStep_of_step {a : Action} (h : m.step a = some m') : ZonesStep m m' a := by
  rcases step_cases h with ⟨i, input, ha, hturn⟩ | ⟨ha, hloop⟩ | houter
  · have ⟨task, _, htask, hnext, _⟩ := hturn.next
    rw [ha]
    exact .turn htask hnext.marks
  · have ⟨htasks, _, hheap⟩ := hloop.frame
    rw [ha]
    refine .keep hheap rfl ?_
    intro task htask
    rw [htasks] at htask
    exact Or.inl htask
  · have htasks : ∀ task ∈ m'.tasks, task ∈ m.tasks ∨ task.examined = none := by
      intro task htask
      refine (houter.tasks htask).imp id ?_
      intro hnew
      cases hexamined : task.examined with
      | none => rfl
      | some k =>
        have ⟨r, hjob, _⟩ := job_of_examined hexamined
        rw [hnew.1] at hjob
        cases hjob
    cases houter with
    | insertZone zoneId config soa => exact .insert rfl rfl rfl htasks
    | tick | notify | force | fire | zoneChanged | zoneAdded | refreshRequested =>
      exact .keep rfl rfl htasks

variable {a : Action}

-- A zone is marked by this step, keeps its mark, or is new and not marked.
theorem expiredAt_of_step (hstep : ZonesStep m m' a) {zoneId : ZoneId} {handle : Handle} {b : Bool}
    (hb : m'.expiredAt zoneId handle = some b) :
    (m.marksExpired a = some (zoneId, handle) ∧ b = true) ∨
      m.marksExpired a ≠ some (zoneId, handle) ∧ (m.expiredAt zoneId handle = some b ∨
        m.expiredAt zoneId handle = none ∧ b = false) := by
  cases hstep with
  | @turn i input task task' htask hmarks =>
    have heq : m.marksExpired (.task i input) = m.marks task := by
      rw [marksExpired, htask, Option.bind_some]
    rw [hmarks.expiredAt] at hb
    rw [heq]
    by_cases hmarked : m.marks task = some (zoneId, handle)
    · rw [if_pos hmarked] at hb
      have ⟨_, _, htrue⟩ := Option.map_eq_some_iff.mp hb
      exact Or.inl ⟨hmarked, htrue.symm⟩
    · rw [if_neg hmarked] at hb
      exact Or.inr ⟨hmarked, Or.inl hb⟩
  | @insert _ new zone hexpired hheap hnone _ =>
    refine Or.inr ⟨by rw [hnone]; exact (Option.some_ne_none _).symm, ?_⟩
    unfold expiredAt at hb ⊢
    rw [hheap, Heap.get_alloc] at hb
    by_cases hsame : zoneId = new ∧ handle = m.zoneHeap.next new
    · rw [if_pos hsame] at hb
      have hnew : m.zoneHeap.get zoneId handle = none := by
        cases hget : m.zoneHeap.get zoneId handle with
        | none => rfl
        | some old =>
          have hlt := Heap.lt_next_iff.mpr ⟨old, hget⟩
          rw [hsame.1, hsame.2] at hlt
          exact absurd hlt (Nat.lt_irrefl _)
      rw [hnew]
      exact Or.inr ⟨rfl, (Option.some.inj hb).symm.trans hexpired⟩
    · rw [if_neg hsame] at hb
      exact Or.inl hb
  | keep hheap hnone _ =>
    refine Or.inr ⟨by rw [hnone]; exact (Option.some_ne_none _).symm, ?_⟩
    unfold expiredAt at hb ⊢
    rw [hheap] at hb
    exact Or.inl hb

theorem exists_of_step (hstep : ZonesStep m m' a) {zoneId : ZoneId} {handle : Handle}
    (hsome : (m.expiredAt zoneId handle).isSome = true) :
    (m'.expiredAt zoneId handle).isSome = true := by
  cases hstep with
  | turn _ hmarks =>
    rw [hmarks.expiredAt]
    split
    · rw [Option.isSome_map]
      exact hsome
    · exact hsome
  | insert _ hheap _ _ =>
    unfold expiredAt at hsome ⊢
    rw [Option.isSome_map] at hsome ⊢
    have ⟨zone, hget⟩ := Option.isSome_iff_exists.mp hsome
    rw [hheap, Heap.get_alloc_of_some hget]
    rfl
  | keep hheap _ _ =>
    unfold expiredAt at hsome ⊢
    rw [hheap]
    exact hsome

theorem examined_of_step (hstep : ZonesStep m m' a) {task : Task} {k : ZoneId × Handle}
    (htask : task ∈ m'.tasks) (hexamined : task.examined = some k) :
    (∃ old ∈ m.tasks, old.examined = some k) ∨ (m.expiredAt k.1 k.2).isSome = true := by
  cases hstep with
  | turn hold hmarks =>
    rw [hmarks.tasks] at htask
    rcases List.mem_or_eq_of_mem_set htask with hmem | heq
    · exact Or.inl ⟨task, hmem, hexamined⟩
    · rw [heq] at hexamined
      exact (hmarks.examined k hexamined).imp (fun h ↦ ⟨_, List.mem_of_getElem? hold, h⟩) id
  | insert _ _ _ htasks | keep _ _ htasks =>
    rcases htasks task htask with hmem | hnone
    · exact Or.inl ⟨task, hmem, hexamined⟩
    · rw [hnone] at hexamined
      cases hexamined

end

/-! ## Runs -/

/-- The maintainer, with the zones that have been marked as expired so far, and those that are as a
transfer has left them. -/
structure Marked where
  maintainer : ZoneMaintainer
  expired : List (ZoneId × Handle)
  refreshed : List (ZoneId × Handle)

namespace Marked

def step (w : Marked) (a : Action) : Option Marked :=
  match w.maintainer.step a with
  | some m' =>
    some ⟨m', w.expired ++ (w.maintainer.marksExpired a).toList,
      w.maintainer.refreshedAfter w.refreshed a⟩
  | none => none

def Started (w : Marked) : Prop := w.maintainer.Started ∧ w.expired = [] ∧ w.refreshed = []

/-- The invariant: a zone is marked if and only if it has been, and what has been looked at exists. -/
structure Kept (w : Marked) : Prop where
  marked : ∀ zoneId handle b, w.maintainer.expiredAt zoneId handle = some b →
    (b = true ↔ (zoneId, handle) ∈ w.expired)
  expired : ∀ k ∈ w.expired, (w.maintainer.expiredAt k.1 k.2).isSome = true
  refreshed : ∀ k ∈ w.refreshed, (w.maintainer.expiredAt k.1 k.2).isSome = true
  examined : ∀ task ∈ w.maintainer.tasks, ∀ k, task.examined = some k →
    (w.maintainer.expiredAt k.1 k.2).isSome = true

variable {w w' : Marked} {a : Action}

theorem step_eq (h : w.step a = some w') : w.maintainer.step a = some w'.maintainer ∧
    w'.expired = w.expired ++ (w.maintainer.marksExpired a).toList ∧
      w'.refreshed = w.maintainer.refreshedAfter w.refreshed a := by
  unfold Marked.step at h
  split at h
  next hm' =>
    cases h
    exact ⟨hm', rfl, rfl⟩
  · cases h

theorem kept_started (h : w.Started) : w.Kept := by
  have ⟨hm, hexpired, hrefreshed⟩ := h
  refine ⟨?_, ?_, ?_, ?_⟩
  · intro zoneId handle b hb
    rw [hm] at hb
    cases hb
  · intro k hk
    rw [hexpired] at hk
    cases hk
  · intro k hk
    rw [hrefreshed] at hk
    cases hk
  · intro task htask
    rw [hm] at htask
    cases htask

-- What is marked or refreshed by a step has been looked at.
theorem examined_of_marks {m : ZoneMaintainer} {task : Task} {k : ZoneId × Handle}
    (h : m.marks task = some k) : task.examined = some k := by
  unfold marks at h
  split at h
  · have ⟨info, _, hif⟩ := Option.bind_eq_some_iff.mp h
    split at hif
    · exact hif
    · cases hif
  · cases h

theorem Kept.exists_of_marksExpired (hinv : w.Kept) {k : ZoneId × Handle}
    (h : w.maintainer.marksExpired a = some k) :
    (w.maintainer.expiredAt k.1 k.2).isSome = true := by
  unfold marksExpired at h
  split at h
  next i _ =>
    have ⟨task, htask, hmarks⟩ := Option.bind_eq_some_iff.mp h
    exact hinv.examined task (List.mem_of_getElem? htask) k (examined_of_marks hmarks)
  · cases h

theorem Kept.exists_of_refreshed (hinv : w.Kept) {k : ZoneId × Handle}
    (h : k ∈ w.maintainer.refreshedAfter w.refreshed a) :
    (w.maintainer.expiredAt k.1 k.2).isSome = true := by
  unfold refreshedAfter at h
  split at h
  next i _ =>
    split at h
    next r soa htask =>
      rcases List.mem_cons.mp h with heq | hmem
      · rw [heq]
        exact hinv.examined _ (List.mem_of_getElem? htask) _ rfl
      · exact hinv.refreshed k hmem
    · exact hinv.refreshed k (List.mem_filter.mp h).1
    · exact hinv.refreshed k h
  · exact hinv.refreshed k h

theorem Kept.step (hinv : w.Kept) (h : w.step a = some w') : w'.Kept := by
  have ⟨hm', hexpired, hrefreshed⟩ := step_eq h
  have hstep := zonesStep_of_step hm'
  refine ⟨?_, ?_, ?_, ?_⟩
  · intro zoneId handle b hb
    rw [hexpired, List.mem_append, Option.mem_toList]
    rcases expiredAt_of_step hstep hb with ⟨hmarks, htrue⟩ | ⟨hother, hold⟩
    · exact ⟨fun _ ↦ Or.inr hmarks, fun _ ↦ htrue⟩
    · have hiff : b = true ↔ (zoneId, handle) ∈ w.expired := by
        rcases hold with hsame | ⟨hnew, hfalse⟩
        · exact hinv.marked zoneId handle b hsame
        · -- a new zone has not been marked before
          refine ⟨fun htrue ↦ absurd htrue (by simp [hfalse]), ?_⟩
          intro hmem
          have hsome := hinv.expired _ hmem
          rw [hnew] at hsome
          cases hsome
      rw [hiff]
      exact ⟨Or.inl, fun hmem ↦ hmem.resolve_right hother⟩
  · intro k hk
    rw [hexpired, List.mem_append, Option.mem_toList] at hk
    apply exists_of_step hstep
    rcases hk with hold | hnew
    · exact hinv.expired k hold
    · exact hinv.exists_of_marksExpired hnew
  · intro k hk
    rw [hrefreshed] at hk
    exact exists_of_step hstep (hinv.exists_of_refreshed hk)
  · intro task htask k hk
    apply exists_of_step hstep
    rcases examined_of_step hstep htask hk with ⟨old, hold, hk'⟩ | hsome
    · exact hinv.examined old hold k hk'
    · exact hsome

/-- In every run, a zone that is as a transfer has left it is given out if and only if it is not
pending any more and no attempt to refresh it has ever marked it as expired. -/
theorem refreshed_zone_active_iff {w : Marked}
    (h : Reach Marked.step anyStep Marked.Started w) {zoneId : ZoneId} {handle : Handle}
    (hrefreshed : (zoneId, handle) ∈ w.refreshed) :
    w.maintainer.Active zoneId handle ↔
      w.maintainer.loadedArc.lookup zoneId = some handle ∧ (zoneId, handle) ∉ w.expired := by
  have hinv : w.Kept := h.invariant (fun _ ↦ kept_started)
    (fun _ _ _ hinv _ hstep ↦ hinv.step hstep)
  have ⟨b, hb⟩ := Option.isSome_iff_exists.mp (hinv.refreshed _ hrefreshed)
  have ⟨zone, hget, hexpired⟩ := Option.map_eq_some_iff.mp hb
  rw [active_iff hget, hexpired, ← hinv.marked zoneId handle b hb, Bool.not_eq_true]

end Marked

namespace ShortRun

/-- The primary can be asked again after a second, and the zone expires after two. -/
def shortSoa (serial : UInt32) : Soa := ⟨zone.name, zone.name, ⟨serial⟩, 1, 1, 2, 60⟩

/-- The first version is transferred, and the zone becomes active. -/
def shortPromotion : List Action :=
  firstRefresh .AxfrOnly ++ [.task 1 .next, .task 1 (.commit (shortSoa 1)), .task 1 .next,
    .task 1 .finished] ++ steps 1 3 ++ [.receive, .receive, .receive] ++ List.replicate 6 .loop

/-- The task `i` asks for a refresh of the zone, and the task after it starts to refresh it. -/
def forcedRefresh (i : TaskId) : List Action :=
  [.forceZoneRefresh zone, .task i .next, .receive, .fire 0] ++ steps (i + 1) 4

/-- A refresh fails, and so does the retry when the zone is out of date. -/
def failedRetry : List Action :=
  shortPromotion ++ forcedRefresh 3 ++ [.task 4 (.soaAnswer none)] ++ steps 4 3 ++
    [.receive, .tick (seconds 3), .fire 0] ++ steps 5 4 ++ [.task 5 (.soaAnswer none)] ++
    steps 5 2

/-- A second version is transferred after that. -/
def transferAfterwards : List Action :=
  failedRetry ++ forcedRefresh 6 ++ [.task 7 (.soaAnswer (some ⟨2⟩)), .task 7 .next,
    .task 7 (.commit (shortSoa 2)), .task 7 .next, .task 7 .finished, .task 7 .next]

end ShortRun

theorem first_version_active : ∃ w : Marked, w.maintainer.Active ShortRun.zone 0 := by
  have hstarted : Marked.Started ⟨new, [], []⟩ := ⟨rfl, rfl, rfl⟩
  have hrun : ∃ w, Reach Marked.step anyStep Marked.Started w ∧
      decide ((ShortRun.zone, 0) ∈ w.refreshed ∧
        w.maintainer.loadedArc.lookup ShortRun.zone = some 0 ∧
        (ShortRun.zone, 0) ∉ w.expired) = true :=
    Reach.of_exec_any hstarted ShortRun.shortPromotion (by decide)
  have ⟨w, hw, hend⟩ := hrun
  have ⟨hrefreshed, hlookup, hexpired⟩ := of_decide_eq_true hend
  exact ⟨w, (Marked.refreshed_zone_active_iff hw hrefreshed).mpr ⟨hlookup, hexpired⟩⟩

/-- Once the zone has expired, it stays so although the second version has been transferred. -/
theorem expired_zone_not_active : ∃ w : Marked, Reach Marked.step anyStep Marked.Started w ∧
    (ShortRun.zone, 0) ∈ w.refreshed ∧
      w.maintainer.loadedArc.lookup ShortRun.zone = some 0 ∧
      w.maintainer.soa ShortRun.zone 0 = some (ShortRun.shortSoa 2) ∧
      w.maintainer.getZone ShortRun.zone = .error .TemporarilyUnavailable ∧
      ∀ access, w.maintainer.request (some (ShortRun.zone.name, .IN)) access =
        .error .TemporarilyUnavailable := by
  have hstarted : Marked.Started ⟨new, [], []⟩ := ⟨rfl, rfl, rfl⟩
  have hrun : ∃ w, Reach Marked.step anyStep Marked.Started w ∧
      decide ((ShortRun.zone, 0) ∈ w.refreshed ∧
        w.maintainer.loadedArc.lookup ShortRun.zone = some 0 ∧
        w.maintainer.soa ShortRun.zone 0 = some (ShortRun.shortSoa 2) ∧
        w.maintainer.expiredAt ShortRun.zone 0 = some true ∧
        w.maintainer.closest ShortRun.zone.name .IN = some ShortRun.zone.name) = true :=
    Reach.of_exec_any hstarted ShortRun.transferAfterwards (by decide)
  have ⟨w, hw, hend⟩ := hrun
  have ⟨hrefreshed, hlookup, hsoa, hmark, hclosest⟩ := of_decide_eq_true hend
  have ⟨zone, hget, hexpired⟩ := Option.map_eq_some_iff.mp hmark
  have hactive := activeZone_of_lookup hlookup hget
  have hnone : unexpired (some zone) = .error .TemporarilyUnavailable := by
    rw [unexpired, if_pos hexpired]
  refine ⟨w, hw, hrefreshed, hlookup, hsoa, by rw [getZone, hactive, hnone], ?_⟩
  intro access
  have hfind : w.maintainer.findZone ShortRun.zone.name .IN = .error .TemporarilyUnavailable :=
    (findZone_of_closest hactive hclosest).trans hnone
  simp only [request, hfind]

end ZoneMaintainer

end Cascade

import Cascade.Promotion

/-!
# Secondary zones are loaded before they become active

The run loop makes a pending zone active when it is told of the zone (`ZoneAdded`) and has recorded
a refresh time for it.  It records one for an empty zone too, when it is told of the zone the first
time, so an empty zone must not be heard of twice.  `onWay` counts what is on its way to the loop.
And a zone that has been loaded is empty again while the next transfer replaces its content, so that
must not happen to a pending zone of which the loop is going to hear.
-/

namespace Cascade

open Lib

namespace ZoneMaintainer

/-! ## What the loop is going to hear -/

def Event.isAdded (zoneId : ZoneId) : Event → Bool
  | .ZoneAdded zoneId' => decide (zoneId' = zoneId)
  | _ => false

/-- The task tells the loop of the zone, whatever the answer to a refresh is. -/
def Task.announces (zoneId : ZoneId) : Task → Bool
  | .announcing zoneId' _ => decide (zoneId' = zoneId)
  | .sending event => Event.isAdded zoneId event
  | _ => false

/-- The loop is looking whether the zone is to become active. -/
def RunLoop.examines (zoneId : ZoneId) : RunLoop → Bool
  | .added zoneId' | .tracking zoneId' _ => decide (zoneId' = zoneId)
  | _ => false

/-- How often the loop is going to look at the zone. -/
def onWay (m : ZoneMaintainer) (zoneId : ZoneId) : Nat :=
  m.channel.queue.countP (Event.isAdded zoneId) + m.tasks.countP (Task.announces zoneId) +
    (m.runLoop.examines zoneId).toNat

/-- The zone that is pending under this name, if any, is not empty. -/
def pendingLoaded (m : ZoneMaintainer) (zoneId : ZoneId) : Bool :=
  (m.pendingZones.lookup zoneId).all (fun handle ↦ (m.soa zoneId handle).isSome)

/-- The loop is not going to look at the zone, as far as it has been loaded so far. -/
def unheard (m : ZoneMaintainer) (zoneId : ZoneId) : Bool :=
  decide (m.onWay zoneId = 0) && m.tasks.all (fun task ↦
    task.succeeded.all (fun r ↦ !r.isPending || decide (r.zoneId ≠ zoneId)))

/-! ## Zones that have been loaded -/

/-- A maintainer with its past: the zones that were inserted with content, or of which a transfer has
committed a version. -/
structure LoadHistory where
  maintainer : ZoneMaintainer
  loaded : List (ZoneId × Handle)

/-- The zone that a step loads. -/
def loads (m : ZoneMaintainer) : Action → Option (ZoneId × Handle)
  | .insertZone zoneId _ (some _) => some (zoneId, m.zoneHeap.next zoneId)
  | .task i (.commit _) => (m.tasks[i]?.bind Task.job).map (fun r ↦ (r.zoneId, r.handle))
  | _ => none

namespace LoadHistory

def step (h : LoadHistory) (a : Action) : Option LoadHistory :=
  (h.maintainer.step a).map (fun m ↦ ⟨m, (h.maintainer.loads a).toList ++ h.loaded⟩)

def Started (h : LoadHistory) : Prop := h.maintainer.Started ∧ h.loaded = []

/-- An empty secondary zone is inserted only when the loop has no record of its name and is going to
have none, and a primary one only when no empty zone of its name is pending; and no refresh of
an empty pending zone ends well without a transfer.  Further, no transfer takes its SOA record from
a pending zone of which the loop is going to hear; and the first SOA record of a zone comes with a
commit. -/
def loadsFirst (h : LoadHistory) : Action → Bool
  | .task i input =>
    let m := h.maintainer
    match m.tasks[i]?, input with
    | some (.insert zoneId handle newZones), _ =>
      if m.isSecondary zoneId handle then
        (m.soa zoneId handle).isSome ||
          decide (zoneId ∉ m.timeTracking) && decide (m.onWay zoneId = 0)
      else decide (zoneId ∈ newZones) || m.pendingLoaded zoneId
    | some (.refresh r (.finishing (.ok none))), _ =>
      !r.isPending || (m.soa r.zoneId r.handle).isSome
    | some (.refresh r (.transferring _ _)), .write none =>
      decide (m.pendingZones.lookup r.zoneId ≠ some r.handle) ||
        (m.soa r.zoneId r.handle).isNone || m.unheard r.zoneId
    | some (.refresh r (.transferring _ _)), .write (some _) =>
      decide ((r.zoneId, r.handle) ∈ h.loaded)
    | _, _ => true
  | _ => true

end LoadHistory

section

variable {m m' : ZoneMaintainer} {a : Action} {i : TaskId} {zoneId : ZoneId}

-- One task goes on: the others are counted as before.
theorem countP_set_add {α : Type} {l : List α} {k : Nat} {x y : α} (p : α → Bool)
    (hx : l[k]? = some x) :
    (l.set k y).countP p + (p x).toNat = l.countP p + (p y).toNat := by
  obtain ⟨hlt, rfl⟩ := List.getElem?_eq_some_iff.mp hx
  have hpos : p l[k] = true → 0 < l.countP p :=
    fun h ↦ List.countP_pos_iff.mpr ⟨l[k], List.getElem_mem hlt, h⟩
  rw [List.countP_set hlt]
  cases hold : p l[k] with
  | false => cases p y <;> simp
  | true =>
    have hsome := hpos hold
    cases p y <;> simp <;> omega

theorem announces_of_not_caller {task : Task} (h : task.isCaller = false) :
    task.announces zoneId = false := by
  cases task with
  | announcing | sending => cases h
  | _ => rfl

/-- The zone is inserted, among the pending zones if it is a secondary one. -/
def InsertsZone (m m' : ZoneMaintainer) (zoneId : ZoneId) (handle : Handle)
    (newZones : MemberZones) : Prop :=
  m.isSecondary zoneId handle = true ∧ m'.pendingZones = m.pendingZones.insert zoneId handle ∨
    m.isSecondary zoneId handle = false ∧ zoneId ∉ newZones ∧ m'.pendingZones = m.pendingZones

-- A task that has announced a zone, or has said that it will, does so once.
theorem InsertStep.onWay {task task' : Task} (h : InsertStep m i task task' m')
    (zoneId : ZoneId) :
    ((m.sent task).any (Event.isAdded zoneId)).toNat + (task'.announces zoneId).toNat =
      (task.announces zoneId).toNat ∨
    ∃ handle newZones, task = .insert zoneId handle newZones ∧
      (task'.announces zoneId).toNat = 1 ∧ m.sent task = none ∧
      InsertsZone m m' zoneId handle newZones := by
  cases h with
  | @pending zoneId' handle newZones hsecondary _ =>
    by_cases heq : zoneId' = zoneId
    · subst heq
      exact Or.inr ⟨handle, newZones, rfl, by simp [Task.announces], rfl, Or.inl ⟨hsecondary, rfl⟩⟩
    · exact Or.inl (by simp [Task.announces, sent, heq])
  | @active zoneId' handle newZones hprimary hnew =>
    by_cases heq : zoneId' = zoneId
    · subst heq
      exact Or.inr ⟨handle, newZones, rfl, by simp [Task.announces], rfl,
        Or.inr ⟨hprimary, hnew, rfl⟩⟩
    · exact Or.inl (by simp [Task.announces, sent, heq])
  | «exists» | announce | store | load | update | send =>
    exact Or.inl (by simp [Task.announces, sent, Event.isAdded])

-- The other tasks announce a zone when a refresh of it has ended well.
theorem sent_of_not_caller {task : Task} (h : task.isCaller = false)
    (hsent : (m.sent task).any (Event.isAdded zoneId) = true) :
    ∃ r, task.succeeded = some r ∧ r.isPending = true ∧ r.zoneId = zoneId := by
  obtain ⟨event, hevent, hadded⟩ := (Option.any_eq_true _ _).mp hsent
  unfold sent at hevent
  split at hevent
  · cases h
  · cases h
  · cases hevent
    cases hadded
  · obtain ⟨info, -, rfl⟩ := Option.map_eq_some_iff.mp hevent
    cases hadded
  · obtain ⟨info, -, hinfo⟩ := Option.bind_eq_some_iff.mp hevent
    split at hinfo
    · cases hinfo
    · cases hinfo
      cases hadded
  next r ok =>
    split at hevent
    next hok =>
      cases hevent
      rw [Bool.and_eq_true] at hok
      rw [hok.1]
      exact ⟨r, rfl, hok.2, of_decide_eq_true hadded⟩
    · cases hevent
  · cases hevent

-- The loop is told of a zone once more than before by a task that inserts the zone, and by one
-- whose refresh of the zone has ended well.
theorem onWay_of_turn {input : Input} (h : TaskTurn m i input m') (zoneId : ZoneId) :
    m'.onWay zoneId ≤ m.onWay zoneId ∨ ∃ task, m.tasks[i]? = some task ∧
      ((∃ handle newZones, task = .insert zoneId handle newZones ∧
          m'.onWay zoneId = m.onWay zoneId + 1 ∧ InsertsZone m m' zoneId handle newZones) ∨
        ∃ r, task.succeeded = some r ∧ r.isPending = true ∧ r.zoneId = zoneId) := by
  obtain ⟨task, task', htask, -, hstep, hinsert⟩ := h.next
  have hqueue : m'.channel.queue.countP (Event.isAdded zoneId) =
      m.channel.queue.countP (Event.isAdded zoneId) +
        ((m.sent task).any (Event.isAdded zoneId)).toNat := by
    rw [hstep.channel]
    cases m.sent task with
    | none => simp
    | some event =>
      simp only [Option.elim_some, Channel.queue_send, List.countP_append, Option.any_some]
      cases hadded : Event.isAdded zoneId event <;> simp [hadded]
  have htasks : m'.tasks.countP (Task.announces zoneId) + (task.announces zoneId).toNat =
      m.tasks.countP (Task.announces zoneId) + (task'.announces zoneId).toNat := by
    rw [hstep.tasks]
    exact countP_set_add _ htask
  unfold onWay
  rw [hstep.runLoop]
  rcases hinsert with hinsert | hcaller
  · rcases hinsert.onWay zoneId with hsame | ⟨handle, newZones, rfl, hnew, hsent, hzone⟩
    · exact Or.inl (by omega)
    · refine Or.inr ⟨_, htask, Or.inl ⟨handle, newZones, rfl, ?_, hzone⟩⟩
      have hold : (Task.announces zoneId (.insert zoneId handle newZones)).toNat = 0 := rfl
      have hnone : ((m.sent (.insert zoneId handle newZones)).any
          (Event.isAdded zoneId)).toNat = 0 := by
        rw [hsent]
        rfl
      omega
  · by_cases hsent : (m.sent task).any (Event.isAdded zoneId) = true
    · exact Or.inr ⟨task, htask, Or.inr (sent_of_not_caller hcaller hsent)⟩
    · have hcaller' : task'.isCaller = false := hstep.follows.not_caller hcaller
      rw [announces_of_not_caller hcaller, announces_of_not_caller hcaller'] at htasks
      rw [Bool.of_not_eq_true hsent] at hqueue
      exact Or.inl (by simp at htasks hqueue; omega)

-- The loop stops looking at a zone whenever it decides.
theorem onWay_of_loop (h : LoopStep m m') (zoneId : ZoneId) :
    m'.onWay zoneId + (m.runLoop.examines zoneId).toNat =
      m.onWay zoneId + (m'.runLoop.examines zoneId).toNat := by
  unfold onWay
  rw [h.frame.1, h.frame.2.1]
  omega

theorem onWay_of_outer (h : OuterStep m a m') (zoneId : ZoneId) :
    m'.onWay zoneId = m.onWay zoneId := by
  have hspawn : ∀ (m : ZoneMaintainer) (task : Task), task.announces zoneId = false →
      (m.spawn task).onWay zoneId = m.onWay zoneId := by
    intro m task htask
    simp [onWay, spawn, List.countP_append, htask]
  have hreceive : ∀ {event : Event} {channel : Channel TaskId Event},
      m.channel.receive = some (event, channel) →
      m.channel.queue.countP (Event.isAdded zoneId) =
        channel.queue.countP (Event.isAdded zoneId) + (Event.isAdded zoneId event).toNat := by
    intro event channel hreceive
    rw [Channel.queue_receive hreceive, List.countP_cons]
    cases hadded : Event.isAdded zoneId event <;> simp
  cases h with
  | tick => rfl
  | insertZone | notify | force | fire => exact hspawn _ _ rfl
  | zoneChanged _ hevent =>
    rw [hspawn _ _ rfl]
    have hqueue := hreceive hevent
    simp only [Event.isAdded, Bool.toNat_false, Nat.add_zero] at hqueue
    simp only [onWay, hqueue]
  | refreshRequested _ hevent =>
    have hqueue := hreceive hevent
    simp only [Event.isAdded, Bool.toNat_false, Nat.add_zero] at hqueue
    simp only [onWay, hqueue]
  | zoneAdded hidle hevent =>
    have hqueue := hreceive hevent
    simp only [onWay, hidle, RunLoop.examines, Event.isAdded, Bool.toNat_false] at hqueue ⊢
    omega

end

/-! ## Runs -/

/-- The zone exists, and if it is a secondary zone it has been loaded. -/
def Loaded (m : ZoneMaintainer) (loaded : List (ZoneId × Handle)) (zoneId : ZoneId)
    (handle : Handle) : Prop :=
  ∃ zone, m.zoneHeap.get zoneId handle = some zone ∧
    (zone.config.isSecondary = true → (zoneId, handle) ∈ loaded)

/-- What keeps empty zones from becoming active: `heard` says that an empty pending zone is heard of
once at most, and not when it is recorded already. -/
structure LoadedFirst (m : ZoneMaintainer) (loaded : List (ZoneId × Handle)) : Prop where
  remembered : ∀ zoneId handle, (m.soa zoneId handle).isSome = true → (zoneId, handle) ∈ loaded
  active : ∀ zones ∈ m.trees, ∀ zoneId handle, zones.lookup zoneId = some handle →
    m.Loaded loaded zoneId handle
  promoting : ∀ zoneId handle soaRefresh, m.runLoop = .promoting zoneId handle soaRefresh →
    (m.soa zoneId handle).isSome = true
  tracking : ∀ zoneId handle, m.runLoop = .tracking zoneId handle →
    m.pendingZones.lookup zoneId = some handle
  inserted : ∀ zoneId handle newZones, .insert zoneId handle newZones ∈ m.tasks →
    (m.zoneHeap.get zoneId handle).isSome = true
  heard : ∀ zoneId handle, m.pendingZones.lookup zoneId = some handle →
    m.soa zoneId handle = none →
    m.onWay zoneId + (decide (zoneId ∈ m.timeTracking)).toNat ≤ 1
  found : ∀ task ∈ m.tasks, ∀ r, task.job = some r → r.isPending = true →
    m.pendingZones.lookup r.zoneId = some r.handle
  refreshed : ∀ task ∈ m.tasks, ∀ r, task.succeeded = some r → r.isPending = true →
    (m.soa r.zoneId r.handle).isSome = true

section

variable {m m' : ZoneMaintainer} {a : Action} {i : TaskId} {zoneId : ZoneId} {handle : Handle}
  {loaded loaded' : List (ZoneId × Handle)}

theorem Loaded.mono (hloaded : m.Loaded loaded zoneId handle)
    (hgrows : Grows m.zoneHeap m'.zoneHeap) (hsub : ∀ k ∈ loaded, k ∈ loaded') :
    m'.Loaded loaded' zoneId handle := by
  obtain ⟨zone, hget, hmem⟩ := hloaded
  obtain ⟨zone', hget', hconfig⟩ := hgrows zoneId handle zone hget
  exact ⟨zone', hget', fun hsecondary ↦ hsub _ (hmem (hconfig ▸ hsecondary))⟩

theorem Grows.exists (h : Grows m.zoneHeap m'.zoneHeap)
    (hexists : (m.zoneHeap.get zoneId handle).isSome = true) :
    (m'.zoneHeap.get zoneId handle).isSome = true := by
  obtain ⟨zone, hget⟩ := Option.isSome_iff_exists.mp hexists
  obtain ⟨zone', hget', -⟩ := h zoneId handle zone hget
  rw [hget']
  rfl

theorem loaded_of_soa (hinv : m.LoadedFirst loaded) (h : (m.soa zoneId handle).isSome = true) :
    m.Loaded loaded zoneId handle := by
  have hmem := hinv.remembered zoneId handle h
  unfold soa at h
  cases hget : m.zoneHeap.get zoneId handle with
  | none =>
    rw [hget] at h
    cases h
  | some zone => exact ⟨zone, hget, fun _ ↦ hmem⟩

theorem loaded_of_primary (hexists : (m.zoneHeap.get zoneId handle).isSome = true)
    (hprimary : m.isSecondary zoneId handle = false) : m.Loaded loaded zoneId handle := by
  obtain ⟨zone, hget⟩ := Option.isSome_iff_exists.mp hexists
  refine ⟨zone, hget, ?_⟩
  intro hsecondary
  simp [isSecondary, hget, hsecondary] at hprimary

-- A zone found among the active ones is found in one of the copies, with the new zone perhaps.
theorem loaded_insert {zones : MemberZones} {zoneId' : ZoneId} {handle' : Handle}
    (hzones : ∀ zoneId handle, zones.lookup zoneId = some handle → m.Loaded loaded zoneId handle)
    (hnew : m.Loaded loaded zoneId' handle')
    (h : (zones.insert zoneId' handle').lookup zoneId = some handle) :
    m.Loaded loaded zoneId handle := by
  by_cases heq : zoneId = zoneId'
  · subst heq
    rw [AList.lookup_insert] at h
    cases h
    exact hnew
  · rw [AList.lookup_insert_ne heq] at h
    exact hzones zoneId handle h

theorem ne_of_lookup_erase {zones : HashMap ZoneId Handle} {zoneId' : ZoneId}
    (h : (zones.erase zoneId').lookup zoneId = some handle) : zoneId' ≠ zoneId := by
  intro heq
  rw [heq, AList.lookup_erase] at h
  cases h

-- A task with a refresh holds the lock of the pending zones.
theorem holdsPending_of_job {task : Task} {r : Refresh} (h : task.job = some r) :
    task.holdsPending = true := by
  cases task with
  | asked | accepted | refresh => rfl
  | _ => cases h

theorem job_of_succeeded {task : Task} {r : Refresh} (h : task.succeeded = some r) :
    task.job = some r := by
  unfold Task.succeeded at h
  split at h
  · exact h
  · exact h
  · cases h

theorem loadedFirst_started (h : m.Started) : m.LoadedFirst [] := by
  subst h
  constructor
  · intro zoneId handle hsoa
    cases hsoa
  · intro zones hzones zoneId handle hlookup
    rcases mem_trees.mp hzones with rfl | rfl | hzones | ⟨task, htask, -⟩
    · cases hlookup
    · cases hlookup
    · cases hzones
    · cases htask
  · intro zoneId handle soaRefresh hloop
    cases hloop
  · intro zoneId handle hloop
    cases hloop
  · intro zoneId handle newZones hmem
    cases hmem
  · intro zoneId handle hlookup
    cases hlookup
  · intro task hmem
    cases hmem
  · intro task hmem
    cases hmem

/-! ### Steps of tasks -/

-- The next task is not a call that starts, and has no refresh if it is a caller's.
theorem InsertStep.next {task task' : Task} (h : InsertStep m i task task' m') :
    task'.job = none ∧ ∀ zoneId handle newZones, task' ≠ .insert zoneId handle newZones := by
  cases h <;> simp [Task.job]

theorem not_insert_of_not_caller {task : Task} (h : task.isCaller = false)
    (newZones : MemberZones) : task ≠ .insert zoneId handle newZones := by
  intro heq
  rw [heq] at h
  cases h

-- The pending zones do not change while a task has a refresh.
theorem pendingZones_of_job {input : Input} {task : Task} {r : Refresh}
    (h : TaskTurn m i input m') (hmem : task ∈ m'.tasks) (hjob : task.job = some r) :
    m'.pendingZones = m.pendingZones := by
  obtain ⟨task₀, task', htask, -, hstep, hinsert⟩ := h.next
  rcases pendingZones_of_turn h with hsame | ⟨zoneId, handle, newZones, hinserts, -, hfree, -⟩
  · exact hsame
  · rw [hstep.tasks] at hmem
    rcases List.mem_or_eq_of_mem_set hmem with hmem | rfl
    · obtain ⟨j, hj⟩ := List.mem_iff_getElem?.mp hmem
      have hholds : m.holdsPending j = true :=
        (Option.any_eq_true _ _).mpr ⟨task, hj, holdsPending_of_job hjob⟩
      rw [holdsPending_of_pendingFree hfree j] at hholds
      cases hholds
    · rw [htask] at hinserts
      cases hinserts
      rcases hinsert with hinsert | hcaller
      · rw [hinsert.next.1] at hjob
        cases hjob
      · cases hcaller

theorem loadsFirst_insert {input : Input} {newZones : MemberZones}
    (hok : LoadHistory.loadsFirst ⟨m, loaded⟩ (.task i input) = true)
    (htask : m.tasks[i]? = some (.insert zoneId handle newZones))
    (hsecondary : m.isSecondary zoneId handle = true) (hempty : m.soa zoneId handle = none) :
    zoneId ∉ m.timeTracking ∧ m.onWay zoneId = 0 := by
  simpa [LoadHistory.loadsFirst, htask, hsecondary, hempty] using hok

theorem not_caller_of_job {task : Task} {r : Refresh} (h : task.job = some r) :
    task.isCaller = false := by
  cases task with
  | asked | accepted | refresh => rfl
  | _ => cases h

/-- The apex SOA record that an update of a transfer leaves in the zone. -/
def Input.leaves : Input → Option (Option Soa)
  | .write soa => some soa
  | .commit soa => some (some soa)
  | _ => none

theorem soa_set {zoneId' : ZoneId} {handle' : Handle} {zone new : MaintainedZone}
    (hget : m.zoneHeap.get zoneId' handle' = some zone) :
    ((m.zoneHeap.set zoneId' handle' new).get zoneId handle).bind MaintainedZone.soa =
      if zoneId = zoneId' ∧ handle = handle' then new.soa else m.soa zoneId handle := by
  rw [Heap.get_set]
  by_cases hsame : zoneId = zoneId' ∧ handle = handle'
  · rw [if_pos hsame, if_pos hsame, hget]
    rfl
  · rw [if_neg hsame, if_neg hsame]
    rfl

-- A refresh writes to its own zone only, and only while a transfer goes on.
theorem RefreshStep.soa {r : Refresh} {input : Input} {stage : RefreshStage} {task' : Task}
    (h : RefreshStep m i r input stage task' m') (zoneId : ZoneId) (handle : Handle) :
    m'.soa zoneId handle = m.soa zoneId handle ∨
      (∃ primaries transfers, stage = .transferring primaries transfers) ∧
        task'.succeeded = none ∧ zoneId = r.zoneId ∧ handle = r.handle ∧
        input.leaves = some (m'.soa zoneId handle) := by
  cases h with
  | write hget | commit hget =>
    by_cases hsame : zoneId = r.zoneId ∧ handle = r.handle
    · refine Or.inr ⟨⟨_, _, rfl⟩, rfl, hsame.1, hsame.2, ?_⟩
      show _ = some (((m.zoneHeap.set _ _ _).get zoneId handle).bind MaintainedZone.soa)
      rw [soa_set hget, if_pos hsame]
      rfl
    · apply Or.inl
      show ((m.zoneHeap.set _ _ _).get zoneId handle).bind MaintainedZone.soa = _
      rw [soa_set hget, if_neg hsame]
  | expired =>
    apply Or.inl
    show (((m.zoneHeap.get r.zoneId r.handle).elim m.zoneHeap _).get zoneId handle).bind
      MaintainedZone.soa = _
    cases hget : m.zoneHeap.get r.zoneId r.handle with
    | none => rfl
    | some zone =>
      rw [Option.elim_some, soa_set hget]
      split
      next hsame =>
        rw [hsame.1, hsame.2, ZoneMaintainer.soa, hget]
        rfl
      · rfl
  | advance | changed | failed | succeeded | announce | stop => exact Or.inl rfl

theorem TaskNext.soa {input : Input} {task task' : Task} (h : TaskNext m i input task task' m')
    (zoneId : ZoneId) (handle : Handle) :
    m'.soa zoneId handle = m.soa zoneId handle ∨
      ∃ r primaries transfers, task = .refresh r (.transferring primaries transfers) ∧
        task'.succeeded = none ∧ zoneId = r.zoneId ∧ handle = r.handle ∧
        input.leaves = some (m'.soa zoneId handle) := by
  cases h with
  | refresh hstep =>
    rcases hstep.soa zoneId handle with hsame | ⟨⟨primaries, transfers, rfl⟩, hwritten⟩
    · exact Or.inl hsame
    · exact Or.inr ⟨_, primaries, transfers, rfl, hwritten⟩
  | timer | notify => exact Or.inl rfl
  | insert hstep =>
    apply Or.inl
    cases hstep <;> rfl

/-- The task takes its SOA record from a zone. -/
structure Clears (m : ZoneMaintainer) (i : TaskId) (input : Input) (zoneId : ZoneId)
    (handle : Handle) : Prop where
  input : input = .write none
  task : ∃ r primaries transfers, m.tasks[i]? = some (.refresh r (.transferring primaries transfers)) ∧
    r.zoneId = zoneId ∧ r.handle = handle
  soa : (m.soa zoneId handle).isSome = true

-- A zone becomes empty only when a transfer deletes its records.
theorem soa_of_turn {input : Input} (h : TaskTurn m i input m')
    (hsoa : (m.soa zoneId handle).isSome = true) :
    (m'.soa zoneId handle).isSome = true ∨ m.Clears i input zoneId handle := by
  obtain ⟨task, task', htask, hnext, -⟩ := h.next
  rcases hnext.soa zoneId handle with hsame | ⟨r, primaries, transfers, rfl, -, hzone, hhandle, hleaves⟩
  · rw [hsame]
    exact Or.inl hsoa
  · cases hsoa' : m'.soa zoneId handle with
    | some soa => exact Or.inl rfl
    | none =>
      rw [hsoa'] at hleaves
      refine Or.inr ⟨?_, ⟨r, primaries, transfers, htask, hzone.symm, hhandle.symm⟩, hsoa⟩
      cases input with
      | write soa =>
        cases hleaves
        rfl
      | _ => cases hleaves

-- A transfer does not clear a zone while the loop holds the lock.
theorem not_clears_of_holds {input : Input} (hexclusive : m.Exclusive)
    (hholds : m.runLoop.holdsPending = true) : ¬m.Clears i input zoneId handle := by
  intro hclears
  obtain ⟨r, primaries, transfers, htask, -⟩ := hclears.task
  have hnot := hexclusive hholds i
  simp [holdsPending, htask, Task.holdsPending] at hnot

-- A zone that is pending is cleared only when the loop is not going to hear of it.
theorem unheard_of_clears {input : Input} (hclears : m.Clears i input zoneId handle)
    (hok : LoadHistory.loadsFirst ⟨m, loaded⟩ (.task i input) = true)
    (hlookup : m.pendingZones.lookup zoneId = some handle) : m.unheard zoneId = true := by
  obtain ⟨rfl, ⟨r, primaries, transfers, htask, rfl, rfl⟩, hsoa⟩ := hclears
  simpa [LoadHistory.loadsFirst, htask, hlookup, Option.isNone_eq_false_iff.mpr hsoa] using hok

theorem not_succeeded_of_unheard (h : m.unheard zoneId = true) {task : Task} {r : Refresh}
    (hmem : task ∈ m.tasks) (hsucceeded : task.succeeded = some r) (hpending : r.isPending = true) :
    r.zoneId ≠ zoneId := by
  rw [unheard, Bool.and_eq_true, List.all_eq_true] at h
  have htask := h.2 task hmem
  simpa [hsucceeded, hpending] using htask

-- The zone whose refresh has ended well is still the one that is pending.
theorem soa_of_succeeded (hinv : m.LoadedFirst loaded) {task : Task} {r : Refresh}
    (hmem : task ∈ m.tasks) (hsucceeded : task.succeeded = some r) (hpending : r.isPending = true)
    (hlookup : m.pendingZones.lookup r.zoneId = some handle) :
    (m.soa r.zoneId handle).isSome = true := by
  have hfound := hinv.found task hmem r (job_of_succeeded hsucceeded) hpending
  rw [hlookup] at hfound
  cases hfound
  exact hinv.refreshed task hmem r hsucceeded hpending

-- A zone that is cleared is not on its way to the loop, and this step does not put it there.
theorem onWay_of_clears {input : Input} (hclears : m.Clears i input zoneId handle)
    (hunheard : m.unheard zoneId = true) (h : TaskTurn m i input m') : m'.onWay zoneId = 0 := by
  obtain ⟨r, primaries, transfers, htask, -⟩ := hclears.task
  have hzero : m.onWay zoneId = 0 := by
    rw [unheard, Bool.and_eq_true] at hunheard
    exact of_decide_eq_true hunheard.1
  rcases onWay_of_turn h zoneId with hle | ⟨task, htask', hmore⟩
  · omega
  · rw [htask] at htask'
    cases htask'
    rcases hmore with ⟨_, _, hinsert, _⟩ | ⟨_, hsucceeded, _⟩
    · cases hinsert
    · cases hsucceeded

-- A zone that was empty before is heard of once at most.
theorem heard_of_empty {input : Input} (hinv : m.LoadedFirst loaded)
    (hok : LoadHistory.loadsFirst ⟨m, loaded⟩ (.task i input) = true) (h : TaskTurn m i input m')
    (hlookup : m'.pendingZones.lookup zoneId = some handle)
    (hold : m.soa zoneId handle = none) :
    m'.onWay zoneId + (decide (zoneId ∈ m.timeTracking)).toNat ≤ 1 := by
  obtain ⟨task, task', htask, -, hstep, -⟩ := h.next
  have hsame : m.pendingZones.lookup zoneId = some handle →
      m.onWay zoneId + (decide (zoneId ∈ m.timeTracking)).toNat ≤ 1 :=
    fun hlookup ↦ hinv.heard zoneId handle hlookup hold
  -- the zone is inserted by this step
  have hnew : ∀ newZones, m.tasks[i]? = some (.insert zoneId handle newZones) →
      m.isSecondary zoneId handle = true →
      m.onWay zoneId + 1 + (decide (zoneId ∈ m.timeTracking)).toNat ≤ 1 := by
    intro newZones hinsert hsecondary
    obtain ⟨huntracked, hnone⟩ := loadsFirst_insert hok hinsert hsecondary hold
    simp [huntracked, hnone]
  rcases onWay_of_turn h zoneId with hle | ⟨task₁, htask₁, hmore⟩
  · rcases pendingZones_of_turn h with heq | ⟨zoneId', handle', newZones, hinsert, hsecondary, -, heq⟩
    · rw [heq] at hlookup
      have hfew := hsame hlookup
      omega
    · rw [heq] at hlookup
      by_cases hzone : zoneId = zoneId'
      · subst hzone
        rw [AList.lookup_insert] at hlookup
        cases hlookup
        have hfew := hnew newZones hinsert hsecondary
        omega
      · rw [AList.lookup_insert_ne hzone] at hlookup
        have hfew := hsame hlookup
        omega
  · rcases hmore with ⟨handle', newZones, rfl, hmore, hinsert⟩ | ⟨r, hsucceeded, hpending, rfl⟩
    · rcases hinsert with ⟨hsecondary, heq⟩ | ⟨hprimary, hmem, heq⟩
      · rw [heq, AList.lookup_insert] at hlookup
        cases hlookup
        have hfew := hnew newZones htask₁ hsecondary
        omega
      · rw [heq] at hlookup
        have hloaded : m.pendingLoaded zoneId = true := by
          simpa [LoadHistory.loadsFirst, htask₁, hprimary, hmem] using hok
        simp [pendingLoaded, hlookup, hold] at hloaded
    · have hcaller : task.isCaller = false := by
        rw [htask] at htask₁
        cases htask₁
        exact not_caller_of_job (job_of_succeeded hsucceeded)
      rw [hstep.pendingZones hcaller] at hlookup
      have hsoa := soa_of_succeeded hinv (List.mem_of_getElem? htask₁) hsucceeded hpending hlookup
      rw [hold] at hsoa
      cases hsoa

-- An empty zone that is pending after a step of a task is heard of once at most.
theorem heard_of_turn {input : Input} (hinv : m.LoadedFirst loaded)
    (hok : LoadHistory.loadsFirst ⟨m, loaded⟩ (.task i input) = true) (h : TaskTurn m i input m')
    (hlookup : m'.pendingZones.lookup zoneId = some handle)
    (hempty : m'.soa zoneId handle = none) :
    m'.onWay zoneId + (decide (zoneId ∈ m'.timeTracking)).toNat ≤ 1 := by
  obtain ⟨task, task', htask, -, hstep, -⟩ := h.next
  have htracked : decide (zoneId ∈ m'.timeTracking) = decide (zoneId ∈ m.timeTracking) :=
    decide_eq_decide.mpr (hstep.tracked zoneId)
  rw [htracked]
  cases hold : m.soa zoneId handle with
  | none => exact heard_of_empty hinv hok h hlookup hold
  | some soa =>
    have hclears : m.Clears i input zoneId handle := by
      refine (soa_of_turn h (by rw [hold]; rfl)).resolve_left ?_
      rw [hempty]
      exact Bool.false_ne_true
    have hcaller : task.isCaller = false := by
      obtain ⟨r, _, _, htask', -⟩ := hclears.task
      rw [htask] at htask'
      cases htask'
      rfl
    rw [hstep.pendingZones hcaller] at hlookup
    have hzero := onWay_of_clears hclears (unheard_of_clears hclears hok hlookup) h
    have hbit := Bool.toNat_le (decide (zoneId ∈ m.timeTracking))
    omega

-- A zone that has a SOA record after a step of a task has been loaded, perhaps by that step.
theorem remembered_of_turn {input : Input} (hinv : m.LoadedFirst loaded)
    (hok : LoadHistory.loadsFirst ⟨m, loaded⟩ (.task i input) = true) (h : TaskTurn m i input m')
    (hsoa : (m'.soa zoneId handle).isSome = true) :
    (zoneId, handle) ∈ (m.loads (.task i input)).toList ++ loaded := by
  obtain ⟨task, task', htask, hnext, -⟩ := h.next
  rcases hnext.soa zoneId handle with hsame | ⟨r, primaries, transfers, rfl, -, rfl, rfl, hleaves⟩
  · rw [hsame] at hsoa
    exact List.mem_append_right _ (hinv.remembered zoneId handle hsoa)
  · obtain ⟨soa, hsome⟩ := Option.isSome_iff_exists.mp hsoa
    rw [hsome] at hleaves
    cases input with
    | write written =>
      cases hleaves
      exact List.mem_append_right _ (by simpa [LoadHistory.loadsFirst, htask] using hok)
    | commit =>
      apply List.mem_append_left
      simp [loads, htask, Task.job]
    | _ => cases hleaves

theorem loadedFirst_of_turn {input : Input} (hexclusive : m.Exclusive)
    (hinv : m.LoadedFirst loaded)
    (hok : LoadHistory.loadsFirst ⟨m, loaded⟩ (.task i input) = true) (h : TaskTurn m i input m') :
    m'.LoadedFirst ((m.loads (.task i input)).toList ++ loaded) := by
  obtain ⟨task, task', htask, hnext, hstep, hinsert⟩ := h.next
  have hgrows : Grows m.zoneHeap m'.zoneHeap := hstep.heap
  have hloop := hstep.runLoop
  have hmem : task ∈ m.tasks := List.mem_of_getElem? htask
  have hsub : ∀ k ∈ loaded, k ∈ (m.loads (.task i input)).toList ++ loaded :=
    fun k hk ↦ List.mem_append_right _ hk
  constructor
  · intro zoneId handle hsoa
    exact remembered_of_turn hinv hok h hsoa
  · intro zones hzones zoneId handle hlookup
    refine Loaded.mono ?_ hgrows hsub
    rcases mem_trees_of_turn h hzones with
      hzones | ⟨zoneId', handle', newZones, htask', hprimary, hnew, rfl⟩
    · exact hinv.active zones hzones zoneId handle hlookup
    · have hexists := hinv.inserted _ _ _ (List.mem_of_getElem? htask')
      exact loaded_insert (hinv.active newZones hnew) (loaded_of_primary hexists hprimary) hlookup
  · intro zoneId handle soaRefresh hpromoting
    rw [hloop] at hpromoting
    have hholds : m.runLoop.holdsPending = true := by rw [hpromoting]; rfl
    exact (soa_of_turn h (hinv.promoting zoneId handle soaRefresh hpromoting)).resolve_right
      (not_clears_of_holds hexclusive hholds)
  · intro zoneId handle htracking
    rw [hloop] at htracking
    rw [pendingZones_of_holds h (by simp [htracking, RunLoop.holdsPending])]
    exact hinv.tracking zoneId handle htracking
  · intro zoneId handle newZones hnew
    rw [hstep.tasks] at hnew
    rcases List.mem_or_eq_of_mem_set hnew with hnew | hnew
    · exact hgrows.exists (hinv.inserted zoneId handle newZones hnew)
    · rcases hinsert with hinsert | hcaller
      · exact absurd hnew.symm (hinsert.next.2 zoneId handle newZones)
      · exact absurd hnew.symm
          (not_insert_of_not_caller (hstep.follows.not_caller hcaller) newZones)
  · intro zoneId handle hlookup hempty
    exact heard_of_turn hinv hok h hlookup hempty
  · intro task₁ hmem₁ r hjob hpending
    rw [pendingZones_of_job h hmem₁ hjob]
    rw [hstep.tasks] at hmem₁
    rcases List.mem_or_eq_of_mem_set hmem₁ with hmem₁ | rfl
    · exact hinv.found task₁ hmem₁ r hjob hpending
    · rcases hstep.follows.job r hjob with hjob | hfound
      · exact hinv.found task hmem r hjob hpending
      · exact hfound hpending
  · intro task₁ hmem₁ r hsucceeded hpending
    -- a refresh that had ended well keeps its zone from being cleared
    have hkept : ∀ task₂ ∈ m.tasks, task₂.succeeded = some r →
        (m'.soa r.zoneId r.handle).isSome = true := by
      intro task₂ hmem₂ hsucceeded₂
      refine (soa_of_turn h (hinv.refreshed task₂ hmem₂ r hsucceeded₂ hpending)).resolve_right ?_
      intro hclears
      have hfound := hinv.found task₂ hmem₂ r (job_of_succeeded hsucceeded₂) hpending
      exact not_succeeded_of_unheard (unheard_of_clears hclears hok hfound) hmem₂ hsucceeded₂
        hpending rfl
    rw [hstep.tasks] at hmem₁
    rcases List.mem_or_eq_of_mem_set hmem₁ with hmem₁ | rfl
    · exact hkept task₁ hmem₁ hsucceeded
    · rcases hstep.follows.succeeded r hsucceeded with hold | hnew
      · exact hkept task hmem hold
      · rcases hnext.soa r.zoneId r.handle with hsame | ⟨_, _, _, _, hnone, _⟩
        · rw [hsame]
          rcases hnew with hsoa | rfl
          · exact hsoa
          · simpa [LoadHistory.loadsFirst, htask, hpending] using hok
        · rw [hnone] at hsucceeded
          cases hsucceeded

/-! ### Steps of the loop -/

-- An empty zone is not made active: the loop has just been told of the zone, so it has no record of
-- it yet.
theorem soa_of_tracking (hinv : m.LoadedFirst loaded) (hloop : m.runLoop = .tracking zoneId handle)
    (htracked : zoneId ∈ m.timeTracking) : (m.soa zoneId handle).isSome = true := by
  by_contra hnot
  have hempty : m.soa zoneId handle = none := Option.not_isSome_iff_eq_none.mp hnot
  have hheard := hinv.heard zoneId handle (hinv.tracking zoneId handle hloop) hempty
  have hexamines : 1 ≤ m.onWay zoneId := by simp [onWay, hloop, RunLoop.examines]
  simp only [htracked, decide_true, Bool.toNat_true] at hheard
  omega

theorem heard_of_loop (hinv : m.LoadedFirst loaded) (h : LoopStep m m')
    (hlookup : m'.pendingZones.lookup zoneId = some handle)
    (hempty : m.soa zoneId handle = none) :
    m'.onWay zoneId + (decide (zoneId ∈ m'.timeTracking)).toNat ≤ 1 := by
  have hway := onWay_of_loop h zoneId
  have hheard := hinv.heard zoneId handle
  cases h with
  | locked hloop | notPending hloop | notSecondary hloop | duplicate hloop | insert hloop
  | store hloop | load hloop | update hloop =>
    have hold := hheard hlookup hempty
    show _ + (decide (zoneId ∈ m.timeTracking)).toNat ≤ 1
    simp only [hloop, RunLoop.examines, scheduleAdded, Bool.toNat_false] at hway ⊢
    omega
  | @empty zoneId' _ hloop hnone _ =>
    have hold := hheard hlookup hempty
    simp only [hloop, RunLoop.examines, scheduleAdded, Bool.toNat_false] at hway hold ⊢
    by_cases hzone : zoneId' = zoneId
    · -- from now on the zone is recorded
      have hbit := Bool.toNat_le (decide (zoneId ∈ (m.track zoneId' (.default m.now)).timeTracking))
      simp only [hzone, decide_true, Bool.toNat_true] at hway hbit ⊢
      omega
    · have hsame : zoneId ∈ (m.track zoneId' (.default m.now)).timeTracking ↔
          zoneId ∈ m.timeTracking := mem_track_ne hzone
      simp only [hsame, hzone, decide_false, Bool.toNat_false] at hway ⊢
      omega
  | @loaded zoneId' _ soa hloop _ _ =>
    have hzone : zoneId' ≠ zoneId := ne_of_lookup_erase hlookup
    have hold := hheard (AList.lookup_erase_ne hzone.symm ▸ hlookup) hempty
    have hsame : zoneId ∈ (m.track zoneId' (.new soa m.now)).timeTracking ↔
        zoneId ∈ m.timeTracking := mem_track_ne hzone
    simp only [hloop, RunLoop.examines, hsame, Bool.toNat_false] at hway ⊢
    omega
  | @again zoneId' _ _ hloop _ =>
    have hzone : zoneId' ≠ zoneId := ne_of_lookup_erase hlookup
    have hold := hheard (AList.lookup_erase_ne hzone.symm ▸ hlookup) hempty
    simp only [hloop, RunLoop.examines, Bool.toNat_false] at hway ⊢
    omega

theorem loadedFirst_of_loop (hexclusive : m.Exclusive) (hinv : m.LoadedFirst loaded)
    (h : LoopStep m m') : m'.LoadedFirst loaded := by
  have hheap : m'.zoneHeap = m.zoneHeap := h.frame.2.2
  have hgrows : Grows m.zoneHeap m'.zoneHeap := hheap ▸ .refl _
  have hsoa : ∀ zoneId handle, m'.soa zoneId handle = m.soa zoneId handle := by
    intro zoneId handle
    rw [soa, hheap]
    rfl
  have htasks : m'.tasks = m.tasks := h.frame.1
  constructor
  · intro zoneId handle hsome
    rw [hsoa] at hsome
    exact hinv.remembered zoneId handle hsome
  · intro zones hzones zoneId handle hlookup
    refine Loaded.mono ?_ hgrows (fun _ hk ↦ hk)
    rcases mem_trees_of_loop h hzones with
      hzones | ⟨zoneId', handle', soaRefresh, hloop, -, rfl⟩
    · exact hinv.active zones hzones zoneId handle hlookup
    · have hnew := loaded_of_soa hinv (hinv.promoting zoneId' handle' soaRefresh hloop)
      exact loaded_insert (hinv.active m.loadedArc loadedArc_mem_trees) hnew hlookup
  · intro zoneId handle soaRefresh hpromoting
    rw [hsoa]
    cases h with
    | loaded hloop hlookup hsome =>
      cases hpromoting
      rw [hsome]
      rfl
    | again hloop hlookup =>
      cases hpromoting
      exact soa_of_tracking hinv hloop (HashMap.mem_iff_lookup.mpr ⟨_, hlookup⟩)
    | locked | notPending | notSecondary | empty | duplicate | insert | store | load | update =>
      cases hpromoting
  · intro zoneId handle htracking
    cases h with
    | locked _ _ hlookup =>
      cases htracking
      exact hlookup
    | notPending | notSecondary | empty | loaded | again | duplicate | insert | store | load
    | update => cases htracking
  · intro zoneId handle newZones hmem
    rw [htasks] at hmem
    exact hgrows.exists (hinv.inserted zoneId handle newZones hmem)
  · intro zoneId handle hlookup hempty
    exact heard_of_loop hinv h hlookup (hsoa zoneId handle ▸ hempty)
  · intro task hmem r hjob hpending
    rw [htasks] at hmem
    have hfound := hinv.found task hmem r hjob hpending
    have hnone : m.runLoop.holdsPending = true → False := by
      intro hholds
      obtain ⟨j, hj⟩ := List.mem_iff_getElem?.mp hmem
      have htask : m.holdsPending j = true :=
        (Option.any_eq_true _ _).mpr ⟨task, hj, holdsPending_of_job hjob⟩
      rw [hexclusive hholds j] at htask
      cases htask
    cases h with
    | loaded hloop | again hloop =>
      exact (hnone (by simp [hloop, RunLoop.holdsPending])).elim
    | locked | notPending | notSecondary | empty | duplicate | insert | store | load | update =>
      exact hfound
  · intro task hmem r hsucceeded hpending
    rw [htasks] at hmem
    rw [hsoa]
    exact hinv.refreshed task hmem r hsucceeded hpending

/-! ### The other steps -/

theorem OuterStep.grows (h : OuterStep m a m') : Grows m.zoneHeap m'.zoneHeap := by
  cases h with
  | insertZone => exact .alloc _ _ _
  | tick | notify | force | fire | zoneChanged | zoneAdded | refreshRequested => exact .refl _

-- A task that is new has no refresh, and its zone exists if it inserts one.
theorem OuterStep.tasks (h : OuterStep m a m') {task : Task} (hmem : task ∈ m'.tasks) :
    task ∈ m.tasks ∨ task.job = none ∧ ∀ zoneId handle newZones,
      task = .insert zoneId handle newZones → (m'.zoneHeap.get zoneId handle).isSome = true := by
  cases h with
  | tick | zoneAdded | refreshRequested => exact Or.inl hmem
  | insertZone zoneId config soa =>
    rcases List.mem_append.mp hmem with hmem | hmem
    · exact Or.inl hmem
    · rw [List.mem_singleton.mp hmem]
      refine Or.inr ⟨rfl, ?_⟩
      intro zoneId' handle newZones heq
      cases heq
      show ((m.zoneHeap.alloc _ _).get _ _).isSome = true
      rw [Heap.get_alloc, if_pos ⟨rfl, rfl⟩]
      rfl
  | notify | force | fire | zoneChanged =>
    rcases List.mem_append.mp hmem with hmem | hmem
    · exact Or.inl hmem
    · rw [List.mem_singleton.mp hmem]
      refine Or.inr ⟨rfl, ?_⟩
      intro zoneId handle newZones heq
      cases heq

-- These steps leave the zones that are there as they are.
theorem OuterStep.soa (h : OuterStep m a m') (hsoa : (m.soa zoneId handle).isSome = true) :
    (m'.soa zoneId handle).isSome = true := by
  cases h with
  | insertZone =>
    unfold ZoneMaintainer.soa at hsoa ⊢
    cases hget : m.zoneHeap.get zoneId handle with
    | none =>
      rw [hget] at hsoa
      cases hsoa
    | some zone =>
      rw [hget] at hsoa
      show (((m.zoneHeap.alloc _ _).get zoneId handle).bind MaintainedZone.soa).isSome = true
      rw [Heap.get_alloc_of_some hget]
      exact hsoa
  | tick | notify | force | fire | zoneChanged | zoneAdded | refreshRequested => exact hsoa

-- A zone that is new with a SOA record has been inserted with it.
theorem remembered_of_outer (hinv : m.LoadedFirst loaded) (h : OuterStep m a m')
    (hsoa : (m'.soa zoneId handle).isSome = true) :
    (zoneId, handle) ∈ (m.loads a).toList ++ loaded := by
  cases h with
  | insertZone zoneId' config soa =>
    have halloc : (((m.zoneHeap.alloc zoneId' ⟨config, soa, false⟩).get zoneId handle).bind
      MaintainedZone.soa).isSome = true := hsoa
    rw [Heap.get_alloc] at halloc
    split at halloc
    next hnew =>
      rw [hnew.1, hnew.2]
      cases soa with
      | none => cases halloc
      | some soa => exact List.mem_append_left _ (List.mem_singleton.mpr rfl)
    · exact List.mem_append_right _ (hinv.remembered zoneId handle halloc)
  | tick | notify | force | fire | zoneChanged | zoneAdded | refreshRequested =>
    exact List.mem_append_right _ (hinv.remembered zoneId handle hsoa)

theorem loadedFirst_of_outer (hinv : m.LoadedFirst loaded) (h : OuterStep m a m') :
    m'.LoadedFirst ((m.loads a).toList ++ loaded) := by
  have hgrows : Grows m.zoneHeap m'.zoneHeap := h.grows
  constructor
  · intro zoneId handle hsoa
    exact remembered_of_outer hinv h hsoa
  · intro zones hzones zoneId handle hlookup
    have hloaded := hinv.active zones (mem_trees_of_outer h hzones) zoneId handle hlookup
    exact hloaded.mono hgrows (fun _ hk ↦ List.mem_append_right _ hk)
  · intro zoneId handle soaRefresh hpromoting
    rcases h.runLoop with hsame | ⟨zoneId', hadded⟩
    · rw [hsame] at hpromoting
      exact h.soa (hinv.promoting zoneId handle soaRefresh hpromoting)
    · rw [hadded] at hpromoting
      cases hpromoting
  · intro zoneId handle htracking
    rw [h.pendingZones]
    rcases h.runLoop with hsame | ⟨zoneId', hadded⟩
    · rw [hsame] at htracking
      exact hinv.tracking zoneId handle htracking
    · rw [hadded] at htracking
      cases htracking
  · intro zoneId handle newZones hmem
    rcases h.tasks hmem with hmem | ⟨-, hnew⟩
    · exact hgrows.exists (hinv.inserted zoneId handle newZones hmem)
    · exact hnew zoneId handle newZones rfl
  · intro zoneId handle hlookup hempty
    rw [h.pendingZones] at hlookup
    have htracking : m'.timeTracking = m.timeTracking := by cases h <;> rfl
    rw [onWay_of_outer h, htracking]
    apply hinv.heard zoneId handle hlookup
    by_contra hne
    have hsome := h.soa (Option.isSome_iff_ne_none.mpr hne)
    rw [hempty] at hsome
    cases hsome
  · intro task hmem r hjob hpending
    rw [h.pendingZones]
    rcases h.tasks hmem with hmem | ⟨hnone, -⟩
    · exact hinv.found task hmem r hjob hpending
    · rw [hnone] at hjob
      cases hjob
  · intro task hmem r hsucceeded hpending
    rcases h.tasks hmem with hmem | ⟨hnone, -⟩
    · exact h.soa (hinv.refreshed task hmem r hsucceeded hpending)
    · rw [job_of_succeeded hsucceeded] at hnone
      cases hnone

theorem eq_of_unexpired {found : Option MaintainedZone} {zone : MaintainedZone}
    (h : unexpired found = .ok (some zone)) : found = some zone := by
  cases found with
  | none => cases h
  | some zone' =>
    simp only [unexpired] at h
    split at h
    · cases h
    · cases h
      rfl

end

namespace LoadHistory

/-- The active zone of this name is this one, and it has been loaded. -/
def Serves (h : LoadHistory) (zoneId : ZoneId) (zone : MaintainedZone) : Prop :=
  ∃ handle, h.maintainer.loadedArc.lookup zoneId = some handle ∧
    h.maintainer.zoneHeap.get zoneId handle = some zone ∧ (zoneId, handle) ∈ h.loaded

theorem serves_of_active {h : LoadHistory} (hinv : h.maintainer.LoadedFirst h.loaded)
    {zoneId : ZoneId} {zone : MaintainedZone} (hactive : h.maintainer.activeZone zoneId = some zone)
    (hsecondary : zone.config.isSecondary = true) : h.Serves zoneId zone := by
  obtain ⟨handle, hlookup, hget⟩ := Option.bind_eq_some_iff.mp hactive
  obtain ⟨zone', hget', hloaded⟩ :=
    hinv.active h.maintainer.loadedArc loadedArc_mem_trees zoneId handle hlookup
  rw [hget] at hget'
  cases hget'
  exact ⟨handle, hlookup, hget, hloaded hsecondary⟩

theorem loadedFirst_of_step {h h' : LoadHistory} {a : Action}
    (hinv : h.maintainer.Exclusive ∧ h.maintainer.LoadedFirst h.loaded)
    (hok : h.loadsFirst a = true) (hstep : h.step a = some h') :
    h'.maintainer.Exclusive ∧ h'.maintainer.LoadedFirst h'.loaded := by
  obtain ⟨m', hm', rfl⟩ := Option.map_eq_some_iff.mp hstep
  refine ⟨exclusive_of_step hinv.1 hm', ?_⟩
  rcases step_cases hm' with ⟨i, input, rfl, hturn⟩ | ⟨rfl, hloop⟩ | houter
  · exact loadedFirst_of_turn hinv.1 hinv.2 hok hturn
  · exact loadedFirst_of_loop hinv.1 hinv.2 hloop
  · exact loadedFirst_of_outer hinv.2 houter

end LoadHistory

/-- In every run in which no empty zone is heard of too early, a zone that is being made active has a
SOA record, and every secondary zone that is given out has been loaded. -/
theorem empty_zone_never_served {h : LoadHistory}
    (hr : Reach LoadHistory.step (fun h a ↦ h.loadsFirst a = true) LoadHistory.Started h) :
    (∀ zoneId handle soaRefresh, h.maintainer.runLoop = .promoting zoneId handle soaRefresh →
      (h.maintainer.soa zoneId handle).isSome = true) ∧
    (∀ zoneId zone, h.maintainer.getZone zoneId = .ok (some zone) →
      zone.config.isSecondary = true → h.Serves zoneId zone) ∧
    (∀ qname qclass zone, h.maintainer.findZone qname qclass = .ok (some zone) →
      zone.config.isSecondary = true →
      ∃ apexName ∈ qname.ancestors, h.Serves ⟨apexName, qclass⟩ zone) := by
  have hinv : h.maintainer.Exclusive ∧ h.maintainer.LoadedFirst h.loaded := by
    apply hr.invariant
    · intro h hs
      rw [hs.2]
      exact ⟨exclusive_started hs.1, loadedFirst_started hs.1⟩
    · exact fun h a h' hinv hok hstep ↦ LoadHistory.loadedFirst_of_step hinv hok hstep
  refine ⟨hinv.2.promoting, ?_, ?_⟩
  · intro zoneId zone hget hsecondary
    exact LoadHistory.serves_of_active hinv.2 (eq_of_unexpired hget) hsecondary
  · intro qname qclass zone hfind hsecondary
    have hfound := eq_of_unexpired hfind
    obtain ⟨apexName, hmem, hactive⟩ := List.exists_of_findSome?_eq_some hfound
    exact ⟨apexName, hmem, LoadHistory.serves_of_active hinv.2 hactive hsecondary⟩

namespace LoadHistory

def new : LoadHistory := ⟨ZoneMaintainer.new, []⟩

theorem new_started : new.Started := ⟨rfl, rfl⟩

end LoadHistory

namespace ShortRun

/-- The zone is transferred and made active, and the records of the first version are deleted when the
next transfer begins. -/
def nextTransfer : List Action :=
  firstPromotion ++ [.forceZoneRefresh zone, .task 3 .next, .receive, .fire 0] ++ steps 4 4 ++
    [.task 4 (.soaAnswer (some ⟨2⟩)), .task 4 .next, .task 4 (.write none)]

/-- The zone is not transferred from its primary, and the refresh ends well nevertheless. -/
def noTransfer : List Action :=
  firstRefresh .None ++ steps 1 5 ++ [.receive, .receive] ++ List.replicate 6 .loop

/-- A secondary zone is active and has no SOA record. -/
def servedEmpty (m : ZoneMaintainer) : Bool :=
  match m.getZone zone with
  | .ok (some zone) => zone.config.isSecondary && zone.soa.isNone
  | _ => false

end ShortRun

theorem next_transfer_loads_first :
    ∃ h : LoadHistory, ShortRun.servedEmpty h.maintainer = true ∧ ∀ zoneId zone,
      h.maintainer.getZone zoneId = .ok (some zone) → zone.config.isSecondary = true →
        h.Serves zoneId zone := by
  have hrun : (exec LoadHistory.step .new ShortRun.nextTransfer).any
      (fun h ↦ ShortRun.servedEmpty h.maintainer) = true := by decide
  have hok : execOk LoadHistory.step LoadHistory.loadsFirst .new ShortRun.nextTransfer = true := by
    decide
  obtain ⟨h, hreach, hh⟩ := Reach.of_exec LoadHistory.new_started ShortRun.nextTransfer hok hrun
  exact ⟨h, hh, (empty_zone_never_served hreach).2.1⟩

theorem zone_served_without_transfer :
    ∃ h, Reach LoadHistory.step anyStep LoadHistory.Started h ∧ h.loaded = [] ∧ ∃ zone,
      h.maintainer.getZone ShortRun.zone = .ok (some zone) ∧ zone.config.isSecondary = true ∧
        zone.soa = none := by
  have hrun : (exec LoadHistory.step .new ShortRun.noTransfer).any
      (fun h ↦ h.loaded.isEmpty && ShortRun.servedEmpty h.maintainer) = true := by decide
  obtain ⟨h, hreach, hh⟩ := Reach.of_exec_any LoadHistory.new_started ShortRun.noTransfer hrun
  rw [Bool.and_eq_true, List.isEmpty_iff] at hh
  refine ⟨h, hreach, hh.1, ?_⟩
  have hserved := hh.2
  unfold ShortRun.servedEmpty at hserved
  split at hserved
  next zone hzone =>
    rw [Bool.and_eq_true, Option.isNone_iff_eq_none] at hserved
    exact ⟨zone, hzone, hserved⟩
  · cases hserved

end ZoneMaintainer

end Cascade

import Cascade.Expiry

/-!
# Zones that are inserted once

As long as no name is inserted twice, a name stands for one zone: the handle of every zone is 0, what
is tracked is a secondary zone, and a call of `insert_zone` finds its name neither pending nor active.
So no promotion fails.
-/

namespace Cascade

open Lib

namespace ZoneMaintainer

/-- No zone of this name has been inserted yet. -/
def insertsOnce (m : ZoneMaintainer) : Action → Bool
  | .insertZone zoneId _ _ => decide (m.zoneHeap.next zoneId = 0)
  | _ => true

/-- The copy of the active zones that a task looks its zone up in. -/
def Task.snapshot : Task → List MemberZones
  | .timer _ _ zones | .known _ _ zones | .notify _ _ zones => [zones]
  | _ => []

/-- The zone is pending or active, or becomes active. -/
def Present (m : ZoneMaintainer) (zoneId : ZoneId) : Prop :=
  m.awaits zoneId = true ∨ ∃ zones ∈ m.trees, zoneId ∈ zones

/-- A call of `insert_zone` has not looked at its zone yet. -/
def Task.inserts (zoneId : ZoneId) : Task → Bool
  | .insert zoneId' _ _ => decide (zoneId' = zoneId)
  | _ => false

def Inserting (m : ZoneMaintainer) (i : TaskId) (zoneId : ZoneId) : Prop :=
  m.tasks[i]?.any (Task.inserts zoneId) = true

/-- All zones are the first ones of their names. -/
def First (zones : MemberZones) : Prop :=
  ∀ zoneId handle, zones.lookup zoneId = some handle → handle = 0

/-- What holds while no name is inserted twice. -/
structure Single (m : ZoneMaintainer) : Prop where
  first : ∀ zoneId handle, (m.zoneHeap.get zoneId handle).isSome = true → handle = 0
  apart : m.Apart
  trees : ∀ zones ∈ m.trees, First zones
  snapshots : ∀ task ∈ m.tasks, ∀ zones ∈ task.snapshot, First zones
  pending : ∀ zoneId handle, m.pendingZones.lookup zoneId = some handle →
    handle = 0 ∧ m.isSecondary zoneId handle = true
  promoted : ∀ zoneId handle soaRefresh, m.runLoop = .promoting zoneId handle soaRefresh →
    handle = 0
  tracked : ∀ zoneId ∈ m.timeTracking, m.isSecondary zoneId 0 = true
  inserted : ∀ zoneId handle newZones, .insert zoneId handle newZones ∈ m.tasks → handle = 0
  once : ∀ i j zoneId, m.Inserting i zoneId → m.Inserting j zoneId → i = j
  absent : ∀ i zoneId, m.Inserting i zoneId → ¬m.Present zoneId
  known : ∀ zoneId, (m.Present zoneId ∨ ∃ i, m.Inserting i zoneId) →
    (m.zoneHeap.get zoneId 0).isSome = true

section

variable {m m' : ZoneMaintainer} {a : Action} {i j : TaskId} {zoneId : ZoneId} {handle : Handle}

theorem Grows.isSecondary (h : Grows m.zoneHeap m'.zoneHeap)
    (hsecondary : m.isSecondary zoneId handle = true) : m'.isSecondary zoneId handle = true := by
  unfold ZoneMaintainer.isSecondary at hsecondary ⊢
  obtain ⟨zone, hget, hconfig⟩ := (Option.any_eq_true _ _).mp hsecondary
  obtain ⟨zone', hget', hsame⟩ := h zoneId handle zone hget
  rw [hget', Option.any_some, hsame]
  exact hconfig

theorem inserting_iff :
    m.Inserting i zoneId ↔ ∃ handle newZones, m.tasks[i]? = some (.insert zoneId handle newZones) := by
  unfold Inserting
  constructor
  · intro h
    obtain ⟨task, htask, hinserts⟩ := (Option.any_eq_true _ _).mp h
    unfold Task.inserts at hinserts
    split at hinserts
    next zoneId' handle newZones =>
      rw [of_decide_eq_true hinserts] at htask
      exact ⟨handle, newZones, htask⟩
    · cases hinserts
  · intro h
    obtain ⟨handle, newZones, htask⟩ := h
    rw [htask]
    exact decide_eq_true rfl

theorem First.insert {zones : MemberZones} (h : First zones) (hhandle : handle = 0) :
    First (zones.insert zoneId handle) := by
  intro zoneId' handle' hlookup
  by_cases heq : zoneId' = zoneId
  · rw [heq, AList.lookup_insert] at hlookup
    cases hlookup
    exact hhandle
  · rw [AList.lookup_insert_ne heq] at hlookup
    exact h zoneId' handle' hlookup

theorem not_present_iff : ¬m.Present zoneId ↔
    m.awaits zoneId = false ∧ ∀ zones ∈ m.trees, zoneId ∉ zones := by
  unfold Present
  simp only [not_or, Bool.not_eq_true, not_exists, not_and]

-- The next step of a task does not start a call of `insert_zone`.
theorem inserting_of_turn {input : Input} (h : TaskTurn m i input m')
    (hinserting : m'.Inserting j zoneId) : j ≠ i ∧ m.Inserting j zoneId := by
  obtain ⟨task, task', htask, -, hstep, hinsert⟩ := h.next
  unfold Inserting at hinserting ⊢
  rw [hstep.tasks, List.getElem?_set] at hinserting
  by_cases hij : i = j
  · rw [if_pos hij, if_pos (List.getElem?_eq_some_iff.mp htask).1] at hinserting
    have hnone : task'.inserts zoneId = false := by
      cases task' with
      | insert zoneId' handle newZones =>
        rcases hinsert with hinsert | hcaller
        · exact absurd rfl (hinsert.next.2 zoneId' handle newZones)
        · exact absurd rfl (not_insert_of_not_caller (hstep.follows.not_caller hcaller) newZones)
      | _ => rfl
    rw [Option.any_some, hnone] at hinserting
    cases hinserting
  · rw [if_neg hij] at hinserting
    exact ⟨fun heq ↦ hij heq.symm, hinserting⟩

-- A task makes a zone pending or active that it inserts.
theorem present_of_turn {input : Input} (h : TaskTurn m i input m') (hpresent : m'.Present zoneId) :
    m.Present zoneId ∨ m.Inserting i zoneId := by
  obtain ⟨task, task', htask, -, hstep, -⟩ := h.next
  rcases hpresent with hawaits | ⟨zones, hzones, hmem⟩
  · rw [awaits_iff, hstep.runLoop] at hawaits
    rcases pendingZones_of_turn h with heq | ⟨zoneId', handle, newZones, hinsert, -, -, heq⟩
    · rw [heq] at hawaits
      exact Or.inl (Or.inl (awaits_iff.mpr hawaits))
    · rw [heq, AList.mem_insert] at hawaits
      rcases hawaits with (rfl | hawaits) | hawaits
      · exact Or.inr (inserting_iff.mpr ⟨handle, newZones, hinsert⟩)
      · exact Or.inl (Or.inl (awaits_iff.mpr (Or.inl hawaits)))
      · exact Or.inl (Or.inl (awaits_iff.mpr (Or.inr hawaits)))
  · rcases mem_trees_of_turn h hzones with
      hzones | ⟨zoneId', handle, newZones, hinsert, -, hnew, rfl⟩
    · exact Or.inl (Or.inr ⟨zones, hzones, hmem⟩)
    · rcases (AList.mem_insert _).mp hmem with rfl | hmem
      · exact Or.inr (inserting_iff.mpr ⟨handle, newZones, hinsert⟩)
      · exact Or.inl (Or.inr ⟨newZones, hnew, hmem⟩)

theorem insertsNew_of_single (hinv : m.Single) (a : Action) : m.insertsNew a = true := by
  unfold insertsNew
  split
  next i input =>
    split
    next zoneId handle newZones htask =>
      have habsent := hinv.absent i zoneId (inserting_iff.mpr ⟨handle, newZones, htask⟩)
      obtain ⟨hawaits, hnone⟩ := not_present_iff.mp habsent
      split
      · rw [List.all_eq_true]
        intro zones hzones
        exact decide_eq_true (hnone zones hzones)
      · rw [hawaits]
        rfl
    · rfl
  · rfl

theorem single_started (h : m.Started) : m.Single := by
  have hapart := apart_started h
  subst h
  have htrees : ∀ zones ∈ new.trees, zones = ∅ := by
    intro zones hzones
    rcases mem_trees.mp hzones with rfl | rfl | hzones | ⟨task, htask, -⟩
    · rfl
    · rfl
    · cases hzones
    · cases htask
  have hinserting : ∀ i zoneId, ¬new.Inserting i zoneId := by
    intro i zoneId h
    cases h
  constructor
  · intro zoneId handle hget
    cases hget
  · exact hapart
  · intro zones hzones zoneId handle hlookup
    rw [htrees zones hzones] at hlookup
    cases hlookup
  · intro task htask
    cases htask
  · intro zoneId handle hlookup
    cases hlookup
  · intro zoneId handle soaRefresh hloop
    cases hloop
  · intro zoneId hmem
    cases hmem
  · intro zoneId handle newZones htask
    cases htask
  · intro i j zoneId hi
    exact absurd hi (hinserting i zoneId)
  · intro i zoneId hi
    exact absurd hi (hinserting i zoneId)
  · intro zoneId hknown
    rcases hknown with (hawaits | ⟨zones, hzones, hmem⟩) | ⟨i, hi⟩
    · rw [awaits_iff] at hawaits
      rcases hawaits with hmem | hloop
      · cases hmem
      · cases hloop
    · rw [htrees zones hzones] at hmem
      cases hmem
    · exact absurd hi (hinserting i zoneId)

/-! ## One step -/

-- No step creates a zone but the insertion of a zone.
theorem isSome_of_turn {input : Input} (h : TaskTurn m i input m')
    (hget : (m'.zoneHeap.get zoneId handle).isSome = true) :
    (m.zoneHeap.get zoneId handle).isSome = true := by
  obtain ⟨task, task', -, hnext, -⟩ := h.next
  have hexpired := hnext.marks.expiredAt zoneId handle
  unfold expiredAt at hexpired
  rw [← Option.isSome_map (f := MaintainedZone.expired), hexpired] at hget
  split at hget
  · rw [Option.isSome_map, Option.isSome_map] at hget
    exact hget
  · rw [Option.isSome_map] at hget
    exact hget

-- A task hands on its copy of the active zones.
theorem TaskNext.snapshot {input : Input} {task task' : Task}
    (h : TaskNext m i input task task' m') {zones : MemberZones}
    (hzones : zones ∈ task'.snapshot) : zones ∈ task.snapshot := by
  cases h with
  | refresh hstep => cases hstep <;> cases hzones
  | notify hstep => cases hstep <;> cases hzones
  | insert hstep => cases hstep <;> cases hzones
  | timer hstep =>
    cases hstep with
    | known => exact hzones
    | untracked | pending | active | gone | primary => cases hzones

theorem single_of_turn {input : Input} (hinv : m.Single) (h : TaskTurn m i input m') :
    m'.Single := by
  obtain ⟨task, task', htask, hnext, hstep, -⟩ := h.next
  have hmem : task ∈ m.tasks := List.mem_of_getElem? htask
  constructor
  · intro zoneId handle hget
    exact hinv.first zoneId handle (isSome_of_turn h hget)
  · exact apart_of_turn hinv.apart (insertsNew_of_single hinv _) h
  · intro zones hzones
    rcases mem_trees_of_turn h hzones with
      hold | ⟨zoneId, handle, newZones, hinsert, -, hnew, rfl⟩
    · exact hinv.trees zones hold
    · exact (hinv.trees newZones hnew).insert
        (hinv.inserted zoneId handle newZones (List.mem_of_getElem? hinsert))
  · intro task₁ htask₁ zones hzones
    rw [hstep.tasks] at htask₁
    rcases List.mem_or_eq_of_mem_set htask₁ with htask₁ | rfl
    · exact hinv.snapshots task₁ htask₁ zones hzones
    · exact hinv.snapshots task hmem zones (hnext.snapshot hzones)
  · intro zoneId handle hlookup
    have hold : handle = 0 ∧ m.isSecondary zoneId handle = true := by
      rcases pendingZones_of_turn h with heq | ⟨zoneId', handle', newZones, hinsert, hsecondary, -, heq⟩
      · rw [heq] at hlookup
        exact hinv.pending zoneId handle hlookup
      · rw [heq] at hlookup
        by_cases hsame : zoneId = zoneId'
        · rw [hsame, AList.lookup_insert] at hlookup
          cases hlookup
          rw [hsame]
          exact ⟨hinv.inserted zoneId' handle newZones (List.mem_of_getElem? hinsert), hsecondary⟩
        · rw [AList.lookup_insert_ne hsame] at hlookup
          exact hinv.pending zoneId handle hlookup
    exact ⟨hold.1, hstep.heap.isSecondary hold.2⟩
  · intro zoneId handle soaRefresh hloop
    rw [hstep.runLoop] at hloop
    exact hinv.promoted zoneId handle soaRefresh hloop
  · intro zoneId htracked
    exact hstep.heap.isSecondary (hinv.tracked zoneId ((hstep.tracked zoneId).mp htracked))
  · intro zoneId handle newZones hinsert
    obtain ⟨j, hj⟩ := List.mem_iff_getElem?.mp hinsert
    have hinserting : m'.Inserting j zoneId := inserting_iff.mpr ⟨handle, newZones, hj⟩
    have hne := (inserting_of_turn h hinserting).1
    rw [hstep.tasks, List.getElem?_set_ne hne.symm] at hj
    exact hinv.inserted zoneId handle newZones (List.mem_of_getElem? hj)
  · intro j k zoneId hj hk
    exact hinv.once j k zoneId (inserting_of_turn h hj).2 (inserting_of_turn h hk).2
  · intro j zoneId hj hpresent
    obtain ⟨hne, hold⟩ := inserting_of_turn h hj
    rcases present_of_turn h hpresent with hpresent | hi
    · exact hinv.absent j zoneId hold hpresent
    · exact hne (hinv.once j i zoneId hold hi)
  · intro zoneId hknown
    have hold : m.Present zoneId ∨ ∃ j, m.Inserting j zoneId := by
      rcases hknown with hpresent | ⟨j, hj⟩
      · exact (present_of_turn h hpresent).imp_right (fun hi ↦ ⟨i, hi⟩)
      · exact Or.inr ⟨j, (inserting_of_turn h hj).2⟩
    obtain ⟨zone, hget⟩ := Option.isSome_iff_exists.mp (hinv.known zoneId hold)
    obtain ⟨zone', hget', -⟩ := hstep.heap zoneId 0 zone hget
    rw [hget']
    rfl

-- The loop takes no zone that is not pending or active.
theorem present_of_loop (hinv : m.Apart) (h : LoopStep m m') (hpresent : m'.Present zoneId) :
    m.Present zoneId := by
  rcases hpresent with hawaits | ⟨zones, hzones, hmem⟩
  · exact Or.inl (awaits_of_loop hinv h hawaits)
  · rcases mem_trees_of_loop h hzones with hold | ⟨zoneId', handle, soaRefresh, hloop, -, rfl⟩
    · exact Or.inr ⟨zones, hold, hmem⟩
    · rcases (AList.mem_insert _).mp hmem with rfl | hmem
      · exact Or.inl (awaits_iff.mpr (Or.inr (by rw [hloop]; rfl)))
      · exact Or.inr ⟨m.loadedArc, loadedArc_mem_trees, hmem⟩

-- What the loop begins to track is the zone that it has found pending.
theorem tracked_of_loop (h : LoopStep m m') (htracked : zoneId ∈ m'.timeTracking) :
    zoneId ∈ m.timeTracking ∨ ∃ handle, m.runLoop = .tracking zoneId handle := by
  cases h with
  | empty hloop | loaded hloop =>
    rcases (AList.mem_insert _).mp htracked with rfl | hold
    · exact Or.inr ⟨_, hloop⟩
    · exact Or.inl hold
  | locked | notPending | notSecondary | again | duplicate | insert | store | load | update =>
    exact Or.inl htracked

theorem single_of_loop (hinv : m.Single) (h : LoopStep m m') : m'.Single := by
  obtain ⟨htasks, -, hheap⟩ := h.frame
  have hsecondary : ∀ zoneId handle, m'.isSecondary zoneId handle = m.isSecondary zoneId handle := by
    intro zoneId handle
    unfold isSecondary
    rw [hheap]
  have hinserting : ∀ j zoneId, m'.Inserting j zoneId ↔ m.Inserting j zoneId := by
    intro j zoneId
    unfold Inserting
    rw [htasks]
  have htracking : ∀ zoneId handle, m.runLoop = .tracking zoneId handle →
      handle = 0 ∧ m.isSecondary zoneId handle = true :=
    fun zoneId handle hloop ↦ hinv.pending zoneId handle (hinv.apart.tracked zoneId handle hloop)
  constructor
  · rw [hheap]
    exact hinv.first
  · exact apart_of_loop hinv.apart h
  · intro zones hzones
    rcases mem_trees_of_loop h hzones with hold | ⟨zoneId, handle, soaRefresh, hloop, -, rfl⟩
    · exact hinv.trees zones hold
    · exact (hinv.trees m.loadedArc loadedArc_mem_trees).insert
        (hinv.promoted zoneId handle soaRefresh hloop)
  · rw [htasks]
    exact hinv.snapshots
  · intro zoneId handle hlookup
    rw [hsecondary]
    apply hinv.pending
    cases h with
    | @loaded zoneId' | @again zoneId' =>
      by_cases hsame : zoneId = zoneId'
      · rw [hsame] at hlookup
        rw [AList.lookup_erase] at hlookup
        cases hlookup
      · exact (AList.lookup_erase_ne hsame).symm.trans hlookup
    | locked | notPending | notSecondary | empty | duplicate | insert | store | load | update =>
      exact hlookup
  · intro zoneId handle soaRefresh hloop'
    cases h with
    | loaded hloop | again hloop =>
      cases hloop'
      exact (htracking _ _ hloop).1
    | locked | notPending | notSecondary | empty | duplicate | insert | store | load | update =>
      cases hloop'
  · intro zoneId htracked
    rw [hsecondary]
    rcases tracked_of_loop h htracked with hold | ⟨handle, hloop⟩
    · exact hinv.tracked zoneId hold
    · obtain ⟨rfl, hzone⟩ := htracking zoneId handle hloop
      exact hzone
  · rw [htasks]
    exact hinv.inserted
  · intro j k zoneId hj hk
    exact hinv.once j k zoneId ((hinserting j zoneId).mp hj) ((hinserting k zoneId).mp hk)
  · intro j zoneId hj hpresent
    exact hinv.absent j zoneId ((hinserting j zoneId).mp hj) (present_of_loop hinv.apart h hpresent)
  · intro zoneId hknown
    rw [hheap]
    apply hinv.known
    rcases hknown with hpresent | ⟨j, hj⟩
    · exact Or.inl (present_of_loop hinv.apart h hpresent)
    · exact Or.inr ⟨j, (hinserting j zoneId).mp hj⟩

theorem present_of_outer (h : OuterStep m a m') (hpresent : m'.Present zoneId) :
    m.Present zoneId := by
  rcases hpresent with hawaits | ⟨zones, hzones, hmem⟩
  · exact Or.inl (h.awaits hawaits)
  · exact Or.inr ⟨zones, mem_trees_of_outer h hzones, hmem⟩

theorem getElem?_spawn {task task₁ : Task} (h : (m.spawn task₁).tasks[j]? = some task) :
    m.tasks[j]? = some task ∨ j = m.tasks.length ∧ task = task₁ := by
  have happend : (m.tasks ++ [task₁])[j]? = some task := h
  rw [List.getElem?_append] at happend
  split at happend
  · exact Or.inl happend
  next hlt =>
    obtain ⟨hzero, heq⟩ := List.getElem?_eq_some_iff.mp happend
    have hj : j = m.tasks.length :=
      Nat.le_antisymm (Nat.sub_eq_zero_iff_le.mp (Nat.lt_one_iff.mp hzero)) (Nat.le_of_not_lt hlt)
    subst hj
    simp only [Nat.sub_self, List.getElem_cons_zero] at heq
    exact Or.inr ⟨rfl, heq.symm⟩

-- A spawned task gets the active zones of that moment.
theorem OuterStep.snapshot (h : OuterStep m a m') {task : Task} (htask : task ∈ m'.tasks)
    {zones : MemberZones} (hzones : zones ∈ task.snapshot) :
    (∃ old ∈ m.tasks, zones ∈ old.snapshot) ∨ zones = m.loadedArc := by
  have hspawn : ∀ new : Task, (∀ zones ∈ new.snapshot, zones = m.loadedArc) →
      task ∈ m.tasks ++ [new] → (∃ old ∈ m.tasks, zones ∈ old.snapshot) ∨ zones = m.loadedArc := by
    intro new hnew hmem
    rcases List.mem_append.mp hmem with hold | hlast
    · exact Or.inl ⟨task, hold, hzones⟩
    · rw [List.mem_singleton.mp hlast] at hzones
      exact Or.inr (hnew zones hzones)
  cases h with
  | tick | zoneAdded | refreshRequested => exact Or.inl ⟨task, htask, hzones⟩
  | insertZone | notify | force => exact hspawn _ (fun zones hmem ↦ by cases hmem) htask
  | @fire _ timer =>
    exact hspawn (.timer timer.cause timer.zoneId m.loadedArc)
      (fun zones hmem ↦ List.mem_singleton.mp hmem) htask
  | @zoneChanged zoneId source =>
    exact hspawn (.notify zoneId source m.loadedArc)
      (fun zones hmem ↦ List.mem_singleton.mp hmem) htask

-- A call of `insert_zone` starts with a new zone.
theorem insert_of_outer (h : OuterStep m a m') {newZones : MemberZones}
    (hj : m'.tasks[j]? = some (.insert zoneId handle newZones)) :
    m.tasks[j]? = some (.insert zoneId handle newZones) ∨
      j = m.tasks.length ∧ handle = m.zoneHeap.next zoneId ∧
        ∃ config soa, a = .insertZone zoneId config soa := by
  cases h with
  | tick | zoneAdded | refreshRequested => exact Or.inl hj
  | insertZone zoneId' config soa =>
    rcases getElem?_spawn hj with hold | ⟨hlast, hnew⟩
    · exact Or.inl hold
    · cases hnew
      exact Or.inr ⟨hlast, rfl, config, soa, rfl⟩
  | notify | force | fire | zoneChanged =>
    rcases getElem?_spawn hj with hold | ⟨-, hnew⟩
    · exact Or.inl hold
    · cases hnew

theorem inserting_of_outer (h : OuterStep m a m') (hj : m'.Inserting j zoneId) :
    m.Inserting j zoneId ∨ j = m.tasks.length ∧ ∃ config soa, a = .insertZone zoneId config soa := by
  obtain ⟨handle, newZones, htask⟩ := inserting_iff.mp hj
  rcases insert_of_outer h htask with hold | ⟨hlast, -, hinsert⟩
  · exact Or.inl (inserting_iff.mpr ⟨handle, newZones, hold⟩)
  · exact Or.inr ⟨hlast, hinsert⟩

theorem isSome_of_outer (h : OuterStep m a m')
    (hget : (m'.zoneHeap.get zoneId handle).isSome = true) :
    (m.zoneHeap.get zoneId handle).isSome = true ∨
      handle = m.zoneHeap.next zoneId ∧ ∃ config soa, a = .insertZone zoneId config soa := by
  cases h with
  | tick | notify | force | fire | zoneChanged | zoneAdded | refreshRequested =>
    exact Or.inl hget
  | insertZone zoneId' config soa =>
    have halloc : ((m.zoneHeap.alloc zoneId' _).get zoneId handle).isSome = true := hget
    rw [Heap.get_alloc] at halloc
    split at halloc
    next hnew =>
      obtain ⟨rfl, hhandle⟩ := hnew
      exact Or.inr ⟨hhandle, config, soa, rfl⟩
    · exact Or.inl halloc

theorem next_of_insertsOnce {config : ZoneConfig} {soa : Option Soa}
    (hok : m.insertsOnce (.insertZone zoneId config soa) = true) : m.zoneHeap.next zoneId = 0 :=
  of_decide_eq_true hok

-- A zone that is inserted now was not there in any way.
theorem Single.not_known (hinv : m.Single) {config : ZoneConfig} {soa : Option Soa}
    (hok : m.insertsOnce (.insertZone zoneId config soa) = true) :
    ¬(m.Present zoneId ∨ ∃ i, m.Inserting i zoneId) := by
  intro hknown
  obtain ⟨zone, hget⟩ := Option.isSome_iff_exists.mp (hinv.known zoneId hknown)
  have hlt : 0 < m.zoneHeap.next zoneId := Heap.lt_next_iff.mpr ⟨zone, hget⟩
  rw [next_of_insertsOnce hok] at hlt
  exact Nat.lt_irrefl 0 hlt

theorem single_of_outer (hinv : m.Single) (hok : m.insertsOnce a = true) (h : OuterStep m a m') :
    m'.Single := by
  have hgrows : Grows m.zoneHeap m'.zoneHeap := h.grows
  constructor
  · intro zoneId handle hget
    rcases isSome_of_outer h hget with hold | ⟨hhandle, config, soa, rfl⟩
    · exact hinv.first zoneId handle hold
    · rw [hhandle, next_of_insertsOnce hok]
  · exact apart_of_outer hinv.apart h
  · intro zones hzones
    exact hinv.trees zones (mem_trees_of_outer h hzones)
  · intro task htask zones hzones
    rcases h.snapshot htask hzones with ⟨old, hold, hmem⟩ | rfl
    · exact hinv.snapshots old hold zones hmem
    · exact hinv.trees m.loadedArc loadedArc_mem_trees
  · intro zoneId handle hlookup
    rw [h.pendingZones] at hlookup
    obtain ⟨hhandle, hsecondary⟩ := hinv.pending zoneId handle hlookup
    exact ⟨hhandle, hgrows.isSecondary hsecondary⟩
  · intro zoneId handle soaRefresh hloop
    rcases h.runLoop with hsame | ⟨zoneId', hadded⟩
    · exact hinv.promoted zoneId handle soaRefresh (hsame ▸ hloop)
    · rw [hadded] at hloop
      cases hloop
  · intro zoneId htracked
    have hsame : m'.timeTracking = m.timeTracking := by cases h <;> rfl
    rw [hsame] at htracked
    exact hgrows.isSecondary (hinv.tracked zoneId htracked)
  · intro zoneId handle newZones hinsert
    obtain ⟨j, hj⟩ := List.mem_iff_getElem?.mp hinsert
    rcases insert_of_outer h hj with hold | ⟨-, hhandle, config, soa, rfl⟩
    · exact hinv.inserted zoneId handle newZones (List.mem_of_getElem? hold)
    · rw [hhandle, next_of_insertsOnce hok]
  · intro j k zoneId hj hk
    rcases inserting_of_outer h hj with hj | ⟨hj, config, soa, rfl⟩
    · rcases inserting_of_outer h hk with hk | ⟨-, config, soa, rfl⟩
      · exact hinv.once j k zoneId hj hk
      · exact absurd (Or.inr ⟨j, hj⟩) (hinv.not_known hok)
    · rcases inserting_of_outer h hk with hk | ⟨hk, -⟩
      · exact absurd (Or.inr ⟨k, hk⟩) (hinv.not_known hok)
      · exact hj.trans hk.symm
  · intro j zoneId hj hpresent
    have hold := present_of_outer h hpresent
    rcases inserting_of_outer h hj with hj | ⟨-, config, soa, rfl⟩
    · exact hinv.absent j zoneId hj hold
    · exact hinv.not_known hok (Or.inl hold)
  · intro zoneId hknown
    have hold : (m.Present zoneId ∨ ∃ j, m.Inserting j zoneId) ∨
        ∃ config soa, a = .insertZone zoneId config soa := by
      rcases hknown with hpresent | ⟨j, hj⟩
      · exact Or.inl (Or.inl (present_of_outer h hpresent))
      · rcases inserting_of_outer h hj with hj | ⟨-, hinsert⟩
        · exact Or.inl (Or.inr ⟨j, hj⟩)
        · exact Or.inr hinsert
    rcases hold with hold | ⟨config, soa, rfl⟩
    · obtain ⟨zone, hget⟩ := Option.isSome_iff_exists.mp (hinv.known zoneId hold)
      obtain ⟨zone', hget', -⟩ := hgrows zoneId 0 zone hget
      rw [hget']
      rfl
    · cases h
      show ((m.zoneHeap.alloc zoneId _).get zoneId 0).isSome = true
      rw [Heap.get_alloc, if_pos ⟨rfl, (next_of_insertsOnce hok).symm⟩]
      rfl

theorem Single.step (hinv : m.Single) (hok : m.insertsOnce a = true) (h : m.step a = some m') :
    m'.Single := by
  rcases step_cases h with ⟨i, input, rfl, hturn⟩ | ⟨-, hloop⟩ | houter
  · exact single_of_turn hinv hturn
  · exact single_of_loop hinv hloop
  · exact single_of_outer hinv hok houter

end

end ZoneMaintainer

end Cascade

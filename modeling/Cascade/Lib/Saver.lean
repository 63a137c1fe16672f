import Cascade.Lib.Runs
import Mathlib.Data.List.Nodup

/-!
# Saving behind

A content in memory is saved to a file by tasks of its own.  A change enqueues a save unless one is
enqueued already, in a slot next to the content.  An enqueued save sleeps, then takes itself out of
the slot and a snapshot of the content under the lock, and writes the snapshot to the file without
the lock.  A save can also be made at once: it takes the enqueued save out of the slot and aborts
it, which has an effect only while it sleeps.

Several snapshots can wait for their write at a time.  When they are written in the order in which
they were taken, the file ends up with the last one.
-/

namespace Lib

/-- A content with a slot for the enqueued save, and what a save writes of it. -/
structure Store (S F : Type) where
  slot : S → Option Nat
  setSlot : Option Nat → S → S
  build : S → F
  slot_setSlot : ∀ save s, slot (setSlot save s) = save
  build_setSlot : ∀ save s, build (setSlot save s) = build s

namespace Store

variable {S F : Type} (st : Store S F)

attribute [simp] slot_setSlot build_setSlot

/-- Enqueues the save `task`, unless one is enqueued. -/
def markDirty (s : S) (task : Nat) : S :=
  match st.slot s with
  | some _ => s
  | none => st.setSlot (some task) s

@[simp] theorem build_markDirty (s : S) (task : Nat) :
    st.build (st.markDirty s task) = st.build s := by
  unfold markDirty
  split
  · rfl
  · exact st.build_setSlot _ _

end Store

inductive SaveTask (F : Type)
  | sleeping
  | woken
  | writing (snapshot : F)
  | finished
deriving DecidableEq

/-- What the task is about to write. -/
def SaveTask.snapshot {F : Type} : SaveTask F → Option F
  | .writing snapshot => some snapshot
  | _ => none

/-- The snapshot that the task `i` is about to write. -/
def snapshotAt {F : Type} (tasks : List (SaveTask F)) (i : Nat) : Option F :=
  tasks[i]?.bind SaveTask.snapshot

/-- The content, the saves so far in the order in which they were started, those that have a
snapshot to write in the order in which it was taken, and the file. -/
structure Saver (S F : Type) where
  content : S
  tasks : List (SaveTask F)
  snapshots : List Nat
  file : Option F

namespace Saver

variable {S F : Type} (st : Store S F)

/-- A change of the content, which does not touch the slot. -/
def mutate (p : Saver S F) (new : S) : Saver S F :=
  let new := st.setSlot (st.slot p.content) new
  match st.slot p.content with
  | some _ => { p with content := new }
  | none =>
    { p with content := st.markDirty new p.tasks.length, tasks := p.tasks ++ [.sleeping] }

/-- The save passes its last await. -/
def wake (p : Saver S F) (i : Nat) : Option (Saver S F) :=
  match p.tasks[i]? with
  | some .sleeping => some { p with tasks := p.tasks.set i .woken }
  | _ => none

/-- The part of a save under the lock. -/
def lock (p : Saver S F) (i : Nat) : Option (Saver S F) :=
  match p.tasks[i]? with
  | some .woken =>
    if st.slot p.content = some i then
      some { p with
        content := st.setSlot none p.content
        tasks := p.tasks.set i (.writing (st.build p.content))
        snapshots := p.snapshots ++ [i] }
    else some { p with tasks := p.tasks.set i .finished }
  | _ => none

def write (p : Saver S F) (i : Nat) : Option (Saver S F) :=
  match p.tasks[i]? with
  | some (.writing snapshot) =>
    some { p with
      tasks := p.tasks.set i .finished
      snapshots := p.snapshots.erase i
      file := some snapshot }
  | _ => none

/-- Aborting a save stops it while it sleeps. -/
def abort (tasks : List (SaveTask F)) (i : Nat) : List (SaveTask F) :=
  match tasks[i]? with
  | some .sleeping => tasks.set i .finished
  | _ => tasks

/-- The part of a save at once under the lock. -/
def saveNow (p : Saver S F) : Saver S F :=
  let tasks := match st.slot p.content with
    | some i => abort p.tasks i
    | none => p.tasks
  { p with
    content := st.setSlot none p.content
    tasks := tasks ++ [.writing (st.build p.content)]
    snapshots := p.snapshots ++ [p.tasks.length] }

inductive Action (S : Type)
  | mutate (new : S)
  | wake (i : Nat)
  | lock (i : Nat)
  | write (i : Nat)
  | saveNow

def step (p : Saver S F) : Action S → Option (Saver S F)
  | .mutate new => some (p.mutate st new)
  | .wake i => p.wake i
  | .lock i => p.lock st i
  | .write i => p.write i
  | .saveNow => some (p.saveNow st)

/-- No save was started yet. -/
def Started (p : Saver S F) : Prop :=
  st.slot p.content = none ∧ p.tasks = [] ∧ p.snapshots = []

/-- Every save that was started has finished, and none is enqueued. -/
def Quiet (p : Saver S F) : Prop := st.slot p.content = none ∧ ∀ task ∈ p.tasks, task = .finished

instance [DecidableEq F] (p : Saver S F) : Decidable (p.Quiet st) :=
  inferInstanceAs (Decidable (_ ∧ ∀ task ∈ p.tasks, task = .finished))

/-- A snapshot is written only when all that were taken before it are. -/
def inOrder (p : Saver S F) : Action S → Bool
  | .write i => decide (p.snapshots.head? = some i)
  | _ => true

/-! ## Tasks -/

section

variable {tasks : List (SaveTask F)} {i j : Nat} {task old : SaveTask F}

theorem snapshotAt_set (hi : tasks[i]? = some old) :
    snapshotAt (tasks.set i task) j = if j = i then task.snapshot else snapshotAt tasks j := by
  have hlt : i < tasks.length := (List.getElem?_eq_some_iff.mp hi).1
  unfold snapshotAt
  rw [List.getElem?_set]
  by_cases hj : j = i
  · rw [if_pos hj.symm, if_pos hlt, if_pos hj]
    rfl
  · rw [if_neg (Ne.symm hj), if_neg hj]

theorem snapshotAt_append :
    snapshotAt (tasks ++ [task]) j =
      if j = tasks.length then task.snapshot else snapshotAt tasks j := by
  unfold snapshotAt
  by_cases hj : j = tasks.length
  · rw [if_pos hj, hj, List.getElem?_append_right (Nat.le_refl _), Nat.sub_self]
    rfl
  · rw [if_neg hj]
    by_cases hlt : j < tasks.length
    · rw [List.getElem?_append_left hlt]
    · rw [List.getElem?_eq_none (by rw [List.length_append]; simp; omega),
        List.getElem?_eq_none (by omega)]

theorem lt_of_snapshotAt {snapshot : F} (h : snapshotAt tasks j = some snapshot) :
    j < tasks.length := by
  have ⟨task, htask, _⟩ := Option.bind_eq_some_iff.mp h
  exact (List.getElem?_eq_some_iff.mp htask).1

-- A task without a snapshot that becomes another one without a snapshot.
theorem snapshotAt_set_idle (hi : tasks[i]? = some old) (hold : old.snapshot = none)
    (htask : task.snapshot = none) : snapshotAt (tasks.set i task) j = snapshotAt tasks j := by
  rw [snapshotAt_set hi]
  by_cases hj : j = i
  · rw [if_pos hj, htask, hj, snapshotAt, hi]
    exact hold.symm
  · rw [if_neg hj]

theorem snapshotAt_abort : snapshotAt (abort tasks i) j = snapshotAt tasks j := by
  unfold abort
  split
  next hi => exact snapshotAt_set_idle hi rfl rfl
  · rfl

theorem length_abort : (abort tasks i).length = tasks.length := by
  unfold abort
  split
  · exact List.length_set
  · rfl

end

/-! ## Saves in order -/

/-- The snapshots that wait are those of the tasks that write one, the enqueued save has taken none
yet, and without an enqueued save the last snapshot is up to date, or the file is. -/
structure Tracked (p : Saver S F) : Prop where
  nodup : p.snapshots.Nodup
  waiting : ∀ i, i ∈ p.snapshots ↔ (snapshotAt p.tasks i).isSome = true
  last : st.slot p.content = none → ∀ i, p.snapshots.getLast? = some i →
    snapshotAt p.tasks i = some (st.build p.content)
  written : st.slot p.content = none → p.tasks ≠ [] → p.snapshots = [] →
    p.file = some (st.build p.content)

variable {st} {p p' : Saver S F} {i : Nat}

theorem tracked_started (h : p.Started st) : p.Tracked st := by
  have ⟨_, htasks, hsnapshots⟩ := h
  have hnone : ∀ i, snapshotAt p.tasks i = none := by
    intro i
    rw [htasks]
    rfl
  refine ⟨by rw [hsnapshots]; exact List.nodup_nil, ?_, ?_, ?_⟩
  · intro i
    rw [hsnapshots, hnone]
    simp
  · intro _ i hi
    rw [hsnapshots] at hi
    exact absurd hi (by simp)
  · intro _ hne
    exact absurd htasks hne

-- Other tasks that are about to write the same snapshots, with the content as it is.
theorem Tracked.of_snapshots (h : p.Tracked st) {tasks : List (SaveTask F)}
    (hsame : ∀ j, snapshotAt tasks j = snapshotAt p.tasks j) (hlen : tasks.length = p.tasks.length) :
    Tracked st { p with tasks } := by
  refine ⟨h.nodup, ?_, ?_, ?_⟩
  · intro j
    rw [hsame]
    exact h.waiting j
  · intro hslot j hj
    rw [hsame]
    exact h.last hslot j hj
  · intro hslot hne hsnapshots
    apply h.written hslot _ hsnapshots
    intro hnil
    rw [hnil] at hlen
    exact hne (List.length_eq_zero_iff.mp hlen)

-- A further snapshot is up to date.
theorem Tracked.take (h : p.Tracked st) {tasks : List (SaveTask F)} (hi : i ∉ p.snapshots)
    (hat : ∀ j, snapshotAt tasks j =
      if j = i then some (st.build p.content) else snapshotAt p.tasks j) :
    Tracked st { p with
      content := st.setSlot none p.content
      tasks
      snapshots := p.snapshots ++ [i] } := by
  refine ⟨?_, ?_, ?_, ?_⟩
  · exact List.nodup_append.mpr ⟨h.nodup, List.nodup_singleton i, fun a ha b hb ↦ by
      rw [List.mem_singleton.mp hb]
      exact ne_of_mem_of_not_mem ha hi⟩
  · intro j
    rw [hat, List.mem_append, List.mem_singleton]
    by_cases hj : j = i
    · rw [if_pos hj]
      exact iff_of_true (Or.inr hj) rfl
    · rw [if_neg hj, h.waiting j]
      exact or_iff_left hj
  · intro _ j hj
    rw [List.getLast?_concat] at hj
    rw [hat, if_pos (Option.some.inj hj).symm, st.build_setSlot]
  · intro _ _ hnil
    exact absurd hnil (by simp)

theorem Tracked.mutate (h : p.Tracked st) (new : S) : (p.mutate st new).Tracked st := by
  unfold Saver.mutate
  simp only
  cases hslot : st.slot p.content with
  | some save =>
    have hstill : st.slot (st.setSlot (some save) new) ≠ none := by simp
    exact ⟨h.nodup, h.waiting, fun hnone ↦ absurd hnone hstill, fun hnone ↦ absurd hnone hstill⟩
  | none =>
    have hsave : st.slot (st.markDirty (st.setSlot none new) p.tasks.length) ≠ none := by
      simp [Store.markDirty]
    refine ⟨h.nodup, ?_, fun hnone ↦ absurd hnone hsave, fun hnone ↦ absurd hnone hsave⟩
    intro j
    rw [snapshotAt_append, h.waiting j]
    by_cases hj : j = p.tasks.length
    · rw [if_pos hj, hj, snapshotAt, List.getElem?_eq_none (Nat.le_refl _)]
      rfl
    · rw [if_neg hj]

theorem Tracked.wake (h : p.Tracked st) (hp' : p.wake i = some p') : p'.Tracked st := by
  unfold Saver.wake at hp'
  split at hp'
  next hi =>
    cases hp'
    exact h.of_snapshots (fun j ↦ snapshotAt_set_idle hi rfl rfl) List.length_set
  · cases hp'

theorem Tracked.lock (h : p.Tracked st) (hp' : p.lock st i = some p') : p'.Tracked st := by
  unfold Saver.lock at hp'
  split at hp'
  next hi =>
    by_cases hslot : st.slot p.content = some i
    · rw [if_pos hslot] at hp'
      cases hp'
      apply h.take
      · rw [h.waiting i, snapshotAt, hi]
        exact Bool.false_ne_true
      · exact fun j ↦ snapshotAt_set hi
    · rw [if_neg hslot] at hp'
      cases hp'
      exact h.of_snapshots (fun j ↦ snapshotAt_set_idle hi rfl rfl) List.length_set
  · cases hp'

-- The oldest snapshot is written.  It is the last one only when no other waits.
theorem Tracked.write (h : p.Tracked st) (hhead : p.snapshots.head? = some i)
    (hp' : p.write i = some p') : p'.Tracked st := by
  have ⟨rest, hrest⟩ := List.head?_eq_some_iff.mp hhead
  have hnodup : (i :: rest).Nodup := hrest ▸ h.nodup
  have hnot : i ∉ rest := (List.nodup_cons.mp hnodup).1
  unfold Saver.write at hp'
  split at hp'
  next snapshot hi =>
    cases hp'
    rw [hrest, List.erase_cons_head]
    refine ⟨(List.nodup_cons.mp hnodup).2, ?_, ?_, ?_⟩
    · intro j
      have hj := h.waiting j
      rw [hrest, List.mem_cons] at hj
      rw [snapshotAt_set hi]
      by_cases heq : j = i
      · rw [if_pos heq, heq]
        exact iff_of_false hnot Bool.false_ne_true
      · rw [if_neg heq, ← hj]
        exact (or_iff_right heq).symm
    · intro hslot j hj
      have hmem : j ∈ rest := List.mem_of_getLast? hj
      have hlast : p.snapshots.getLast? = some j := by
        rw [hrest, List.getLast?_cons, hj]
        rfl
      rw [snapshotAt_set hi, if_neg (ne_of_mem_of_not_mem hmem hnot)]
      exact h.last hslot j hlast
    · intro hslot _ hnil
      have hnone : rest = [] := hnil
      have hlast := h.last hslot i (by rw [hrest, hnone]; rfl)
      rw [snapshotAt, hi] at hlast
      exact hlast
  · cases hp'

theorem Tracked.saveNow (h : p.Tracked st) : (p.saveNow st).Tracked st := by
  have hnot : p.tasks.length ∉ p.snapshots := by
    intro hmem
    have ⟨snapshot, hsnapshot⟩ := Option.isSome_iff_exists.mp ((h.waiting _).mp hmem)
    exact Nat.lt_irrefl _ (lt_of_snapshotAt hsnapshot)
  unfold Saver.saveNow
  cases hslot : st.slot p.content with
  | none => exact h.take hnot (fun j ↦ snapshotAt_append)
  | some save =>
    apply h.take hnot
    intro j
    rw [snapshotAt_append, length_abort, snapshotAt_abort]
    rfl

theorem Tracked.step (h : p.Tracked st) {a : Action S} (hok : p.inOrder a = true)
    (hp' : p.step st a = some p') : p'.Tracked st := by
  cases a with
  | mutate new =>
    cases hp'
    exact h.mutate new
  | wake i => exact h.wake hp'
  | lock i => exact h.lock hp'
  | write i => exact h.write (of_decide_eq_true hok) hp'
  | saveNow =>
    cases hp'
    exact h.saveNow

-- When snapshots are written in the order in which they were taken, the file is up to date as soon
-- as every save has finished.
theorem saved_of_quiet
    (h : Reach (Saver.step st) (fun p a ↦ p.inOrder a = true) (Saver.Started st) p)
    (hquiet : p.Quiet st) (htasks : p.tasks ≠ []) : p.file = some (st.build p.content) := by
  have htracked : p.Tracked st :=
    h.invariant (fun _ ↦ tracked_started) (fun _ _ _ hp hok hp' ↦ hp.step hok hp')
  apply htracked.written hquiet.1 htasks
  rw [List.eq_nil_iff_forall_not_mem]
  intro i hi
  -- a snapshot that waits is one of a task that has not finished
  have ⟨snapshot, hat⟩ := Option.isSome_iff_exists.mp ((htracked.waiting i).mp hi)
  have ⟨task, htask, hsnapshot⟩ := Option.bind_eq_some_iff.mp hat
  rw [hquiet.2 task (List.mem_of_getElem? htask)] at hsnapshot
  cases hsnapshot

/-- A save takes its snapshot, the content changes and is saved at once, and then the first snapshot
is written. -/
def overtaking (old new : S) : List (Action S) :=
  [.mutate old, .wake 0, .lock 0, .mutate new, .saveNow, .write 2, .write 0]

-- A snapshot that is overtaken ends up in the file.
theorem exec_overtaking (st : Store S F) (start old new : S) (hslot : st.slot start = none) :
    ∃ p', Lib.exec (Saver.step st) ⟨start, [], [], none⟩ (overtaking old new) = some p' ∧
      p'.Quiet st ∧ p'.file = some (st.build old) ∧ st.build p'.content = st.build new := by
  simp [overtaking, Lib.exec, Saver.step, Saver.mutate, Saver.wake, Saver.lock, Saver.write,
    Saver.saveNow, Saver.abort, Store.markDirty, Quiet, hslot]

end Saver

end Lib

import Mathlib.Logic.Function.Basic
import Cascade.Lib.Traces

/-!
# Atomic registers

Places that hold one value or none each, with calls that read and write them.  A write takes effect
at one moment between its beginning and its return or fails and has none, a read returns what it has
found at one such moment or fails, and a crash stops all calls and leaves the values.  What is seen
from outside are the calls, what they return, and the crashes.
-/

namespace Lib

/-- What a call comes to. -/
inductive Outcome (V : Type)
  | written
  | found (value : Option V)
  | failed
deriving DecidableEq

inductive Access (P V : Type)
  | writing (p : P) (v : V)
  | reading (p : P)
  | settled (p : P) (outcome : Outcome V)
  | returned (p : P) (outcome : Outcome V)
deriving DecidableEq

structure Register (P V : Type) where
  value : P → Option V
  tasks : List (Access P V)

namespace Register

variable {P V : Type}

inductive Action (P V : Type)
  | write (p : P) (v : V)
  | read (p : P)
  | effect (i : Nat)
  | fail (i : Nat)
  | finish (i : Nat)
  | crash

/-- What is seen from outside. -/
inductive Event (P V : Type)
  | write (p : P) (v : V)
  | read (p : P)
  | returned (i : Nat) (outcome : Outcome V)
  | crash
deriving DecidableEq

/-- The moment of a call. -/
def effect [DecidableEq P] (r : Register P V) (i : Nat) : Option (Register P V) :=
  match r.tasks[i]? with
  | some (.writing p v) =>
    some { value := Function.update r.value p (some v), tasks := r.tasks.set i (.settled p .written) }
  | some (.reading p) => some { r with tasks := r.tasks.set i (.settled p (.found (r.value p))) }
  | _ => none

/-- A call may fail as long as it is no write that has taken effect. -/
def fail (r : Register P V) (i : Nat) : Option (Register P V) :=
  match r.tasks[i]? with
  | some (.writing p _) | some (.reading p) | some (.settled p (.found _)) =>
    some { r with tasks := r.tasks.set i (.settled p .failed) }
  | _ => none

/-- The end of a call. -/
def finish (r : Register P V) (i : Nat) : Option (Register P V) :=
  match r.tasks[i]? with
  | some (.settled p outcome) => some { r with tasks := r.tasks.set i (.returned p outcome) }
  | _ => none

def step [DecidableEq P] (r : Register P V) : Action P V → Option (Register P V)
  | .write p v => some { r with tasks := r.tasks ++ [.writing p v] }
  | .read p => some { r with tasks := r.tasks ++ [.reading p] }
  | .effect i => r.effect i
  | .fail i => r.fail i
  | .finish i => r.finish i
  | .crash => some { r with tasks := [] }

def label (r : Register P V) (a : Action P V) (_ : Register P V) : Option (Event P V) :=
  match a with
  | .write p v => some (.write p v)
  | .read p => some (.read p)
  | .effect _ | .fail _ => none
  | .finish i =>
    match r.tasks[i]? with
    | some (.settled _ outcome) => some (.returned i outcome)
    | _ => none
  | .crash => some .crash

/-- Only values of a kind are written. -/
def writesOnly (Q : P → V → Prop) (_ : Register P V) : Action P V → Prop
  | .write p v => Q p v
  | _ => True

/-- The value that the call has found, or is to write. -/
def Access.Holds (p : P) (v : V) : Access P V → Prop
  | .writing q w => q = p ∧ w = v
  | .settled q outcome | .returned q outcome => q = p ∧ outcome = .found (some v)
  | .reading _ => False

/-- All values are of the kind. -/
structure Of (Q : P → V → Prop) (r : Register P V) : Prop where
  value : ∀ p v, r.value p = some v → Q p v
  tasks : ∀ task ∈ r.tasks, ∀ p v, Access.Holds p v task → Q p v

variable {Q : P → V → Prop} {r r' : Register P V}

-- A call is replaced by one that holds what the old one or the register did.
theorem Of.setTask (h : r.Of Q) (i : Nat) {task : Access P V}
    (htask : ∀ p v, Access.Holds p v task → Q p v) : Of Q { r with tasks := r.tasks.set i task } := by
  refine ⟨h.value, ?_⟩
  intro other hother
  cases List.mem_or_eq_of_mem_set hother with
  | inl hmem => exact h.tasks other hmem
  | inr heq =>
    rw [heq]
    exact htask

theorem Of.addTask (h : r.Of Q) {task : Access P V}
    (htask : ∀ p v, Access.Holds p v task → Q p v) : Of Q { r with tasks := r.tasks ++ [task] } := by
  refine ⟨h.value, ?_⟩
  intro other hother
  cases List.mem_append.mp hother with
  | inl hmem => exact h.tasks other hmem
  | inr hnew =>
    rw [List.mem_singleton.mp hnew]
    exact htask

theorem Of.fail (h : r.Of Q) {i : Nat} (hr' : r.fail i = some r') : r'.Of Q := by
  unfold Register.fail at hr'
  split at hr'
  · cases hr'
    exact h.setTask i (fun _ _ hholds ↦ by cases hholds.2)
  · cases hr'
    exact h.setTask i (fun _ _ hholds ↦ by cases hholds.2)
  · cases hr'
    exact h.setTask i (fun _ _ hholds ↦ by cases hholds.2)
  · cases hr'

theorem Of.finish (h : r.Of Q) {i : Nat} (hr' : r.finish i = some r') : r'.Of Q := by
  unfold Register.finish at hr'
  split at hr'
  next p outcome hi =>
    cases hr'
    exact h.setTask i (fun q v hholds ↦ h.tasks _ (List.mem_of_getElem? hi) q v hholds)
  · cases hr'

variable [DecidableEq P]

theorem Of.effect (h : r.Of Q) {i : Nat} (hr' : r.effect i = some r') : r'.Of Q := by
  unfold Register.effect at hr'
  split at hr'
  next p v hi =>
    cases hr'
    have hq : Q p v := h.tasks _ (List.mem_of_getElem? hi) p v ⟨rfl, rfl⟩
    have hwritten : Of Q { r with tasks := r.tasks.set i (.settled p .written) } :=
      h.setTask i (fun _ _ hholds ↦ by cases hholds.2)
    refine ⟨?_, hwritten.tasks⟩
    intro q w hw
    dsimp only at hw
    by_cases hqp : q = p
    · subst hqp
      rw [Function.update_self] at hw
      cases hw
      exact hq
    · rw [Function.update_of_ne hqp] at hw
      exact h.value q w hw
  next p hi =>
    cases hr'
    apply h.setTask
    intro q w hw
    obtain ⟨hp, hfound⟩ := hw
    subst hp
    exact h.value p w (Outcome.found.inj hfound)
  · cases hr'

theorem Of.step (h : r.Of Q) {a : Action P V} (hok : writesOnly Q r a)
    (hr' : r.step a = some r') : r'.Of Q := by
  cases a with
  | write p v =>
    cases hr'
    apply h.addTask
    intro q w hw
    obtain ⟨hp, hv⟩ := hw
    subst hp hv
    exact hok
  | read p =>
    cases hr'
    exact h.addTask (fun _ _ hfalse ↦ hfalse.elim)
  | effect i => exact h.effect hr'
  | fail i => exact h.fail hr'
  | finish i => exact h.finish hr'
  | crash =>
    cases hr'
    exact ⟨h.value, fun _ hmem ↦ absurd hmem List.not_mem_nil⟩

-- Whatever is read was there at the start or was written.
theorem of_reach {init : Register P V → Prop} (hinit : ∀ r, init r → r.Of Q)
    (h : Reach step (writesOnly Q) init r) : r.Of Q :=
  h.invariant hinit (fun _ _ _ hr hok hr' ↦ hr.step hok hr')

/-! ## What the steps of a call show -/

variable {i : Nat} {p : P} {v : V}

theorem shows_effect (hi : r.tasks[i]? = some (.writing p v)) :
    Shows step label (writesOnly Q) r []
      { value := Function.update r.value p (some v), tasks := r.tasks.set i (.settled p .written) } := by
  have hok : writesOnly Q r (.effect i) := trivial
  apply Shows.one hok
  simp [step, effect, hi]

theorem shows_found (hi : r.tasks[i]? = some (.reading p)) :
    Shows step label (writesOnly Q) r []
      { r with tasks := r.tasks.set i (.settled p (.found (r.value p))) } := by
  have hok : writesOnly Q r (.effect i) := trivial
  apply Shows.one hok
  simp [step, effect, hi]

theorem shows_fail (hi : r.tasks[i]? = some (.writing p v) ∨ r.tasks[i]? = some (.reading p) ∨
      ∃ value, r.tasks[i]? = some (.settled p (.found value))) :
    Shows step label (writesOnly Q) r [] { r with tasks := r.tasks.set i (.settled p .failed) } := by
  have hok : writesOnly Q r (.fail i) := trivial
  apply Shows.one hok
  rcases hi with hi | hi | ⟨value, hi⟩
  · simp [step, fail, hi]
  · simp [step, fail, hi]
  · simp [step, fail, hi]

theorem shows_return {outcome : Outcome V} (hi : r.tasks[i]? = some (.settled p outcome)) :
    Shows step label (writesOnly Q) r [.returned i outcome]
      { r with tasks := r.tasks.set i (.returned p outcome) } := by
  have hok : writesOnly Q r (.finish i) := trivial
  have hlabel : r.label (.finish i) { r with tasks := r.tasks.set i (.returned p outcome) } =
      some (.returned i outcome) := by
    simp [label, hi]
  rw [← Option.toList_some, ← hlabel]
  apply Shows.one hok
  simp [step, finish, hi]

end Register

end Lib

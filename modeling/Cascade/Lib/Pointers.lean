import Cascade.Lib.HashMap

/-!
# A map that is replaced as a whole

A map is read, changed in a copy and stored again, by several writers at a time.  Readers do not use
the pointer to it but a second one, which every writer refreshes from the first after its store.
`MapWriter` says where a writer is after it has made its copy.  Nothing is lost as long as no pointer
is overwritten with a map that lacks a key of the one it replaces.
-/

namespace Lib

variable {K V : Type}

structure Pointers (K V : Type) where
  stored : HashMap K V
  cached : HashMap K V

inductive MapWriter (K V : Type)
  | building (copy : HashMap K V)
  | loading
  | updating (copy : HashMap K V)
  | finished
  | failed

namespace Pointers

/-- The next step of a writer that does not change its copy any more. -/
def next (p : Pointers K V) : MapWriter K V → Option (Pointers K V × MapWriter K V)
  | .building copy => some ({ p with stored := copy }, .loading)
  | .loading => some (p, .updating p.stored)
  | .updating copy => some ({ p with cached := copy }, .finished)
  | .finished | .failed => none

/-- Every key is still there. -/
structure Below (p p' : Pointers K V) : Prop where
  stored : ∀ k, k ∈ p.stored → k ∈ p'.stored
  cached : ∀ k, k ∈ p.cached → k ∈ p'.cached

theorem Below.refl (p : Pointers K V) : p.Below p := ⟨fun _ h ↦ h, fun _ h ↦ h⟩

/-- Both pointers have the key. -/
def Has (p : Pointers K V) (k : K) : Prop := k ∈ p.stored ∧ k ∈ p.cached

theorem Has.mono {p p' : Pointers K V} {k : K} (h : p.Has k) (hbelow : p.Below p') : p'.Has k :=
  ⟨hbelow.stored k h.1, hbelow.cached k h.2⟩

variable [DecidableEq K]

/-- The copy that the writer is about to write has every key of what it replaces. -/
def keepsKeys (p : Pointers K V) : MapWriter K V → Bool
  | .building copy => p.stored.keys.all (fun k ↦ decide (k ∈ copy))
  | .updating copy => p.cached.keys.all (fun k ↦ decide (k ∈ copy))
  | _ => true

theorem below_next {p p' : Pointers K V} {w w' : MapWriter K V} (h : p.next w = some (p', w'))
    (hkeeps : p.keepsKeys w = true) : p.Below p' := by
  have hall : ∀ {m copy : HashMap K V}, m.keys.all (fun k ↦ decide (k ∈ copy)) = true →
      ∀ k, k ∈ m → k ∈ copy :=
    fun hall k hk ↦ of_decide_eq_true (List.all_eq_true.mp hall k hk)
  cases w with
  | building copy =>
    cases h
    exact ⟨hall hkeeps, fun _ hk ↦ hk⟩
  | updating copy =>
    cases h
    exact ⟨fun _ hk ↦ hk, hall hkeeps⟩
  | loading =>
    cases h
    exact Below.refl p
  | finished | failed => cases h

end Pointers

/-- A key that the writer has put into its copy is where the writer has come to. -/
def MapWriter.Has (p : Pointers K V) (k : K) : MapWriter K V → Prop
  | .building copy => k ∈ copy
  | .loading => k ∈ p.stored
  | .updating copy => k ∈ p.stored ∧ k ∈ copy
  | .finished => p.Has k
  | .failed => True

theorem MapWriter.Has.mono {p p' : Pointers K V} {w : MapWriter K V} {k : K} (h : w.Has p k)
    (hbelow : p.Below p') : w.Has p' k := by
  cases w with
  | building copy => exact h
  | loading => exact hbelow.stored k h
  | updating copy => exact ⟨hbelow.stored k h.1, h.2⟩
  | finished => exact Pointers.Has.mono h hbelow
  | failed => trivial

theorem MapWriter.Has.next {p p' : Pointers K V} {w w' : MapWriter K V} {k : K} (h : w.Has p k)
    (hnext : p.next w = some (p', w')) : w'.Has p' k := by
  cases w with
  | building copy =>
    cases hnext
    exact h
  | loading =>
    cases hnext
    exact ⟨h, h⟩
  | updating copy =>
    cases hnext
    exact h
  | finished | failed => cases hnext

end Lib

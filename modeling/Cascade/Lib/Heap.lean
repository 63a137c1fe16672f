import Mathlib.Data.List.Basic
import Mathlib.Logic.Function.Basic

/-!
# Objects that are shared by reference

For every key the objects that were created for it, in the order of their creation.  A handle is
the place of an object in that order, so a handle once handed out stays valid.
-/

namespace Lib

abbrev Handle := Nat

structure Heap (K Z : Type) where
  objects : K → List Z

namespace Heap

variable {K Z : Type}

def empty : Heap K Z := ⟨fun _ ↦ []⟩

def get (m : Heap K Z) (k : K) (h : Handle) : Option Z := (m.objects k)[h]?

/-- The handle of the next object for `k`. -/
def next (m : Heap K Z) (k : K) : Handle := (m.objects k).length

theorem lt_next_iff {m : Heap K Z} {k : K} {h : Handle} :
    h < m.next k ↔ ∃ z, m.get k h = some z := by
  unfold get next
  rw [← Option.isSome_iff_exists]
  simp

variable [DecidableEq K]

def alloc (m : Heap K Z) (k : K) (z : Z) : Heap K Z :=
  ⟨Function.update m.objects k (m.objects k ++ [z])⟩

def set (m : Heap K Z) (k : K) (h : Handle) (z : Z) : Heap K Z :=
  ⟨Function.update m.objects k ((m.objects k).set h z)⟩

theorem next_alloc (m : Heap K Z) (k k' : K) (z : Z) :
    (m.alloc k z).next k' = if k' = k then m.next k' + 1 else m.next k' := by
  unfold next alloc
  by_cases hk : k' = k
  · subst hk
    simp
  · simp [hk]

@[simp] theorem next_set (m : Heap K Z) (k k' : K) (h : Handle) (z : Z) :
    (m.set k h z).next k' = m.next k' := by
  unfold next set
  by_cases hk : k' = k
  · subst hk
    simp
  · simp [hk]

theorem get_alloc (m : Heap K Z) (k k' : K) (h : Handle) (z : Z) :
    (m.alloc k z).get k' h = if k' = k ∧ h = m.next k then some z else m.get k' h := by
  unfold get next alloc
  by_cases hk : k' = k
  · subst hk
    by_cases hh : h = (m.objects k').length
    · subst hh
      simp
    · simp only [Function.update_self, List.getElem?_append, hh, and_false, if_false]
      by_cases hlt : h < (m.objects k').length
      · rw [if_pos hlt]
      · have hle : (m.objects k').length ≤ h := Nat.le_of_not_lt hlt
        have hpos : 1 ≤ h - (m.objects k').length :=
          Nat.sub_pos_of_lt (Nat.lt_of_le_of_ne hle (Ne.symm hh))
        rw [if_neg hlt, List.getElem?_eq_none hle, List.getElem?_eq_none hpos]
  · simp [hk]

-- A new object leaves the old ones as they are.
theorem get_alloc_of_some {m : Heap K Z} {k k' : K} {h : Handle} {z z' : Z}
    (hget : m.get k' h = some z') : (m.alloc k z).get k' h = some z' := by
  rw [get_alloc, if_neg, hget]
  intro heq
  have hlt : h < m.next k' := lt_next_iff.mpr ⟨z', hget⟩
  rw [heq.1, heq.2] at hlt
  exact Nat.lt_irrefl _ hlt

theorem get_set (m : Heap K Z) (k k' : K) (h h' : Handle) (z : Z) :
    (m.set k h z).get k' h' =
      if k' = k ∧ h' = h then (m.get k h).map (fun _ ↦ z) else m.get k' h' := by
  unfold get set
  by_cases hk : k' = k
  · subst hk
    by_cases hh : h' = h
    · subst hh
      by_cases hlt : h' < (m.objects k').length
      · simp [hlt]
      · simp [hlt]
    · have hne : h ≠ h' := fun heq ↦ hh heq.symm
      simp [hh, hne]
  · simp [hk]

-- No operation takes an object away.
theorem isSome_get_alloc {m : Heap K Z} {k k' : K} {h : Handle} {z : Z}
    (hget : (m.get k' h).isSome = true) : ((m.alloc k z).get k' h).isSome = true := by
  obtain ⟨z', hz'⟩ := Option.isSome_iff_exists.mp hget
  rw [get_alloc_of_some hz']
  rfl

theorem isSome_get_set {m : Heap K Z} {k k' : K} {h h' : Handle} {z : Z}
    (hget : (m.get k' h').isSome = true) : ((m.set k h z).get k' h').isSome = true := by
  rw [get_set]
  by_cases hsame : k' = k ∧ h' = h
  · rw [if_pos hsame, Option.isSome_map, ← hsame.1, ← hsame.2]
    exact hget
  · rw [if_neg hsame]
    exact hget

end Heap

end Lib

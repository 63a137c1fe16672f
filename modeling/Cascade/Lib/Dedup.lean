import Mathlib.Data.List.Destutter
import Mathlib.Data.List.Perm.Basic
import Mathlib.Data.List.Count

/-!
# Removing repeated neighbours

`Vec::dedup` keeps the first of neighbours that compare as equal.  The comparison may be coarser
than `=`: what it cannot tell apart is then dropped as well.
-/

namespace Lib

variable {α : Type}

/-- `Vec::dedup` -/
def dedup (eq : α → α → Bool) (l : List α) : List α :=
  l.destutter (fun a b ↦ eq b a = false)

-- Every element is kept or stands for one that is.
theorem exists_mem_destutter' (eq : α → α → Bool) (l : List α) (a : α) :
    ∀ x ∈ a :: l, ∃ y ∈ l.destutter' (fun a b ↦ eq b a = false) a, y = x ∨ eq x y = true := by
  induction l generalizing a with
  | nil =>
    intro x hx
    exact ⟨x, hx, Or.inl rfl⟩
  | cons b l ih =>
    intro x hx
    rw [List.destutter'_cons]
    by_cases hab : eq b a = false
    · rw [if_pos hab]
      cases List.mem_cons.mp hx with
      | inl hxa => exact ⟨a, List.mem_cons_self, Or.inl hxa.symm⟩
      | inr hx =>
        have ⟨y, hy, hxy⟩ := ih b x hx
        exact ⟨y, List.mem_cons_of_mem a hy, hxy⟩
    · rw [if_neg hab]
      cases List.mem_cons.mp hx with
      | inl hxa => exact ⟨a, List.mem_destutter' _ _ _, Or.inl hxa.symm⟩
      | inr hx =>
        cases List.mem_cons.mp hx with
        | inl hxb =>
          -- `b` is dropped for `a`
          refine ⟨a, List.mem_destutter' _ _ _, Or.inr ?_⟩
          rw [hxb]
          exact Bool.of_not_eq_false hab
        | inr hx => exact ih a x (List.mem_cons_of_mem a hx)

theorem exists_mem_dedup (eq : α → α → Bool) {l : List α} {x : α} (hx : x ∈ l) :
    ∃ y ∈ dedup eq l, y = x ∨ eq x y = true := by
  cases l with
  | nil => cases hx
  | cons a l => exact exists_mem_destutter' eq l a x hx

theorem mem_of_mem_dedup {eq : α → α → Bool} {l : List α} {x : α} (hx : x ∈ dedup eq l) :
    x ∈ l := (List.destutter_sublist _ l).mem hx

-- By induction on the list, `a` being the last element kept: one that is dropped for `a` has not
-- the property, for it would be `a` again.
theorem filter_destutter' {eq : α → α → Bool} {p : α → Bool} (l : List α) (a : α)
    (heq : ∀ x ∈ a :: l, ∀ y ∈ a :: l, p y = true → eq y x = true → x = y)
    (hnodup : ((a :: l).filter p).Nodup) :
    (l.destutter' (fun a b ↦ eq b a = false) a).filter p = (a :: l).filter p := by
  induction l generalizing a with
  | nil => rfl
  | cons b l ih =>
    have htail : ((b :: l).filter p).Nodup :=
      hnodup.sublist ((List.sublist_cons_self a (b :: l)).filter p)
    rw [List.destutter'_cons]
    by_cases hab : eq b a = false
    · have hrest := ih b (fun x hx y hy ↦
        heq x (List.mem_cons_of_mem a hx) y (List.mem_cons_of_mem a hy)) htail
      rw [if_pos hab]
      cases hpa : p a with
      | true => rw [List.filter_cons_of_pos hpa, List.filter_cons_of_pos hpa, hrest]
      | false =>
        have hpa : ¬p a = true := Bool.eq_false_iff.mp hpa
        rw [List.filter_cons_of_neg hpa, List.filter_cons_of_neg hpa, hrest]
    · rw [if_neg hab]
      have hsub : (a :: l).Sublist (a :: b :: l) := (List.sublist_cons_self b l).cons_cons a
      rw [ih a (fun x hx y hy ↦ heq x (hsub.mem hx) y (hsub.mem hy))
        (hnodup.sublist (hsub.filter p))]
      have hb : ¬p b = true := by
        intro hpb
        have hsame : a = b := heq a List.mem_cons_self b
          (List.mem_cons_of_mem a List.mem_cons_self) hpb (Bool.of_not_eq_false hab)
        subst hsame
        rw [List.filter_cons_of_pos hpb, List.filter_cons_of_pos hpb] at hnodup
        exact (List.nodup_cons.mp hnodup).1 List.mem_cons_self
      have hrest : (b :: l).filter p = l.filter p := List.filter_cons_of_neg hb
      cases hpa : p a with
      | true => rw [List.filter_cons_of_pos hpa, List.filter_cons_of_pos hpa, hrest]
      | false =>
        have hpa : ¬p a = true := Bool.eq_false_iff.mp hpa
        rw [List.filter_cons_of_neg hpa, List.filter_cons_of_neg hpa, hrest]

-- Elements that compare as equal only to themselves, and occur once, are all kept.
theorem filter_dedup {eq : α → α → Bool} {p : α → Bool} {l : List α}
    (heq : ∀ x ∈ l, ∀ y ∈ l, p y = true → eq y x = true → x = y) (hnodup : (l.filter p).Nodup) :
    (dedup eq l).filter p = l.filter p := by
  cases l with
  | nil => rfl
  | cons a l => exact filter_destutter' l a heq hnodup

-- In a sorted list, as many are kept as there are different elements.
theorem length_dedup_of_sorted {β : Type} [DecidableEq β] {eq : α → α → Bool} {f : α → β}
    {r : β → β → Prop} [Std.Antisymm r] {l : List α}
    (heq : ∀ x ∈ l, ∀ y ∈ l, eq x y = true ↔ f x = f y) (hsorted : (l.map f).Pairwise r) :
    (dedup eq l).length = (l.map f).dedup.length := by
  have hmap : (dedup eq l).map f = (l.map f).destutter (· ≠ ·) := by
    apply List.map_destutter
    intro a ha b hb
    rw [← Bool.not_eq_true, heq b hb a ha]
    exact ne_comm
  rw [← List.length_map, hmap, hsorted.destutter_eq_dedup]

end Lib

import Mathlib.Data.List.Nodup

/-!
# Sets whose elements are compared by a key

A hash set of elements that are equal when their keys are: it holds at most one element for each
key.  `replace` puts an element in the place of the one with its key, or adds it.
-/

namespace Lib

structure KeySet {α K : Type} (key : α → K) where
  elems : List α
  nodup : (elems.map key).Nodup

namespace KeySet

variable {α K : Type} {key : α → K}

def empty : KeySet key := ⟨[], List.nodup_nil⟩

def singleton (a : α) : KeySet key := ⟨[a], List.nodup_singleton (key a)⟩

def retain (p : α → Bool) (s : KeySet key) : KeySet key :=
  ⟨s.elems.filter p, s.nodup.sublist (List.filter_sublist.map key)⟩

variable [DecidableEq K]

def find (s : KeySet key) (k : K) : Option α := s.elems.find? (fun a ↦ decide (key a = k))

/-- The element `a` in the place of every element with its key. -/
def replaceAt (key : α → K) (a : α) (x : α) : α := if key x = key a then a else x

theorem key_replaceAt (key : α → K) (a x : α) : key (replaceAt key a x) = key x := by
  unfold replaceAt
  by_cases h : key x = key a
  · rw [if_pos h, h]
  · rw [if_neg h]

def replace (s : KeySet key) (a : α) : KeySet key :=
  if h : key a ∈ s.elems.map key then
    ⟨s.elems.map (replaceAt key a), by
      have hkeys : key ∘ replaceAt key a = key := funext (key_replaceAt key a)
      rw [List.map_map, hkeys]
      exact s.nodup⟩
  else ⟨a :: s.elems, List.nodup_cons.mpr ⟨h, s.nodup⟩⟩

theorem find_eq_some_iff {s : KeySet key} {k : K} {a : α} :
    s.find k = some a ↔ a ∈ s.elems ∧ key a = k := by
  refine ⟨?_, ?_⟩
  · intro h
    have hkey := List.find?_some h
    exact ⟨List.mem_of_find?_eq_some h, of_decide_eq_true hkey⟩
  · intro h
    rcases h with ⟨hmem, hkey⟩
    cases hf : s.find k with
    | none =>
      have hnone := List.find?_eq_none.mp hf a hmem
      exact absurd (decide_eq_true hkey) hnone
    | some b =>
      have hb := List.find?_some hf
      have hbmem := List.mem_of_find?_eq_some hf
      have heq : key a = key b := by
        rw [hkey]
        exact (of_decide_eq_true hb).symm
      rw [List.inj_on_of_nodup_map s.nodup hmem hbmem heq]

theorem find_singleton (a : α) (k : K) :
    (singleton a : KeySet key).find k = if k = key a then some a else none := by
  apply Option.ext
  intro b
  rw [find_eq_some_iff]
  simp only [singleton, List.mem_singleton]
  by_cases hk : k = key a
  · subst hk
    simp only [if_true, Option.some.injEq]
    exact ⟨fun h ↦ h.1.symm, fun h ↦ ⟨h.symm, congrArg key h.symm⟩⟩
  · rw [if_neg hk]
    refine ⟨?_, fun h ↦ nomatch h⟩
    intro h
    rw [h.1] at h
    exact absurd h.2.symm hk

theorem find_replace (s : KeySet key) (a : α) (k : K) :
    (s.replace a).find k = if k = key a then some a else s.find k := by
  apply Option.ext
  intro b
  unfold replace
  by_cases hmem : key a ∈ s.elems.map key
  · rw [dif_pos hmem, find_eq_some_iff]
    simp only [List.mem_map]
    rcases List.mem_map.mp hmem with ⟨x, hx, hxa⟩
    by_cases hk : k = key a
    · subst hk
      rw [if_pos rfl]
      refine ⟨?_, ?_⟩
      · intro h
        rcases h with ⟨⟨y, hy, hyb⟩, hkey⟩
        subst hyb
        rw [key_replaceAt key a y] at hkey
        simp [replaceAt, hkey]
      · intro h
        cases h
        exact ⟨⟨x, hx, if_pos hxa⟩, rfl⟩
    · rw [if_neg hk, find_eq_some_iff]
      refine ⟨?_, ?_⟩
      · intro h
        rcases h with ⟨⟨y, hy, hyb⟩, hkey⟩
        subst hyb
        rw [key_replaceAt key a y] at hkey
        have hne : key y ≠ key a := fun h ↦ hk (hkey ▸ h)
        rw [replaceAt, if_neg hne]
        exact ⟨hy, hkey⟩
      · intro h
        rcases h with ⟨hb, hkey⟩
        exact ⟨⟨b, hb, if_neg (fun h ↦ hk (hkey ▸ h))⟩, hkey⟩
  · rw [dif_neg hmem, find_eq_some_iff]
    by_cases hk : k = key a
    · subst hk
      rw [if_pos rfl, List.mem_cons]
      refine ⟨?_, ?_⟩
      · intro h
        rcases h with ⟨hb | hb, hkey⟩
        · rw [hb]
        · exact absurd (List.mem_map.mpr ⟨b, hb, hkey⟩) hmem
      · intro h
        cases h
        exact ⟨Or.inl rfl, rfl⟩
    · rw [if_neg hk, find_eq_some_iff, List.mem_cons]
      refine ⟨?_, fun h ↦ ⟨Or.inr h.1, h.2⟩⟩
      intro h
      rcases h with ⟨hb | hb, hkey⟩
      · subst hb
        exact absurd hkey.symm hk
      · exact ⟨hb, hkey⟩

-- Dropping the elements with one key.
theorem find_retain_ne (s : KeySet key) (k k' : K) :
    (s.retain (fun a ↦ decide (key a ≠ k))).find k' = if k' = k then none else s.find k' := by
  apply Option.ext
  intro b
  rw [find_eq_some_iff]
  simp only [retain, List.mem_filter, decide_eq_true_eq]
  by_cases hk : k' = k
  · subst hk
    rw [if_pos rfl]
    exact ⟨fun h ↦ absurd h.2 h.1.2, fun h ↦ nomatch h⟩
  · rw [if_neg hk, find_eq_some_iff]
    refine ⟨fun h ↦ ⟨h.1.1, h.2⟩, ?_⟩
    intro h
    exact ⟨⟨h.1, fun hb ↦ hk (h.2 ▸ hb)⟩, h.2⟩

end KeySet

end Lib

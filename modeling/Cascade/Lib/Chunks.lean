import Mathlib.Data.List.SplitBy
import Mathlib.Data.List.Flatten

/-!
# Splitting a list

A list is split into `p` chunks of `c` elements, the last of which takes all that is left, and into
groups of neighbours with the same key.
-/

namespace Lib

variable {α β : Type}

/-- Chunk number `i` of `p`. -/
def chunk (p c i : Nat) (l : List α) : List α :=
  if i + 1 = p then l.drop (i * c) else (l.drop (i * c)).take c

theorem take_mul_eq_flatMap (l : List α) (c k : Nat) :
    l.take (k * c) = (List.range k).flatMap (fun i ↦ (l.drop (i * c)).take c) := by
  induction k with
  | zero => simp
  | succ k ih =>
    rw [Nat.succ_mul, List.take_add, ih, List.range_succ, List.flatMap_append,
      List.flatMap_singleton]

-- The chunks in order make up the list.
theorem flatMap_chunk (l : List α) (c : Nat) {p : Nat} (hp : 0 < p) :
    (List.range p).flatMap (fun i ↦ chunk p c i l) = l := by
  cases p with
  | zero => omega
  | succ k =>
    have hfront : ∀ i ∈ List.range k, chunk (k + 1) c i l = (l.drop (i * c)).take c := by
      intro i hi
      have hlt := List.mem_range.mp hi
      rw [chunk, if_neg (by omega)]
    rw [List.range_succ, List.flatMap_append, List.flatMap_singleton, List.flatMap_congr hfront,
      ← take_mul_eq_flatMap, chunk, if_pos rfl, List.take_append_drop]

/-! ## Groups -/

variable [DecidableEq β]

/-- Runs of neighbours with the same key. -/
def groupsBy (key : α → β) (l : List α) : List (List α) :=
  l.splitBy (fun a b ↦ decide (key a = key b))

@[simp] theorem flatten_groupsBy (key : α → β) (l : List α) : (groupsBy key l).flatten = l :=
  List.flatten_splitBy _ l

theorem ne_nil_of_mem_groupsBy {key : α → β} {l g : List α} (hg : g ∈ groupsBy key l) :
    g ≠ [] := List.ne_nil_of_mem_splitBy hg

-- A group of a group is the group itself.
theorem groupsBy_of_mem {key : α → β} {l g : List α} (hg : g ∈ groupsBy key l) :
    groupsBy key g = [g] :=
  List.splitBy_of_isChain (ne_nil_of_mem_groupsBy hg) (List.isChain_of_mem_splitBy hg)

theorem key_eq_of_mem_groupsBy {key : α → β} {l g : List α} (hg : g ∈ groupsBy key l) {a b : α}
    (ha : a ∈ g) (hb : b ∈ g) : key a = key b := by
  have hchain : g.IsChain (fun x y ↦ key x = key y) := by
    refine (List.isChain_of_mem_splitBy hg).imp ?_
    intro x y hxy
    exact of_decide_eq_true hxy
  have htrans : IsTrans α (fun x y ↦ key x = key y) := ⟨fun _ _ _ h1 h2 ↦ h1.trans h2⟩
  have hsymm : Std.Symm (fun x y ↦ key x = key y) := ⟨fun _ _ h ↦ h.symm⟩
  have hpair : g.Pairwise (fun x y ↦ key x = key y) := List.isChain_iff_pairwise.mp hchain
  exact List.Pairwise.forall_of_forall (R := fun x y ↦ key x = key y) (fun _ _ ↦ rfl) hpair ha hb

omit [DecidableEq β] in
-- In a list sorted by key, by induction on its groups: the key of the first group is not that of the
-- second one, and so none of a later one, since all keys from the second group on are above.
theorem nodup_keys_of_chain {r : β → β → Prop} (hanti : ∀ a b, r a b → r b a → a = b)
    {key : α → β} {gs : List (List α)}
    (hchain : gs.IsChain fun g h ↦ ∃ hg hh, key (g.getLast hg) ≠ key (h.head hh))
    (hkeys : ∀ g ∈ gs, ∀ a ∈ g, ∀ b ∈ g, key a = key b)
    (hsorted : gs.flatten.Pairwise fun a b ↦ r (key a) (key b)) (hne : ∀ g ∈ gs, g ≠ []) :
    (gs.map fun g ↦ g.head?.map key).Nodup := by
  induction gs with
  | nil => exact List.nodup_nil
  | cons g gs ih =>
    have hsorted' := List.pairwise_append.mp (by simpa using hsorted)
    have hrest := ih hchain.tail (fun g hg ↦ hkeys g (List.mem_cons_of_mem _ hg)) hsorted'.2.1
      (fun g hg ↦ hne g (List.mem_cons_of_mem _ hg))
    rw [List.map_cons, List.nodup_cons]
    apply And.intro _ hrest
    intro hmem
    obtain ⟨h, hh, hsame⟩ := List.mem_map.mp hmem
    cases gs with
    | nil => cases hh
    | cons g1 gs =>
      obtain ⟨hg, hg1, hdiff⟩ := (List.isChain_cons_cons.mp hchain).1
      obtain ⟨a, as, ha⟩ := List.exists_cons_of_ne_nil (hne g List.mem_cons_self)
      obtain ⟨b, bs, hb⟩ :=
        List.exists_cons_of_ne_nil (hne h (List.mem_cons_of_mem _ hh))
      have hab : key b = key a := by
        rw [ha, hb] at hsame
        exact Option.some.inj hsame
      have hlast : key (g.getLast hg) = key a :=
        hkeys g List.mem_cons_self _ (List.getLast_mem hg) _ (by rw [ha]; exact List.mem_cons_self)
      have hbmem : b ∈ h := by
        rw [hb]
        exact List.mem_cons_self
      apply hdiff
      rw [hlast, ← hab]
      cases List.mem_cons.mp hh with
      | inl hfirst =>
        rw [hfirst] at hbmem
        exact hkeys g1 (List.mem_cons_of_mem _ List.mem_cons_self) b hbmem _ (List.head_mem hg1)
      | inr hlater =>
        have habove : r (key (g.getLast hg)) (key (g1.head hg1)) :=
          hsorted'.2.2 _ (List.getLast_mem hg) _
            (List.mem_flatten_of_mem List.mem_cons_self (List.head_mem hg1))
        have hpair := List.pairwise_append.mp (by simpa using hsorted'.2.1)
        have hbelow : r (key (g1.head hg1)) (key b) :=
          hpair.2.2 _ (List.head_mem hg1) b (List.mem_flatten_of_mem hlater hbmem)
        rw [hlast, ← hab] at habove
        exact hanti _ _ habove hbelow

-- A list sorted by key has no two groups with the same key.
theorem nodup_keys_groupsBy {r : β → β → Prop} (hanti : ∀ a b, r a b → r b a → a = b)
    {key : α → β} {l : List α} (hsorted : l.Pairwise fun a b ↦ r (key a) (key b)) :
    ((groupsBy key l).map fun g ↦ g.head?.map key).Nodup := by
  apply nodup_keys_of_chain hanti
  · refine (List.isChain_getLast_head_splitBy _ l).imp ?_
    intro g h hdiff
    obtain ⟨hg, hh, hne⟩ := hdiff
    exact ⟨hg, hh, of_decide_eq_false hne⟩
  · intro g hg a ha b hb
    exact key_eq_of_mem_groupsBy hg ha hb
  · rw [flatten_groupsBy]
    exact hsorted
  · exact fun g hg ↦ ne_nil_of_mem_groupsBy hg

end Lib

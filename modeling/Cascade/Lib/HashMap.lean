import Mathlib.Data.List.AList

/-!
# Hash maps and hash sets

A hash map is the list of its entries in iteration order, with every key at most once: an
`AList` whose value type does not depend on the key.  A hash set is a hash map to `Unit`.  What
is added to Mathlib's API is the traversal of a map (`mapVal`, and loops that move or insert its
entries), with lemmas that say what a later `lookup` finds.
-/

namespace Lib

abbrev HashMap (K V : Type) := AList (fun _ : K ↦ V)

abbrev HashSet (K : Type) := HashMap K Unit

namespace HashMap

variable {K V W : Type}

def mapVal (f : K → V → W) (m : HashMap K V) : HashMap K W :=
  ⟨m.entries.map (fun e ↦ ⟨e.1, f e.1 e.2⟩), by
    have hkeys : (m.entries.map (fun e ↦ (⟨e.1, f e.1 e.2⟩ : Sigma fun _ : K ↦ W))).keys =
        m.entries.keys := by
      simp [List.keys, Function.comp_def]
    have hn := m.nodupKeys
    rw [List.NodupKeys] at hn ⊢
    rw [hkeys]
    exact hn⟩

def isEmpty (m : HashMap K V) : Bool := m.entries.isEmpty

variable [DecidableEq K]

theorem lookup_eq_some_iff {m : HashMap K V} {k : K} {v : V} :
    m.lookup k = some v ↔ ⟨k, v⟩ ∈ m.entries := by
  rw [← AList.mem_lookup_iff, Option.mem_def]

@[simp] theorem lookup_mapVal (f : K → V → W) (m : HashMap K V) (k : K) :
    (mapVal f m).lookup k = (m.lookup k).map (f k) := by
  apply Option.ext
  intro w
  rw [lookup_eq_some_iff, Option.map_eq_some_iff]
  simp only [mapVal, List.mem_map, Sigma.mk.injEq, Sigma.exists]
  constructor
  · rintro ⟨k', v, hmem, rfl, heq⟩
    exact ⟨v, lookup_eq_some_iff.mpr hmem, eq_of_heq heq⟩
  · rintro ⟨v, hl, rfl⟩
    exact ⟨k, v, lookup_eq_some_iff.mp hl, rfl, HEq.rfl⟩

theorem mem_iff_lookup {m : HashMap K V} {k : K} : k ∈ m ↔ ∃ v, m.lookup k = some v := by
  rw [← AList.lookup_isSome, Option.isSome_iff_exists]

theorem isEmpty_iff {m : HashMap K V} : m.isEmpty = true ↔ ∀ k, k ∉ m := by
  constructor
  · intro h k hk
    obtain ⟨v, hv⟩ := mem_iff_lookup.mp hk
    rw [lookup_eq_some_iff, List.isEmpty_iff.mp h] at hv
    exact absurd hv (List.not_mem_nil)
  · intro h
    rw [isEmpty, List.isEmpty_iff]
    cases he : m.entries with
    | nil => rfl
    | cons e es =>
      refine absurd (mem_iff_lookup.mpr ⟨e.2, ?_⟩) (h e.1)
      rw [lookup_eq_some_iff, he]
      exact List.mem_cons_self

/-! ## Loops over the entries of a map -/

/-- The state of a loop that takes entries out of `old`, puts entries into `new` and keeps a log. -/
structure Move (K V C : Type) where
  old : HashMap K V
  new : HashMap K V
  log : List C

/-- One round for the entry `e` of a third map: its key is taken out of `old`, and what `f` makes of
the entry and of the value taken is put into `new`. -/
def moveEntry {C : Type} (f : K → W → Option V → V × List C) (s : Move K V C)
    (e : Sigma fun _ : K ↦ W) : Move K V C :=
  let r := f e.1 e.2 (s.old.lookup e.1)
  { old := s.old.erase e.1, new := s.new.insert e.1 r.1, log := s.log ++ r.2 }

def moveEach {C : Type} (f : K → W → Option V → V × List C) (s : Move K V C)
    (es : List (Sigma fun _ : K ↦ W)) : Move K V C :=
  es.foldl (moveEntry f) s

section

variable {C : Type} (f : K → W → Option V → V × List C)

-- The loop takes exactly its keys out of `old`.
theorem lookup_moveEach_old (es : List (Sigma fun _ : K ↦ W)) (s : Move K V C) (k : K) :
    (moveEach f s es).old.lookup k = if k ∈ es.keys then none else s.old.lookup k := by
  induction es generalizing s with
  | nil => rfl
  | cons e es ih =>
    unfold moveEach at ih ⊢
    rw [List.foldl_cons, ih]
    by_cases hk : k = e.1
    · subst hk
      simp [moveEntry]
    · simp [moveEntry, hk]

-- The loop puts each of its keys into `new`, with what `old` had for it at the start.
theorem lookup_moveEach_new (es : List (Sigma fun _ : K ↦ W)) (hn : es.NodupKeys)
    (s : Move K V C) (k : K) :
    (moveEach f s es).new.lookup k =
      ((es.dlookup k).map (fun w ↦ (f k w (s.old.lookup k)).1)).or (s.new.lookup k) := by
  induction es generalizing s with
  | nil => rfl
  | cons e es ih =>
    rcases e with ⟨a, w⟩
    have hnot : a ∉ es.keys := (List.nodupKeys_cons.mp hn).1
    unfold moveEach at ih ⊢
    rw [List.foldl_cons, ih (List.nodupKeys_cons.mp hn).2]
    by_cases hk : k = a
    · subst hk
      simp [moveEntry, List.dlookup_eq_none.mpr hnot]
    · simp [moveEntry, hk]

-- The loop logs, for each of its entries in order, what `f` makes of it and of the value that `old`
-- had for its key at the start.
theorem log_moveEach (es : List (Sigma fun _ : K ↦ W)) (hn : es.NodupKeys) (s : Move K V C) :
    (moveEach f s es).log = s.log ++ es.flatMap (fun e ↦ (f e.1 e.2 (s.old.lookup e.1)).2) := by
  induction es generalizing s with
  | nil => exact (List.append_nil _).symm
  | cons e es ih =>
    obtain ⟨hnot, hrest⟩ := List.nodupKeys_cons.mp hn
    -- The later entries have other keys.
    have hlater : ∀ e' ∈ es, (s.old.erase e.1).lookup e'.1 = s.old.lookup e'.1 := by
      intro e' he'
      apply AList.lookup_erase_ne
      intro heq
      apply hnot
      rw [← heq]
      exact List.mem_map_of_mem he'
    have hlogs : es.flatMap (fun e' ↦ (f e'.1 e'.2 ((s.old.erase e.1).lookup e'.1)).2) =
        es.flatMap (fun e' ↦ (f e'.1 e'.2 (s.old.lookup e'.1)).2) := by
      apply List.flatMap_congr
      intro e' he'
      rw [hlater e' he']
    unfold moveEach at ih ⊢
    rw [List.foldl_cons, ih hrest, List.flatMap_cons, ← List.append_assoc]
    show (s.log ++ _) ++ es.flatMap (fun e' ↦ (f e'.1 e'.2 ((s.old.erase e.1).lookup e'.1)).2) = _
    rw [hlogs]

-- What the loop has nothing to take out of stays as it is.
theorem moveEach_old_eq (es : List (Sigma fun _ : K ↦ W)) (s : Move K V C)
    (h : ∀ k ∈ es.keys, k ∉ s.old) : (moveEach f s es).old = s.old := by
  induction es generalizing s with
  | nil => rfl
  | cons e es ih =>
    have herase : s.old.erase e.1 = s.old :=
      AList.ext (List.kerase_of_notMem_keys (h e.1 List.mem_cons_self))
    unfold moveEach at ih ⊢
    rw [List.foldl_cons, ih]
    · exact herase
    · intro k hk
      show k ∉ s.old.erase e.1
      rw [herase]
      exact h k (List.mem_cons_of_mem _ hk)

/-- Inserting the entries that `p` keeps. -/
def insertEach (p : K → V → Bool) (m : HashMap K V) (es : List (Sigma fun _ : K ↦ V)) :
    HashMap K V :=
  es.foldl (fun acc e ↦ if p e.1 e.2 then acc.insert e.1 e.2 else acc) m

theorem insertEach_cons (p : K → V → Bool) (m : HashMap K V) (e : Sigma fun _ : K ↦ V)
    (es : List (Sigma fun _ : K ↦ V)) :
    insertEach p m (e :: es) = insertEach p (if p e.1 e.2 then m.insert e.1 e.2 else m) es := rfl

theorem lookup_insertEach (p : K → V → Bool) (es : List (Sigma fun _ : K ↦ V))
    (hn : es.NodupKeys) (m : HashMap K V) (k : K) :
    (insertEach p m es).lookup k = ((es.dlookup k).filter (p k)).or (m.lookup k) := by
  induction es generalizing m with
  | nil => rfl
  | cons e es ih =>
    rcases e with ⟨a, w⟩
    have hnot : a ∉ es.keys := (List.nodupKeys_cons.mp hn).1
    rw [insertEach_cons, ih (List.nodupKeys_cons.mp hn).2]
    by_cases hk : k = a
    · subst hk
      by_cases hp : p k w = true
      · simp [hp, List.dlookup_eq_none.mpr hnot, Option.filter_some]
      · simp [hp, List.dlookup_eq_none.mpr hnot, Option.filter_some]
    · by_cases hp : p a w = true
      · simp [hp, hk]
      · simp [hp, hk]

/-! The two loops one after the other merge a map with the entries `es`. -/

section

variable (es : List (Sigma fun _ : K ↦ W)) (hn : es.NodupKeys) (old : HashMap K V) (log : List C)

include hn

-- What is left over is not in the new map.
theorem not_mem_moveEach_new {k : K} (h : k ∈ (moveEach f { old, new := ∅, log } es).old) :
    k ∉ (moveEach f { old, new := ∅, log } es).new := by
  obtain ⟨v, hv⟩ := mem_iff_lookup.mp h
  rw [lookup_moveEach_old] at hv
  by_cases hk : k ∈ es.keys
  · rw [if_pos hk] at hv
    cases hv
  · rw [← AList.lookup_eq_none, lookup_moveEach_new f es hn, List.dlookup_eq_none.mpr hk]
    rfl

theorem lookup_merged (p : K → V → Bool) (k : K) :
    (insertEach p (moveEach f { old, new := ∅, log } es).new
      (moveEach f { old, new := ∅, log } es).old.entries).lookup k =
      match es.dlookup k with
      | some w => some (f k w (old.lookup k)).1
      | none => (old.lookup k).filter (p k) := by
  rw [lookup_insertEach _ _ (AList.nodupKeys _), lookup_moveEach_new f es hn, ← AList.lookup,
    lookup_moveEach_old]
  by_cases hk : k ∈ es.keys
  · obtain ⟨w, hw⟩ := Option.isSome_iff_exists.mp (List.dlookup_isSome.mpr hk)
    rw [if_pos hk, hw]
    rfl
  · rw [if_neg hk, List.dlookup_eq_none.mpr hk]
    simp

end

end

/-! ## Maps from lists of entries -/

/-- Of several entries with one key the last one counts. -/
def ofEntries (es : List (Sigma fun _ : K ↦ V)) : HashMap K V :=
  es.foldr (fun e m ↦ if e.1 ∈ m then m else m.insert e.1 e.2) ∅

theorem entries_ofEntries {es : List (Sigma fun _ : K ↦ V)} (hn : es.NodupKeys) :
    (ofEntries es).entries = es := by
  induction es with
  | nil => rfl
  | cons e es ih =>
    obtain ⟨hnot, hrest⟩ := List.nodupKeys_cons.mp hn
    have hentries := ih hrest
    have hnew : e.1 ∉ ofEntries es := by
      intro hmem
      have hkeys : e.1 ∈ (ofEntries es).entries.keys := hmem
      rw [hentries] at hkeys
      exact hnot hkeys
    show (if e.1 ∈ ofEntries es then ofEntries es else (ofEntries es).insert e.1 e.2).entries = _
    rw [if_neg hnew, AList.entries_insert_of_notMem hnew, hentries]

@[simp] theorem ofEntries_entries (m : HashMap K V) : ofEntries m.entries = m :=
  AList.ext (entries_ofEntries m.nodupKeys)

def ofKeys (ks : List K) : HashSet K := ofEntries (ks.map (fun k ↦ ⟨k, ()⟩))

@[simp] theorem ofKeys_keys (m : HashSet K) : ofKeys m.keys = m := by
  have hentries : m.keys.map (fun k ↦ (⟨k, ()⟩ : Sigma fun _ : K ↦ Unit)) = m.entries := by
    show (m.entries.map Sigma.fst).map _ = _
    rw [List.map_map]
    exact List.map_id' m.entries
  rw [ofKeys, hentries, ofEntries_entries]

end HashMap

end Lib

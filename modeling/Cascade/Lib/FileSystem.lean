import Cascade.Lib.HashMap

/-!
# A file system

Entries lead from paths to files, and the contents of the files are kept apart from them: an entry
can come to lead to another file while the file it led to is still open, which is then read as it
was.  Directories are not kept.
-/

namespace Lib

structure FileSystem (P : Type) where
  entries : HashMap P Nat
  files : List (List UInt8)
  bounded : ∀ e ∈ entries.entries, e.2 < files.length

namespace FileSystem

variable {P : Type}

/-- Bytes are added at the end of an open file. -/
def append (fs : FileSystem P) (f : Nat) (bytes : List UInt8) : FileSystem P where
  entries := fs.entries
  files := fs.files.modify f (fun content ↦ content ++ bytes)
  bounded := by
    intro e he
    rw [List.length_modify]
    exact fs.bounded e he

/-- At most `n` bytes of an open file, from `offset` on. -/
def readAt (fs : FileSystem P) (f offset n : Nat) : List UInt8 :=
  ((fs.files[f]?.getD []).drop offset).take n

/-! ## Open files -/

section

variable {fs : FileSystem P} {f g : Nat}

theorem files_append (bytes : List UInt8) : (fs.append f bytes).files[g]? =
    if f = g then fs.files[g]?.map (fun content ↦ content ++ bytes) else fs.files[g]? := by
  show (fs.files.modify f (fun content ↦ content ++ bytes))[g]? = _
  rw [List.getElem?_modify]
  by_cases hfg : f = g
  · rw [if_pos hfg]
    simp [hfg]
  · rw [if_neg hfg]
    simp [hfg]

-- A read that gives nothing has come to the end.
theorem readAt_isEmpty {buf rest : List UInt8} {n : Nat} (hf : fs.files[f]? = some (buf ++ rest))
    (hn : n ≠ 0) : (fs.readAt f buf.length n).isEmpty = true ↔ rest = [] := by
  unfold readAt
  rw [hf, Option.getD_some, List.drop_left, List.isEmpty_iff, List.take_eq_nil_iff]
  exact or_iff_right hn

theorem readAt_prefix {buf rest : List UInt8} (n : Nat) (hf : fs.files[f]? = some (buf ++ rest)) :
    fs.files[f]? = some ((buf ++ fs.readAt f buf.length n) ++ rest.drop n) := by
  unfold readAt
  rw [hf, Option.getD_some, List.drop_left, List.append_assoc, List.take_append_drop]

end

/-! ## Entries -/

variable [DecidableEq P]

theorem lt_of_lookup {fs : FileSystem P} {p : P} {f : Nat} (h : fs.entries.lookup p = some f) :
    f < fs.files.length := fs.bounded ⟨p, f⟩ (HashMap.lookup_eq_some_iff.mp h)

def content (fs : FileSystem P) (p : P) : Option (List UInt8) :=
  (fs.entries.lookup p).bind (fun f ↦ fs.files[f]?)

/-- A new empty file, unless the path has an entry. -/
def createNew (fs : FileSystem P) (p : P) : Option (FileSystem P) :=
  match fs.entries.lookup p with
  | some _ => none
  | none => some {
      entries := fs.entries.insert p fs.files.length
      files := fs.files ++ [[]]
      bounded := by
        intro e he
        rw [List.length_append]
        rw [← HashMap.lookup_eq_some_iff] at he
        by_cases hp : e.1 = p
        · rw [hp, AList.lookup_insert] at he
          rw [← Option.some.inj he]
          exact Nat.lt_succ_self _
        · rw [AList.lookup_insert_ne hp] at he
          exact Nat.lt_add_right _ (lt_of_lookup he) }

/-- Moves the entry of `src` to `dst` at once, in the place of any entry there. -/
def rename (fs : FileSystem P) (src dst : P) : Option (FileSystem P) :=
  match hsrc : fs.entries.lookup src with
  | none => none
  | some f => some {
      entries := (fs.entries.erase src).insert dst f
      files := fs.files
      bounded := by
        intro e he
        rw [← HashMap.lookup_eq_some_iff] at he
        by_cases hdst : e.1 = dst
        · rw [hdst, AList.lookup_insert] at he
          rw [← Option.some.inj he]
          exact lt_of_lookup hsrc
        · rw [AList.lookup_insert_ne hdst] at he
          by_cases hs : e.1 = src
          · rw [hs, AList.lookup_erase] at he
            cases he
          · rw [AList.lookup_erase_ne hs] at he
            exact lt_of_lookup he }

def remove (fs : FileSystem P) (p : P) : FileSystem P where
  entries := fs.entries.erase p
  files := fs.files
  bounded := by
    intro e he
    rw [← HashMap.lookup_eq_some_iff] at he
    by_cases hp : e.1 = p
    · rw [hp, AList.lookup_erase] at he
      cases he
    · rw [AList.lookup_erase_ne hp] at he
      exact lt_of_lookup he

/-! ## What an operation changes -/

variable {fs fs' : FileSystem P} {p q src dst : P}

theorem createNew_spec (h : fs.createNew p = some fs') :
    fs.entries.lookup p = none ∧ fs'.files = fs.files ++ [[]] ∧ ∀ q, fs'.entries.lookup q =
      if q = p then some fs.files.length else fs.entries.lookup q := by
  unfold createNew at h
  split at h
  · cases h
  next hnone =>
    cases h
    refine ⟨hnone, rfl, ?_⟩
    intro q
    by_cases hq : q = p
    · rw [if_pos hq, hq, AList.lookup_insert]
    · rw [if_neg hq, AList.lookup_insert_ne hq]

theorem rename_spec (h : fs.rename src dst = some fs') :
    fs'.files = fs.files ∧ ∀ q, fs'.entries.lookup q =
      if q = dst then fs.entries.lookup src
      else if q = src then none else fs.entries.lookup q := by
  unfold rename at h
  split at h
  · cases h
  next f hsrc =>
    cases h
    refine ⟨rfl, ?_⟩
    intro q
    by_cases hdst : q = dst
    · rw [if_pos hdst, hdst, AList.lookup_insert, hsrc]
    · rw [if_neg hdst, AList.lookup_insert_ne hdst]
      by_cases hs : q = src
      · rw [if_pos hs, hs, AList.lookup_erase]
      · rw [if_neg hs, AList.lookup_erase_ne hs]

theorem lookup_remove : (fs.remove p).entries.lookup q =
    if q = p then none else fs.entries.lookup q := by
  show (fs.entries.erase p).lookup q = _
  by_cases hq : q = p
  · rw [if_pos hq, hq, AList.lookup_erase]
  · rw [if_neg hq, AList.lookup_erase_ne hq]

end FileSystem

end Lib

import Cascade.ZoneDiffs
import Mathlib.Data.List.Induction

/-!
# The keys of the differences

A difference is stored under a key with its two serials, but keys compare by the first of them alone.
So the key that is found later is that of the first difference added from a serial, and the
difference is the last one.
-/

namespace Cascade

namespace ZoneDiffs

variable {C : Type}

def startsAt (serial : Serial) (entry : ZoneDiffKey × InMemoryZoneDiff C) : Bool :=
  decide (entry.1.startSerial = serial)

/-- The entry for a start serial. -/
def entryAt (serial : Serial) (entries : Entries C) : Option (ZoneDiffKey × InMemoryZoneDiff C) :=
  entries.find? (startsAt serial)

theorem Serial.eq_of_val {a b : Serial} (h : a.val = b.val) : a = b := by
  cases a
  cases b
  exact congrArg Serial.mk h

section

variable {key : ZoneDiffKey} {diff : InMemoryZoneDiff C} {entries : Entries C} {serial : Serial}

-- Past its place in the order a start serial is not found.
theorem entryAt_eq_none (h : ∀ entry ∈ entries, serial.val < entry.1.startSerial.val) :
    entryAt serial entries = none := by
  apply List.find?_eq_none.mpr
  intro entry hentry hstart
  have hlt := h entry hentry
  rw [of_decide_eq_true hstart] at hlt
  exact UInt32.lt_irrefl _ hlt

theorem entryAt_cons_of_ne {entry : ZoneDiffKey × InMemoryZoneDiff C}
    (h : entry.1.startSerial ≠ serial) : entryAt serial (entry :: entries) = entryAt serial entries := by
  rw [entryAt, List.find?_cons_of_neg]
  · rfl
  · simp [startsAt, h]

theorem entryAt_cons_of_eq {entry : ZoneDiffKey × InMemoryZoneDiff C}
    (h : entry.1.startSerial = serial) : entryAt serial (entry :: entries) = some entry := by
  rw [entryAt, List.find?_cons_of_pos]
  simp [startsAt, h]

-- A new entry in front of all others.
theorem entryAt_front (h : ∀ entry ∈ entries, key.startSerial.val < entry.1.startSerial.val) :
    entryAt serial ((key, diff) :: entries) =
      if key.startSerial = serial then some (((entryAt serial entries).map Prod.fst).getD key, diff)
      else entryAt serial entries := by
  by_cases hkey : key.startSerial = serial
  · rw [hkey] at h
    rw [if_pos hkey, entryAt_eq_none h]
    exact entryAt_cons_of_eq hkey
  · rw [if_neg hkey]
    exact entryAt_cons_of_ne hkey

-- Another difference for the first entry.
theorem entryAt_replaced {first : ZoneDiffKey × InMemoryZoneDiff C}
    (h : first.1.startSerial = key.startSerial) :
    entryAt serial ((first.1, diff) :: entries) =
      if key.startSerial = serial then
        some (((entryAt serial (first :: entries)).map Prod.fst).getD key, diff)
      else entryAt serial (first :: entries) := by
  by_cases hkey : key.startSerial = serial
  · rw [if_pos hkey, entryAt_cons_of_eq (h.trans hkey)]
    exact entryAt_cons_of_eq (h.trans hkey)
  · have hne : first.1.startSerial ≠ serial := by
      rw [h]
      exact hkey
    rw [if_neg hkey, entryAt_cons_of_ne hne]
    exact entryAt_cons_of_ne hne

variable (key diff serial) in
-- The key that is there stays, and the difference is replaced.
theorem entryAt_insert
    (hsorted : entries.Pairwise (fun e f ↦ e.1.startSerial.val < f.1.startSerial.val)) :
    entryAt serial (insert key diff entries) =
      if key.startSerial = serial then some (((entryAt serial entries).map Prod.fst).getD key, diff)
      else entryAt serial entries := by
  induction entries with
  | nil =>
    apply entryAt_front
    intro entry hentry
    cases hentry
  | cons first entries ih =>
    obtain ⟨hfirst, htail⟩ := List.pairwise_cons.mp hsorted
    unfold insert
    by_cases hlt : key.startSerial.val < first.1.startSerial.val
    · rw [if_pos hlt]
      apply entryAt_front
      intro entry hentry
      cases hentry with
      | head => exact hlt
      | tail _ hentry => exact UInt32.lt_trans hlt (hfirst entry hentry)
    · rw [if_neg hlt]
      by_cases heq : key.startSerial.val = first.1.startSerial.val
      · rw [if_pos heq]
        exact entryAt_replaced (Serial.eq_of_val heq).symm
      · rw [if_neg heq]
        by_cases hserial : first.1.startSerial = serial
        · have hkey : key.startSerial ≠ serial := by
            intro hkey
            rw [hkey, hserial] at heq
            exact heq rfl
          rw [if_neg hkey, entryAt_cons_of_eq hserial, entryAt_cons_of_eq hserial]
        · rw [entryAt_cons_of_ne hserial, entryAt_cons_of_ne hserial]
          exact ih htail

-- Every entry is the one for its start serial.
theorem entryAt_of_mem
    (hsorted : entries.Pairwise (fun e f ↦ e.1.startSerial.val < f.1.startSerial.val))
    {entry : ZoneDiffKey × InMemoryZoneDiff C} (h : entry ∈ entries) :
    entryAt entry.1.startSerial entries = some entry := by
  induction entries with
  | nil => cases h
  | cons first entries ih =>
    obtain ⟨hfirst, htail⟩ := List.pairwise_cons.mp hsorted
    cases h with
    | head => exact entryAt_cons_of_eq rfl
    | tail _ h =>
      rw [entryAt_cons_of_ne]
      · exact ih htail h
      · intro heq
        have hlt := hfirst entry h
        rw [heq] at hlt
        exact UInt32.lt_irrefl _ hlt

theorem mem_of_entryAt {entry : ZoneDiffKey × InMemoryZoneDiff C}
    (h : entryAt serial entries = some entry) : entry ∈ entries := List.mem_of_find?_eq_some h

end

/-! ## A history of differences -/

/-- The store after the differences were added one after the other. -/
def addAll (added : List (InMemoryZoneDiff C)) : ZoneDiffs C := added.foldl addDiff {}

/-- The first of the differences that starts at the serial. -/
def firstFrom (serial : Serial) (added : List (InMemoryZoneDiff C)) : Option (InMemoryZoneDiff C) :=
  added.find? (fun diff ↦ decide (diff.startSerial = serial))

/-- The last of them. -/
def lastFrom (serial : Serial) (added : List (InMemoryZoneDiff C)) : Option (InMemoryZoneDiff C) :=
  added.reverse.find? (fun diff ↦ decide (diff.startSerial = serial))

section

variable {serial : Serial} {added : List (InMemoryZoneDiff C)} {diff : InMemoryZoneDiff C}

theorem firstFrom_concat :
    firstFrom serial (added ++ [diff]) =
      (firstFrom serial added).or (if diff.startSerial = serial then some diff else none) := by
  rw [firstFrom, List.find?_append, firstFrom]
  by_cases h : diff.startSerial = serial
  · simp [h]
  · simp [h]

theorem lastFrom_concat :
    lastFrom serial (added ++ [diff]) =
      if diff.startSerial = serial then some diff else lastFrom serial added := by
  rw [lastFrom, List.reverse_append, List.reverse_singleton, List.singleton_append,
    List.find?_cons, lastFrom]
  by_cases h : diff.startSerial = serial
  · simp [h]
  · simp [h]

theorem lastFrom_isSome : (lastFrom serial added).isSome ↔ (firstFrom serial added).isSome := by
  rw [lastFrom, firstFrom, List.find?_isSome, List.find?_isSome]
  simp only [List.mem_reverse]

theorem addAll_concat : addAll (added ++ [diff]) = addDiff (addAll added) diff := by
  rw [addAll, List.foldl_append]
  rfl

end

/-- What the store has for a serial: the key of the first difference from there and the last
difference. -/
theorem entryAt_addAll (serial : Serial) (added : List (InMemoryZoneDiff C)) :
    entryAt serial (addAll added).entries =
      (firstFrom serial added).bind (fun first ↦
        (lastFrom serial added).map (fun last ↦ (⟨first.startSerial, first.endSerial⟩, last))) := by
  induction added using List.reverseRecOn with
  | nil => rfl
  | append_singleton added diff ih =>
    have hentry := entryAt_insert ⟨diff.startSerial, diff.endSerial⟩ diff serial (addAll added).sorted
    rw [addAll_concat, firstFrom_concat, lastFrom_concat]
    apply Eq.trans hentry
    rw [ih]
    by_cases hstart : diff.startSerial = serial
    · rw [if_pos hstart, if_pos hstart, if_pos hstart]
      -- only the first difference from the serial brings a key
      cases hfirst : firstFrom serial added with
      | none => rfl
      | some first =>
        have hsome : (firstFrom serial added).isSome := Option.isSome_of_eq_some hfirst
        obtain ⟨last, hlast⟩ := Option.isSome_iff_exists.mp (lastFrom_isSome.mpr hsome)
        rw [hlast]
        rfl
    · rw [if_neg hstart, if_neg hstart, if_neg hstart, Option.or_none]

/-! ## Keys and contents -/

/-- Every key has the serials of its difference, and the links between the differences that are
looked for are those of the differences themselves. -/
structure KeyedByContents (diffs : ZoneDiffs C) : Prop where
  keys : ∀ entry ∈ diffs.entries,
    entry.1.startSerial = entry.2.startSerial ∧ entry.1.endSerial = entry.2.endSerial
  links : ∀ startSerial endSerial, diffsForRange diffs startSerial endSerial =
    collect endSerial startSerial
      (diffs.entries.map (fun entry ↦ (⟨entry.2.startSerial, entry.2.endSerial⟩, entry.2))) []

/-- The first and the last difference from every serial lead to the same one. -/
def SameEnds (added : List (InMemoryZoneDiff C)) : Prop :=
  ∀ serial, (firstFrom serial added).map (·.endSerial) = (lastFrom serial added).map (·.endSerial)

theorem KeyedByContents.of_keys {diffs : ZoneDiffs C}
    (h : ∀ entry ∈ diffs.entries, entry.1.endSerial = entry.2.endSerial) : diffs.KeyedByContents := by
  have hmap : diffs.entries.map (fun entry ↦
      ((⟨entry.2.startSerial, entry.2.endSerial⟩ : ZoneDiffKey), entry.2)) = diffs.entries := by
    apply Eq.trans _ (List.map_id diffs.entries)
    apply List.map_congr_left
    intro entry hentry
    rw [← diffs.keyed entry hentry, ← h entry hentry]
    rfl
  constructor
  · intro entry hentry
    exact ⟨diffs.keyed entry hentry, h entry hentry⟩
  · intro startSerial endSerial
    rw [hmap]
    rfl

section

variable {added : List (InMemoryZoneDiff C)}

-- The key and the difference of an entry, in terms of what was added.
theorem endSerials_of_mem {entry : ZoneDiffKey × InMemoryZoneDiff C}
    (h : entry ∈ (addAll added).entries) :
    (firstFrom entry.1.startSerial added).map (·.endSerial) = some entry.1.endSerial ∧
      lastFrom entry.1.startSerial added = some entry.2 := by
  have hentry := entryAt_of_mem (addAll added).sorted h
  rw [entryAt_addAll] at hentry
  cases hfirst : firstFrom entry.1.startSerial added with
  | none =>
    rw [hfirst] at hentry
    cases hentry
  | some first =>
    rw [hfirst, Option.bind_some, Option.map_eq_some_iff] at hentry
    obtain ⟨last, hlast, heq⟩ := hentry
    rw [hlast, ← heq]
    exact ⟨rfl, rfl⟩

-- Each serial that a difference starts from has an entry.
theorem exists_entry {serial : Serial} {first : InMemoryZoneDiff C}
    (h : firstFrom serial added = some first) :
    ∃ entry ∈ (addAll added).entries, entry.1.startSerial = serial := by
  have hsome : (firstFrom serial added).isSome := Option.isSome_of_eq_some h
  obtain ⟨last, hlast⟩ := Option.isSome_iff_exists.mp (lastFrom_isSome.mpr hsome)
  have hentry := entryAt_addAll serial added
  rw [h, hlast] at hentry
  apply Exists.intro (⟨first.startSerial, first.endSerial⟩, last)
  apply And.intro (mem_of_entryAt hentry)
  have hstart := List.find?_some h
  exact of_decide_eq_true hstart

/-- The store is keyed by its contents exactly where the first and the last difference that were added
from a serial lead to the same serial. -/
theorem keyedByContents_iff (added : List (InMemoryZoneDiff C)) :
    (addAll added).KeyedByContents ↔ SameEnds added := by
  constructor
  · intro h serial
    cases hfirst : firstFrom serial added with
    | none =>
      cases hlast : lastFrom serial added with
      | none => rfl
      | some last =>
        have hsome := lastFrom_isSome.mp (Option.isSome_of_eq_some hlast)
        rw [hfirst] at hsome
        cases hsome
    | some first =>
      obtain ⟨entry, hentry, hserial⟩ := exists_entry hfirst
      have hends := endSerials_of_mem hentry
      rw [hserial] at hends
      rw [← hfirst, hends.1, hends.2, (h.keys entry hentry).2]
      rfl
  · intro h
    apply KeyedByContents.of_keys
    intro entry hentry
    have hends := endSerials_of_mem hentry
    have hsame := h entry.1.startSerial
    rw [hends.1, hends.2] at hsame
    exact Option.some.inj hsame

end

open ShortRun in
/-- A serial is left for another one than before: the key keeps the old one, and what is offered does
not hang together. -/
theorem revisited_serial_miskeyed :
    ¬(addAll [diffOf 1 2, diffOf 1 3]).KeyedByContents ∧
      (addAll [diffOf 1 2, diffOf 1 3, diffOf 2 4]).diffsForRange ⟨1⟩ ⟨4⟩ =
        [diffOf 1 3, diffOf 2 4] := by
  constructor
  · intro h
    have hkeys := (h.keys (⟨⟨1⟩, ⟨2⟩⟩, diffOf 1 3) (by decide)).2
    revert hkeys
    decide
  · decide

end ZoneDiffs

end Cascade

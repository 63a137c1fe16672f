import Cascade.ZoneDiffs

/-!
# Zones whose serial goes up

When each version of a zone has a serial that is greater than the one before, and all of them lie
within half the serial space, numeric order is that of RFC 1982, and the differences follow each
other in the map.  Then a search comes to an entry that is too new, or takes a row of entries.
-/

namespace Cascade

namespace ZoneDiffs

variable {C : Type} {entries : Entries C}

/-- The serials of the range and of the entries. -/
def serials (startSerial endSerial : Serial) (entries : Entries C) : List Serial :=
  startSerial :: endSerial :: entries.flatMap (fun e ↦ [e.1.startSerial, e.1.endSerial])

/-- The entries of a zone whose serial goes up: each difference ends after it starts and not after the
next one starts, and all serials lie within half the serial space. -/
structure GoesUp (startSerial endSerial : Serial) (entries : Entries C) : Prop where
  keys : ∀ e ∈ entries, e.1 = ⟨e.2.startSerial, e.2.endSerial⟩
  up : ∀ e ∈ entries, e.1.startSerial.val < e.1.endSerial.val
  apart : entries.Pairwise (fun e f ↦ e.1.endSerial.val ≤ f.1.startSerial.val)
  near : ∀ a ∈ serials startSerial endSerial entries, ∀ b ∈ serials startSerial endSerial entries,
    a.val.toNat < b.val.toNat + 0x80000000

section

variable {startSerial endSerial serial : Serial} {e first : ZoneDiffKey × InMemoryZoneDiff C}

theorem start_mem_serials (h : e ∈ entries) :
    e.1.startSerial ∈ serials startSerial endSerial entries :=
  List.mem_cons_of_mem _ (List.mem_cons_of_mem _
    (List.mem_flatMap.mpr ⟨e, h, List.mem_cons_self⟩))

theorem end_mem_serials (h : e ∈ entries) :
    e.1.endSerial ∈ serials startSerial endSerial entries :=
  List.mem_cons_of_mem _ (List.mem_cons_of_mem _
    (List.mem_flatMap.mpr ⟨e, h, List.mem_cons_of_mem _ List.mem_cons_self⟩))

theorem endSerial_mem_serials : endSerial ∈ serials startSerial endSerial entries :=
  List.mem_cons_of_mem _ List.mem_cons_self

-- The two orders agree.
theorem GoesUp.gt_iff (h : GoesUp startSerial endSerial entries) {a b : Serial}
    (ha : a ∈ serials startSerial endSerial entries)
    (hb : b ∈ serials startSerial endSerial entries) : a.gt b = true ↔ b.val < a.val := by
  have hab := h.near a ha b hb
  have hba := h.near b hb a ha
  simp only [Serial.gt, Bool.and_eq_true, decide_eq_true_eq, UInt32.lt_iff_toNat_lt,
    UInt32.toNat_sub]
  have hlta := a.val.toNat_lt
  have hltb := b.val.toNat_lt
  have hhalf : (0x80000000 : UInt32).toNat = 2147483648 := rfl
  have hzero : (0 : UInt32).toNat = 0 := rfl
  omega

theorem GoesUp.gt_eq_false_iff (h : GoesUp startSerial endSerial entries) {a b : Serial}
    (ha : a ∈ serials startSerial endSerial entries)
    (hb : b ∈ serials startSerial endSerial entries) : a.gt b = false ↔ a.val ≤ b.val := by
  rw [← Bool.not_eq_true, h.gt_iff ha hb, UInt32.not_lt]

-- The entries after the first one, for a serial that the search may have come to.
theorem GoesUp.tail (h : GoesUp startSerial endSerial (first :: entries))
    (hserial : serial ∈ serials startSerial endSerial (first :: entries)) :
    GoesUp serial endSerial entries where
  keys := fun e he ↦ h.keys e (List.mem_cons_of_mem first he)
  up := fun e he ↦ h.up e (List.mem_cons_of_mem first he)
  apart := (List.pairwise_cons.mp h.apart).2
  near := by
    have hmem : ∀ a ∈ serials serial endSerial entries,
        a ∈ serials startSerial endSerial (first :: entries) := by
      intro a ha
      rcases List.mem_cons.mp ha with rfl | ha
      · exact hserial
      · rcases List.mem_cons.mp ha with rfl | ha
        · exact endSerial_mem_serials
        · obtain ⟨e, he, hae⟩ := List.mem_flatMap.mp ha
          exact List.mem_cons_of_mem _ (List.mem_cons_of_mem _
            (List.mem_flatMap.mpr ⟨e, List.mem_cons_of_mem first he, hae⟩))
    exact fun a ha b hb ↦ h.near a (hmem a ha) b (hmem b hb)

theorem GoesUp.lt_of_mem (h : GoesUp startSerial endSerial (first :: entries)) (he : e ∈ entries) :
    first.1.startSerial.val < e.1.startSerial.val :=
  UInt32.lt_of_lt_of_le (h.up first List.mem_cons_self) ((List.pairwise_cons.mp h.apart).1 e he)

theorem serial_ext {a b : Serial} (h : a.val = b.val) : a = b := by
  cases a
  cases b
  exact congrArg Serial.mk h

-- An entry that is too new for the search after the first entry is too new for the one before it.
theorem GoesUp.tooNew_cons (h : GoesUp serial endSerial (first :: entries))
    (hlt : first.1.startSerial.val < endSerial.val) (hle : serial.val ≤ first.1.endSerial.val)
    (hnew : TooNew first.1.endSerial endSerial entries e) :
    TooNew serial endSerial (first :: entries) e := by
  have he : e ∈ first :: entries := List.mem_cons_of_mem first hnew.mem
  have hends : first.1.endSerial.val ≤ e.1.startSerial.val :=
    (List.pairwise_cons.mp h.apart).1 e hnew.mem
  -- newer than the end of the first entry is newer than the serial before it
  have hserial : serial.gt e.1.startSerial = false ∧
      (e.1.startSerial.gt serial = true ∨ e.1.startSerial.gt endSerial = true) := by
    refine ⟨?_, ?_⟩
    · rw [h.gt_eq_false_iff List.mem_cons_self (start_mem_serials he)]
      exact UInt32.le_trans hle hends
    · refine (hnew.newer first.1.endSerial (Or.inl rfl)).2.imp_left ?_
      rw [h.gt_iff (start_mem_serials he) (end_mem_serials List.mem_cons_self),
        h.gt_iff (start_mem_serials he) List.mem_cons_self]
      exact UInt32.lt_of_le_of_lt hle
  refine ⟨he, ?_, ?_⟩
  · intro f hf hfe
    rcases List.mem_cons.mp hf with rfl | hf
    · intro heq
      rw [heq] at hlt
      exact UInt32.lt_irrefl _ hlt
    · exact hnew.notFound f hf hfe
  · intro serial' hserial'
    rcases hserial' with rfl | ⟨f, hf, hfe, rfl⟩
    · exact hserial
    · rcases List.mem_cons.mp hf with rfl | hf
      · exact hnew.newer _ (Or.inl rfl)
      · exact hnew.newer _ (Or.inr ⟨f, hf, hfe, rfl⟩)

-- An entry that is too new is so with an older entry in front, too.
theorem GoesUp.tooNew_old (h : GoesUp serial endSerial (first :: entries))
    (hlt : serial.val < endSerial.val) (hold : first.1.startSerial.val < serial.val)
    (hle : first.1.endSerial.val ≤ serial.val) (hnew : TooNew serial endSerial entries e) :
    TooNew serial endSerial (first :: entries) e := by
  have he : e ∈ first :: entries := List.mem_cons_of_mem first hnew.mem
  have hstart : e.1.startSerial ∈ serials serial endSerial (first :: entries) :=
    start_mem_serials he
  have hends : first.1.endSerial ∈ serials serial endSerial (first :: entries) :=
    end_mem_serials List.mem_cons_self
  refine ⟨he, ?_, ?_⟩
  · intro f hf hfe
    rcases List.mem_cons.mp hf with rfl | hf
    · intro heq
      rw [heq] at hold
      exact UInt32.lt_asymm hold hlt
    · exact hnew.notFound f hf hfe
  · intro serial' hserial'
    rcases hserial' with rfl | ⟨f, hf, hfe, rfl⟩
    · exact hnew.newer _ (Or.inl rfl)
    · rcases List.mem_cons.mp hf with rfl | hf
      · obtain ⟨-, hnewer⟩ := hnew.newer serial (Or.inl rfl)
        rw [h.gt_eq_false_iff hends hstart, h.gt_iff hstart hends]
        refine ⟨(List.pairwise_cons.mp h.apart).1 e hnew.mem, hnewer.imp_left ?_⟩
        rw [h.gt_iff hstart List.mem_cons_self]
        exact UInt32.lt_of_le_of_lt hle
      · exact hnew.newer _ (Or.inr ⟨f, hf, hfe, rfl⟩)

/-- The search passes over the entries in `old`, takes those in `row`, and ends there: none is left, or
the end is found. -/
structure TakesRow (endSerial serial : Serial) (entries old row after : Entries C)
    (reached : Serial) : Prop where
  split : entries = old ++ (row ++ after)
  chain : Chain serial (row.map Prod.snd) reached
  below : ∀ e ∈ row, e.1.startSerial.val < endSerial.val
  older : ∀ e ∈ old, e.1.startSerial.val < serial.val
  found : ∀ e ∈ after, reached = endSerial → ∃ found ∈ after,
    found.1.startSerial = endSerial ∧ found.1.startSerial.val ≤ e.1.startSerial.val
  nonempty : serial.val < endSerial.val → (∃ e ∈ entries, e.1.startSerial = serial) → row ≠ []
  taken : taken endSerial serial entries = some (row.map Prod.snd)

/-- What a search comes to in entries that go up. -/
inductive Searched (endSerial serial : Serial) (entries : Entries C) : Prop
  | tooNew (entry : ZoneDiffKey × InMemoryZoneDiff C) : TooNew serial endSerial entries entry →
      Searched endSerial serial entries
  | row (old row after : Entries C) (reached : Serial) :
      TakesRow endSerial serial entries old row after reached → Searched endSerial serial entries

-- By induction on the entries, which all start at the serial or after it.
theorem GoesUp.searched (h : GoesUp serial endSerial entries)
    (hfrom : ∀ e ∈ entries, serial.val ≤ e.1.startSerial.val) :
    Searched endSerial serial entries := by
  induction entries generalizing serial with
  | nil =>
    exact .row [] [] [] serial ⟨rfl, rfl, by simp, by simp, by simp, by simp, rfl⟩
  | cons first entries ih =>
    have hfirst : first.1.startSerial ∈ serials serial endSerial (first :: entries) :=
      start_mem_serials List.mem_cons_self
    have hserial : serial ∈ serials serial endSerial (first :: entries) := List.mem_cons_self
    have hold : serial.gt first.1.startSerial = false :=
      (h.gt_eq_false_iff hserial hfirst).mpr (hfrom first List.mem_cons_self)
    -- no entry is numerically before the first one
    have hleast : ∀ f ∈ first :: entries, first.1.startSerial.val ≤ f.1.startSerial.val := by
      intro f hf
      rcases List.mem_cons.mp hf with rfl | hf
      · exact UInt32.le_refl _
      · exact UInt32.le_of_lt (h.lt_of_mem hf)
    rcases entry_cases endSerial serial first.1 with
      hgt | ⟨-, hnew⟩ | ⟨-, hnew, hfound⟩ | htake
    · rw [hold] at hgt
      cases hgt
    · refine .tooNew first ⟨List.mem_cons_self, ?_, ?_⟩
      · exact fun f hf hlt ↦ absurd hlt (UInt32.not_lt.mpr (hleast f hf))
      · rintro serial' (rfl | ⟨f, hf, hlt, -⟩)
        · exact ⟨hold, hnew⟩
        · exact absurd hlt (UInt32.not_lt.mpr (hleast f hf))
    · refine .row [] [] (first :: entries) serial
        ⟨rfl, rfl, by simp, by simp, ?_, ?_, taken_found hold hnew hfound⟩
      · exact fun e he _ ↦ ⟨first, List.mem_cons_self, hfound, hleast e he⟩
      · rintro hlt ⟨e, he, rfl⟩
        rw [← hfound] at hlt
        exact absurd hlt (UInt32.not_lt.mpr (hleast e he))
    · have hsame : first.1.startSerial = serial := by
        have hle := (h.gt_eq_false_iff hfirst hserial).mp htake.2.1
        exact serial_ext (UInt32.le_antisymm hle (hfrom first List.mem_cons_self))
      have hlt : first.1.startSerial.val < endSerial.val := by
        have hle := (h.gt_eq_false_iff hfirst endSerial_mem_serials).mp htake.2.2.1
        exact UInt32.lt_of_le_of_ne hle (fun heq ↦ htake.2.2.2 (serial_ext heq))
      have htail : GoesUp first.1.endSerial endSerial entries :=
        h.tail (end_mem_serials List.mem_cons_self)
      have hkey := h.keys first List.mem_cons_self
      have hends : first.1.endSerial = first.2.endSerial := congrArg ZoneDiffKey.endSerial hkey
      have hstarts : first.1.startSerial = first.2.startSerial :=
        congrArg ZoneDiffKey.startSerial hkey
      cases ih htail (List.pairwise_cons.mp h.apart).1 with
      | tooNew entry hnew =>
        have hle : serial.val ≤ first.1.endSerial.val := by
          rw [← hsame]
          exact UInt32.le_of_lt (h.up first List.mem_cons_self)
        exact .tooNew _ (h.tooNew_cons hlt hle hnew)
      | row old row after reached hrow =>
        have hnone : old = [] := by
          apply List.eq_nil_iff_forall_not_mem.mpr
          intro f hf
          have hmem : f ∈ entries := by
            rw [hrow.split]
            exact List.mem_append_left _ hf
          exact absurd (hrow.older f hf)
            (UInt32.not_lt.mpr ((List.pairwise_cons.mp h.apart).1 f hmem))
        refine .row [] (first :: row) after reached
          ⟨?_, ⟨?_, ?_⟩, ?_, by simp, hrow.found, fun _ _ ↦ List.cons_ne_nil _ _, ?_⟩
        · rw [hrow.split, hnone]
          rfl
        · rw [← hstarts, hsame]
        · rw [← hends]
          exact hrow.chain
        · intro e he
          rcases List.mem_cons.mp he with rfl | he
          · exact hlt
          · exact hrow.below e he
        · rw [taken_take htake, hrow.taken]
          rfl

-- The entries before the one from the serial are older.
theorem GoesUp.searched_from (h : GoesUp serial endSerial entries)
    (hlt : serial.val < endSerial.val) (hfrom : ∃ e ∈ entries, e.1.startSerial = serial) :
    Searched endSerial serial entries := by
  induction entries with
  | nil =>
    obtain ⟨e, he, -⟩ := hfrom
    cases he
  | cons first entries ih =>
    obtain ⟨e, he, hsame⟩ := hfrom
    rcases List.mem_cons.mp he with rfl | he
    · apply h.searched
      intro f hf
      rw [← hsame]
      rcases List.mem_cons.mp hf with rfl | hf
      · exact UInt32.le_refl _
      · exact UInt32.le_of_lt (h.lt_of_mem hf)
    · have hold : first.1.startSerial.val < serial.val := by
        rw [← hsame]
        exact h.lt_of_mem he
      have hle : first.1.endSerial.val ≤ serial.val := by
        rw [← hsame]
        exact (List.pairwise_cons.mp h.apart).1 e he
      have hgt : serial.gt first.1.startSerial = true :=
        (h.gt_iff List.mem_cons_self (start_mem_serials List.mem_cons_self)).mpr hold
      cases ih (h.tail List.mem_cons_self) ⟨e, he, hsame⟩ with
      | tooNew entry hnew => exact .tooNew _ (h.tooNew_old hlt hold hle hnew)
      | row old row after reached hrow =>
        refine .row (first :: old) row after reached
          ⟨?_, hrow.chain, hrow.below, ?_, hrow.found, ?_, ?_⟩
        · rw [hrow.split]
          rfl
        · intro f hf
          rcases List.mem_cons.mp hf with rfl | hf
          · exact hold
          · exact hrow.older f hf
        · exact fun hlt _ ↦ hrow.nonempty hlt ⟨e, he, hsame⟩
        · exact (taken_old hgt).trans hrow.taken

end

section

variable {diffs : ZoneDiffs C} {startSerial endSerial : Serial}

-- A row that comes to the end is a rising chain in order.
theorem GoesUp.orderly_of_row (h : GoesUp startSerial endSerial diffs.entries)
    {old row after : Entries C}
    (hrow : TakesRow endSerial startSerial diffs.entries old row after endSerial)
    (hne : row ≠ []) : Orderly diffs startSerial endSerial := by
  have hmem : ∀ e ∈ row, e ∈ diffs.entries := by
    intro e he
    rw [hrow.split]
    exact List.mem_append_right _ (List.mem_append_left _ he)
  have hkey : ∀ e ∈ row, e = (⟨e.2.startSerial, e.2.endSerial⟩, e.2) := by
    intro e he
    rw [← h.keys e (hmem e he)]
  have hstart : ∀ e ∈ row, e.1.startSerial = e.2.startSerial :=
    fun e he ↦ diffs.keyed e (hmem e he)
  have hfirst : ∀ d ∈ (row.map Prod.snd).head?, d.startSerial = startSerial := hrow.chain.head
  refine .chain (row.map Prod.snd) ⟨?_, ?_, hrow.chain, ?_⟩ ⟨?_, ?_, ?_, ?_⟩
  · exact fun hnil ↦ hne (List.map_eq_nil_iff.mp hnil)
  · intro d hd
    obtain ⟨e, he, rfl⟩ := List.mem_map.mp hd
    exact List.mem_map_of_mem (hmem e he)
  · intro d hd
    obtain ⟨e, he, rfl⟩ := List.mem_map.mp hd
    have hends : e.1.endSerial = e.2.endSerial :=
      congrArg ZoneDiffKey.endSerial (h.keys e (hmem e he))
    rw [← hstart e he, ← hends]
    exact ⟨(h.gt_iff (end_mem_serials (hmem e he)) (start_mem_serials (hmem e he))).mpr
        (h.up e (hmem e he)),
      (h.gt_iff endSerial_mem_serials (start_mem_serials (hmem e he))).mpr (hrow.below e he)⟩
  · intro d hd
    obtain ⟨e, he, rfl⟩ := List.mem_map.mp hd
    rw [← hkey e he]
    exact hmem e he
  · rw [List.pairwise_map]
    have hsorted : row.Pairwise (fun e f ↦ e.1.startSerial.val < f.1.startSerial.val) := by
      have hall := diffs.sorted
      rw [hrow.split] at hall
      exact (List.pairwise_append.mp (List.pairwise_append.mp hall).2.1).1
    apply hsorted.imp_of_mem
    intro e f he hf hlt
    rw [← hstart e he, ← hstart f hf]
    exact hlt
  · intro d hd entry hentry hlt
    rw [hfirst d hd] at hlt
    exact (h.gt_iff List.mem_cons_self (start_mem_serials hentry)).mpr hlt
  · intro entry hentry hafter _
    rw [hrow.split] at hentry
    rcases List.mem_append.mp hentry with hold | hentry
    · obtain ⟨e, rest, heq⟩ := List.exists_cons_of_ne_nil hne
      have hlt := hafter e.2 (by rw [heq]; exact List.mem_cons_self)
      rw [hfirst e.2 (by rw [heq]; rfl)] at hlt
      exact absurd hlt (UInt32.lt_asymm (hrow.older entry hold))
    · rcases List.mem_append.mp hentry with hmid | hlast
      · have hlt := hafter entry.2 (List.mem_map_of_mem hmid)
        rw [hstart entry hmid] at hlt
        exact absurd hlt (UInt32.lt_irrefl _)
      · obtain ⟨found, hfound, heq, hle⟩ := hrow.found entry hlast rfl
        refine ⟨found, ?_, heq, hle⟩
        rw [hrow.split]
        exact List.mem_append_right _ (List.mem_append_right _ hfound)

theorem Chain.unique {startSerial a b : Serial} {diffs : List (InMemoryZoneDiff C)}
    (ha : Chain startSerial diffs a) (hb : Chain startSerial diffs b) : a = b := by
  induction diffs generalizing startSerial with
  | nil => exact ha.symm.trans hb
  | cons d diffs ih => exact ih ha.2 hb.2

theorem GoesUp.orderly (h : GoesUp startSerial endSerial diffs.entries)
    (hall : CompleteOrNothing diffs startSerial endSerial
      (diffs.diffsForRange startSerial endSerial)) : Orderly diffs startSerial endSerial := by
  by_cases hneeded : ∃ e ∈ diffs.entries,
      e.1.startSerial = startSerial ∧ startSerial.val < endSerial.val
  · obtain ⟨e, he, hsame, hlt⟩ := hneeded
    rw [diffsForRange_eq] at hall
    cases h.searched_from hlt ⟨e, he, hsame⟩ with
    | tooNew entry hnew =>
      refine .tooNew entry ?_ hnew
      intro chain hchain
      have hfound := hall.found chain hchain
      rw [taken_of_tooNew diffs.sorted hnew] at hfound
      exact hchain.nonempty hfound.symm
    | row old row after reached hrow =>
      have hne := hrow.nonempty hlt ⟨e, he, hsame⟩
      have hcomplete := hall.complete
      rw [hrow.taken] at hcomplete
      rcases hcomplete with hnil | hcomplete
      · exact absurd (List.map_eq_nil_iff.mp hnil) hne
      · cases Chain.unique hrow.chain hcomplete
        exact h.orderly_of_row hrow hne
  · apply Orderly.none
    intro entry hentry
    have hserial : entry.1.startSerial ∈ serials startSerial endSerial diffs.entries :=
      start_mem_serials hentry
    rw [h.gt_iff List.mem_cons_self hserial, h.gt_iff hserial List.mem_cons_self,
      h.gt_iff List.mem_cons_self endSerial_mem_serials]
    by_cases hlt : entry.1.startSerial.val < startSerial.val
    · exact Or.inl hlt
    · by_cases heq : entry.1.startSerial = startSerial
      · have hle : endSerial.val ≤ startSerial.val :=
          UInt32.not_lt.mp (fun hlt ↦ hneeded ⟨entry, hentry, heq, hlt⟩)
        refine Or.inr (Or.inr ⟨heq, ?_⟩)
        by_cases hend : startSerial = endSerial
        · exact Or.inl hend
        · exact Or.inr (UInt32.lt_of_le_of_ne hle (fun h ↦ hend (serial_ext h.symm)))
      · have hne : startSerial.val ≠ entry.1.startSerial.val := fun h ↦ heq (serial_ext h.symm)
        exact Or.inr (Or.inl (UInt32.lt_of_le_of_ne (UInt32.not_lt.mp hlt) hne))

end

/-- All that is needed or nothing is offered when the keys lie so; and where the serial of the zone goes
up, only then. -/
theorem complete_or_nothing_when_orderly (diffs : ZoneDiffs C) (startSerial endSerial : Serial) :
    (Orderly diffs startSerial endSerial →
      CompleteOrNothing diffs startSerial endSerial (diffs.diffsForRange startSerial endSerial)) ∧
    (GoesUp startSerial endSerial diffs.entries →
      CompleteOrNothing diffs startSerial endSerial (diffs.diffsForRange startSerial endSerial) →
      Orderly diffs startSerial endSerial) :=
  ⟨complete_or_nothing_of_orderly, fun hup hall ↦ hup.orderly hall⟩

namespace ShortRun

/-- Three versions. -/
def history : ZoneDiffs Unit := addDiff (addDiff {} (diffOf 1 2)) (diffOf 2 3)

/-- The last difference has not been added yet. -/
def unfinished : ZoneDiffs Unit := addDiff {} (diffOf 1 2)

/-- The serial goes from the greatest one to zero, and on to one. -/
def wrapped : ZoneDiffs Unit := addDiff (addDiff {} (diffOf 0xffffffff 0)) (diffOf 0 1)

/-- There is a difference from a serial after the end, but none from the end. -/
def gap : ZoneDiffs Unit := addDiff (addDiff {} (diffOf 1 2)) (diffOf 3 4)

theorem history_rising : RisingChain history ⟨1⟩ [diffOf 1 2, diffOf 2 3] ⟨3⟩ :=
  ⟨by decide, by decide, by decide, by decide⟩

theorem history_goesUp : GoesUp ⟨1⟩ ⟨3⟩ history.entries :=
  ⟨by decide, by decide, by decide, by decide⟩

theorem wrapped_rising :
    RisingChain wrapped ⟨0xffffffff⟩ [diffOf 0xffffffff 0, diffOf 0 1] ⟨1⟩ :=
  ⟨by decide, by decide, by decide, by decide⟩

theorem gap_rising : RisingChain gap ⟨1⟩ [diffOf 1 2] ⟨2⟩ :=
  ⟨by decide, by decide, by decide, by decide⟩

end ShortRun

open ShortRun in
/-- Both directions on the history of three versions. -/
theorem history_orderly_iff : Orderly history ⟨1⟩ ⟨3⟩ ∧
    CompleteOrNothing history ⟨1⟩ ⟨3⟩ [diffOf 1 2, diffOf 2 3] := by
  have hoffered : history.diffsForRange ⟨1⟩ ⟨3⟩ = [diffOf 1 2, diffOf 2 3] := by decide
  have hall : CompleteOrNothing history ⟨1⟩ ⟨3⟩ (history.diffsForRange ⟨1⟩ ⟨3⟩) := by
    rw [hoffered]
    exact ⟨Or.inr (by decide), fun chain hchain ↦ history_rising.unique hchain⟩
  have horderly := (complete_or_nothing_when_orderly history ⟨1⟩ ⟨3⟩).2 history_goesUp hall
  have hagain := (complete_or_nothing_when_orderly history ⟨1⟩ ⟨3⟩).1 horderly
  rw [hoffered] at hagain
  exact ⟨horderly, hagain⟩

open ShortRun in
/-- Differences are offered that end too early, and none where there are all that are needed. -/
theorem not_complete_or_nothing :
    (unfinished.diffsForRange ⟨1⟩ ⟨3⟩ = [diffOf 1 2] ∧
      ¬CompleteOrNothing unfinished ⟨1⟩ ⟨3⟩ [diffOf 1 2]) ∧
    (wrapped.diffsForRange ⟨0xffffffff⟩ ⟨1⟩ = [] ∧
      ¬CompleteOrNothing wrapped ⟨0xffffffff⟩ ⟨1⟩ []) ∧
    gap.diffsForRange ⟨1⟩ ⟨2⟩ = [] ∧ ¬CompleteOrNothing gap ⟨1⟩ ⟨2⟩ [] := by
  refine ⟨⟨by decide, fun h ↦ ?_⟩, ⟨by decide, fun h ↦ ?_⟩, by decide, fun h ↦ ?_⟩
  · have hcomplete := h.complete
    revert hcomplete
    decide
  · cases h.found _ wrapped_rising
  · cases h.found _ gap_rising

end ZoneDiffs

end Cascade

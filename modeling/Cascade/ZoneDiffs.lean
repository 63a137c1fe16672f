import Cascade.Base
import Mathlib.Data.List.Nodup

/-!
# The differences between versions of a zone

A zone keeps the differences that its commits have made, ordered by the plain numeric order of the
serials they start from.  A client that has an old version is offered those that lead from it to the
current one, which are looked for in that order, with the serials compared as in RFC 1982.  The two
orders agree on the differences that are needed, or an entry for a serial that is too new ends the
search, or not all of what is needed is offered.
-/

namespace Cascade

/-- What was removed and added, `changes`, is only passed on. -/
structure InMemoryZoneDiff (C : Type) where
  startSerial : Serial
  endSerial : Serial
  changes : C
deriving DecidableEq

/-- Keys are ordered by their start alone. -/
structure ZoneDiffKey where
  startSerial : Serial
  endSerial : Serial
deriving DecidableEq

namespace ZoneDiffs

variable {C : Type}

abbrev Entries (C : Type) := List (ZoneDiffKey × InMemoryZoneDiff C)

/-- `BTreeMap::insert`: an equal key is not replaced, only its value is. -/
def insert (key : ZoneDiffKey) (diff : InMemoryZoneDiff C) : Entries C → Entries C
  | [] => [(key, diff)]
  | entry :: entries =>
    if key.startSerial.val < entry.1.startSerial.val then (key, diff) :: entry :: entries
    else if key.startSerial.val = entry.1.startSerial.val then (entry.1, diff) :: entries
    else entry :: insert key diff entries

variable {key : ZoneDiffKey} {diff : InMemoryZoneDiff C} {entry : ZoneDiffKey × InMemoryZoneDiff C}
  {entries : Entries C}

theorem mem_insert (h : entry ∈ insert key diff entries) :
    entry ∈ entries ∨ entry.1.startSerial.val = key.startSerial.val ∧ entry.2 = diff := by
  induction entries with
  | nil =>
    have heq : entry = (key, diff) := List.mem_singleton.mp h
    rw [heq]
    exact Or.inr ⟨rfl, rfl⟩
  | cons first entries ih =>
    unfold insert at h
    split at h
    · rcases List.mem_cons.mp h with rfl | h
      · exact Or.inr ⟨rfl, rfl⟩
      · exact Or.inl h
    · split at h
      next heq =>
        rcases List.mem_cons.mp h with rfl | h
        · exact Or.inr ⟨heq.symm, rfl⟩
        · exact Or.inl (List.mem_cons_of_mem first h)
      · rcases List.mem_cons.mp h with rfl | h
        · exact Or.inl List.mem_cons_self
        · exact (ih h).imp_left (List.mem_cons_of_mem first)

end ZoneDiffs

open ZoneDiffs in
structure ZoneDiffs (C : Type) where
  entries : Entries C := []
  sorted : entries.Pairwise (fun e f ↦ e.1.startSerial.val < f.1.startSerial.val) := by
    exact List.Pairwise.nil
  keyed : ∀ entry ∈ entries, entry.1.startSerial = entry.2.startSerial := by
    intro entry h
    cases h

namespace ZoneDiffs

variable {C : Type} {key : ZoneDiffKey} {diff : InMemoryZoneDiff C} {entries : Entries C}

theorem sorted_insert
    (h : entries.Pairwise (fun e f ↦ e.1.startSerial.val < f.1.startSerial.val)) :
    (insert key diff entries).Pairwise (fun e f ↦ e.1.startSerial.val < f.1.startSerial.val) := by
  induction entries with
  | nil => exact List.pairwise_singleton _ _
  | cons first entries ih =>
    obtain ⟨hfirst, htail⟩ := List.pairwise_cons.mp h
    unfold insert
    split
    next hlt =>
      apply List.pairwise_cons.mpr ⟨?_, h⟩
      intro entry hmem
      rcases List.mem_cons.mp hmem with rfl | hmem
      · exact hlt
      · exact UInt32.lt_trans hlt (hfirst entry hmem)
    · split
      · exact List.pairwise_cons.mpr ⟨hfirst, htail⟩
      next hlt hne =>
        apply List.pairwise_cons.mpr ⟨?_, ih htail⟩
        intro entry hmem
        rcases mem_insert hmem with hmem | ⟨heq, -⟩
        · exact hfirst entry hmem
        · rw [heq]
          exact UInt32.lt_of_le_of_ne (UInt32.not_lt.mp hlt) (fun h ↦ hne h.symm)

def addDiff (diffs : ZoneDiffs C) (diff : InMemoryZoneDiff C) : ZoneDiffs C where
  entries := insert ⟨diff.startSerial, diff.endSerial⟩ diff diffs.entries
  sorted := sorted_insert diffs.sorted
  keyed := by
    intro entry h
    rcases mem_insert h with h | ⟨heq, hdiff⟩
    · exact diffs.keyed entry h
    · rw [hdiff]
      cases hstart : entry.1.startSerial
      rw [hstart] at heq
      exact congrArg Serial.mk heq

/-- The loop of `diffs_for_range`, from the serial that it has come to. -/
def collect (endSerial : Serial) :
    Serial → Entries C → List (InMemoryZoneDiff C) → List (InMemoryZoneDiff C)
  | _, [], outDiffs => outDiffs
  | serial, (key, diff) :: entries, outDiffs =>
    -- the difference is for a serial that is too old
    if serial.gt key.startSerial then collect endSerial serial entries outDiffs
    -- for one that is too new
    else if key.startSerial.gt serial || key.startSerial.gt endSerial then []
    else if key.startSerial = endSerial then outDiffs
    else collect endSerial key.endSerial entries (outDiffs ++ [diff])

/-- Inclusive. -/
def diffsForRange (diffs : ZoneDiffs C) (startSerial endSerial : Serial) :
    List (InMemoryZoneDiff C) :=
  collect endSerial startSerial diffs.entries []

/-! ## What is collected -/

/-- Each difference starts where the one before it ends. -/
def Chain : Serial → List (InMemoryZoneDiff C) → Serial → Prop
  | startSerial, [], endSerial => startSerial = endSerial
  | startSerial, diff :: diffs, endSerial =>
    diff.startSerial = startSerial ∧ Chain diff.endSerial diffs endSerial

instance decidableChain : ∀ (startSerial : Serial) (diffs : List (InMemoryZoneDiff C))
    (endSerial : Serial), Decidable (Chain startSerial diffs endSerial)
  | startSerial, [], endSerial => inferInstanceAs (Decidable (startSerial = endSerial))
  | startSerial, diff :: diffs, endSerial =>
    have := decidableChain diff.endSerial diffs endSerial
    inferInstanceAs (Decidable (diff.startSerial = startSerial ∧ _))

/-- The differences that are collected from the entries, unless one is too new. -/
def taken (endSerial : Serial) : Serial → Entries C → Option (List (InMemoryZoneDiff C))
  | _, [] => some []
  | serial, (key, diff) :: entries =>
    if serial.gt key.startSerial then taken endSerial serial entries
    else if key.startSerial.gt serial || key.startSerial.gt endSerial then none
    else if key.startSerial = endSerial then some []
    else (taken endSerial key.endSerial entries).map (diff :: ·)

theorem collect_eq (endSerial serial : Serial) (entries : Entries C)
    (outDiffs : List (InMemoryZoneDiff C)) :
    collect endSerial serial entries outDiffs =
      (taken endSerial serial entries).elim [] (outDiffs ++ ·) := by
  induction entries generalizing serial outDiffs with
  | nil => exact (List.append_nil outDiffs).symm
  | cons entry entries ih =>
    unfold collect taken
    split
    · exact ih serial outDiffs
    · split
      · rfl
      · split
        · exact (List.append_nil outDiffs).symm
        · rw [ih]
          cases taken endSerial entry.1.endSerial entries with
          | none => rfl
          | some diffs => exact List.append_assoc outDiffs [entry.2] diffs

/-- The entry is neither older nor newer than the serial, and is needed to come to the end. -/
def IsTaken (endSerial serial : Serial) (key : ZoneDiffKey) : Prop :=
  serial.gt key.startSerial = false ∧ key.startSerial.gt serial = false ∧
    key.startSerial.gt endSerial = false ∧ key.startSerial ≠ endSerial

section

variable {endSerial serial : Serial}

theorem gt_irrefl (serial : Serial) : serial.gt serial = false := by
  simp [Serial.gt]

theorem ne_of_newer {a b : Serial} (h : a.gt b = true) : b ≠ a := by
  intro heq
  rw [heq, gt_irrefl] at h
  cases h

theorem taken_old (h : serial.gt key.startSerial = true) :
    taken endSerial serial ((key, diff) :: entries) = taken endSerial serial entries := if_pos h

theorem taken_new (hold : serial.gt key.startSerial = false)
    (hnew : key.startSerial.gt serial = true ∨ key.startSerial.gt endSerial = true) :
    taken endSerial serial ((key, diff) :: entries) = none := by
  rw [taken, hold]
  exact if_pos (Bool.or_eq_true_iff.mpr hnew)

theorem taken_found (hold : serial.gt key.startSerial = false)
    (hnew : key.startSerial.gt serial = false) (hfound : key.startSerial = endSerial) :
    taken endSerial serial ((key, diff) :: entries) = some [] := by
  have hend : key.startSerial.gt endSerial = false := by
    rw [hfound, gt_irrefl]
  simp only [taken, hold, hnew, hend, if_pos hfound]
  rfl

theorem taken_take (h : IsTaken endSerial serial key) :
    taken endSerial serial ((key, diff) :: entries) =
      (taken endSerial key.endSerial entries).map (diff :: ·) := by
  obtain ⟨hold, hnew, hend, hne⟩ := h
  simp only [taken, hold, hnew, hend, if_neg hne]
  rfl

-- What the loop can make of an entry.
theorem entry_cases (endSerial serial : Serial) (key : ZoneDiffKey) :
    serial.gt key.startSerial = true ∨
    (serial.gt key.startSerial = false ∧
      (key.startSerial.gt serial = true ∨ key.startSerial.gt endSerial = true)) ∨
    (serial.gt key.startSerial = false ∧ key.startSerial.gt serial = false ∧
      key.startSerial = endSerial) ∨ IsTaken endSerial serial key := by
  unfold IsTaken
  cases serial.gt key.startSerial with
  | true => exact Or.inl rfl
  | false =>
    cases key.startSerial.gt serial with
    | true => exact Or.inr (Or.inl ⟨rfl, Or.inl rfl⟩)
    | false =>
      cases key.startSerial.gt endSerial with
      | true => exact Or.inr (Or.inl ⟨rfl, Or.inr rfl⟩)
      | false =>
        by_cases hfound : key.startSerial = endSerial
        · exact Or.inr (Or.inr (Or.inl ⟨rfl, rfl, hfound⟩))
        · exact Or.inr (Or.inr (Or.inr ⟨rfl, rfl, rfl, hfound⟩))

end

/-- The differences that there are. -/
def values (diffs : ZoneDiffs C) : List (InMemoryZoneDiff C) := diffs.entries.map Prod.snd

-- There is one difference at most from a serial.
theorem eq_of_startSerial (diffs : ZoneDiffs C) {d d' : InMemoryZoneDiff C} (hd : d ∈ diffs.values)
    (hd' : d' ∈ diffs.values) (heq : d.startSerial = d'.startSerial) : d = d' := by
  obtain ⟨e, he, rfl⟩ := List.mem_map.mp hd
  obtain ⟨f, hf, rfl⟩ := List.mem_map.mp hd'
  have hstart : e.1.startSerial.val = f.1.startSerial.val := by
    rw [diffs.keyed e he, diffs.keyed f hf, heq]
  have hdistinct : (diffs.entries.map (fun e ↦ e.1.startSerial.val)).Nodup :=
    List.pairwise_map.mpr (diffs.sorted.imp UInt32.ne_of_lt)
  rw [List.inj_on_of_nodup_map hdistinct he hf hstart]

section

variable {diffs : ZoneDiffs C} {startSerial endSerial : Serial}
  {chain chain' : List (InMemoryZoneDiff C)}

theorem chain_unique (hchain : Chain startSerial chain endSerial)
    (hchain' : Chain startSerial chain' endSerial)
    (h : ∀ d ∈ chain, d ∈ diffs.values ∧ d.startSerial ≠ endSerial)
    (h' : ∀ d ∈ chain', d ∈ diffs.values ∧ d.startSerial ≠ endSerial) : chain = chain' := by
  induction chain generalizing startSerial chain' with
  | nil =>
    cases hchain
    cases chain' with
    | nil => rfl
    | cons d' chain' => exact absurd hchain'.1 (h' d' List.mem_cons_self).2
  | cons d chain ih =>
    obtain ⟨hd, hne⟩ := h d List.mem_cons_self
    cases chain' with
    | nil => exact absurd (hchain.1.trans hchain') hne
    | cons d' chain' =>
      have hsame : d = d' :=
        diffs.eq_of_startSerial hd (h' d' List.mem_cons_self).1 (hchain.1.trans hchain'.1.symm)
      subst hsame
      rw [ih hchain.2 hchain'.2 (fun d hd ↦ h d (List.mem_cons_of_mem _ hd))
        (fun d hd ↦ h' d (List.mem_cons_of_mem _ hd))]

/-- The differences lead from one serial up to the other. -/
structure RisingChain (diffs : ZoneDiffs C) (startSerial : Serial)
    (chain : List (InMemoryZoneDiff C)) (endSerial : Serial) : Prop where
  nonempty : chain ≠ []
  mem : ∀ d ∈ chain, d ∈ diffs.values
  links : Chain startSerial chain endSerial
  rising : ∀ d ∈ chain, d.endSerial.gt d.startSerial = true ∧ endSerial.gt d.startSerial = true

/-- What is offered is everything that is needed, or nothing. -/
structure CompleteOrNothing (diffs : ZoneDiffs C) (startSerial endSerial : Serial)
    (offered : List (InMemoryZoneDiff C)) : Prop where
  complete : offered = [] ∨ Chain startSerial offered endSerial
  found : ∀ chain, RisingChain diffs startSerial chain endSerial → offered = chain

theorem diffsForRange_eq (diffs : ZoneDiffs C) (startSerial endSerial : Serial) :
    diffs.diffsForRange startSerial endSerial =
      (taken endSerial startSerial diffs.entries).getD [] := by
  rw [diffsForRange, collect_eq]
  cases taken endSerial startSerial diffs.entries <;> rfl

end

/-! ## Differences in order -/

section

variable {startSerial endSerial serial : Serial} {chain : List (InMemoryZoneDiff C)}

-- Below a serial, what is nearer to it than something older is older, too.
theorem gt_of_between {a b c : Serial} (hab : a.val < b.val) (hbc : b.val < c.val)
    (h : c.gt a = true) : c.gt b = true := by
  simp only [Serial.gt, Bool.and_eq_true, decide_eq_true_eq, UInt32.lt_iff_toNat_lt] at hab hbc h ⊢
  rw [UInt32.toNat_sub_of_le _ _ (UInt32.le_iff_toNat_le.mpr (by omega))] at h ⊢
  have hhalf : (0x80000000 : UInt32).toNat = 2147483648 := rfl
  have hzero : (0 : UInt32).toNat = 0 := rfl
  omega

theorem gt_asymm {a b : Serial} (h : a.gt b = true) : b.gt a = false := by
  cases hba : b.gt a with
  | false => rfl
  | true =>
    simp only [Serial.gt, Bool.and_eq_true, decide_eq_true_eq, UInt32.lt_iff_toNat_lt,
      UInt32.toNat_sub] at h hba
    have ha := a.val.toNat_lt
    have hb := b.val.toNat_lt
    have hhalf : (0x80000000 : UInt32).toNat = 2147483648 := rfl
    have hzero : (0 : UInt32).toNat = 0 := rfl
    omega

/-- The entries are in the order of the chain: those before it are older, and an entry after it that is
not older than the end comes after one at the end. -/
structure Ascending (endSerial serial : Serial) (chain : List (InMemoryZoneDiff C))
    (entries : Entries C) : Prop where
  mem : ∀ d ∈ chain, (⟨d.startSerial, d.endSerial⟩, d) ∈ entries
  ascending : chain.Pairwise (fun d d' ↦ d.startSerial.val < d'.startSerial.val)
  before : ∀ d ∈ chain.head?, ∀ entry ∈ entries,
    entry.1.startSerial.val < d.startSerial.val → serial.gt entry.1.startSerial = true
  after : ∀ entry ∈ entries, (∀ d ∈ chain, d.startSerial.val < entry.1.startSerial.val) →
    endSerial.gt entry.1.startSerial = false → ∃ entry' ∈ entries,
      entry'.1.startSerial = endSerial ∧ entry'.1.startSerial.val ≤ entry.1.startSerial.val

variable {entry : ZoneDiffKey × InMemoryZoneDiff C} {d : InMemoryZoneDiff C}

-- An entry that is passed over is not the end, and none of those that are taken.
theorem Ascending.old (h : Ascending endSerial serial chain (entry :: entries))
    (hmem : ∀ d ∈ chain, d.startSerial ≠ entry.1.startSerial)
    (hend : entry.1.startSerial ≠ endSerial) : Ascending endSerial serial chain entries := by
  constructor
  · intro d hd
    rcases List.mem_cons.mp (h.mem d hd) with heq | htail
    · rw [← heq] at hmem
      exact absurd rfl (hmem d hd)
    · exact htail
  · exact h.ascending
  · exact fun d hd entry' hentry' ↦ h.before d hd entry' (List.mem_cons_of_mem entry hentry')
  · intro entry' hentry' hchain hold
    obtain ⟨found, hfound, heq, hle⟩ :=
      h.after entry' (List.mem_cons_of_mem entry hentry') hchain hold
    rcases List.mem_cons.mp hfound with rfl | hfound
    · exact absurd heq hend
    · exact ⟨found, hfound, heq, hle⟩

-- The next difference of the chain is that of the entry.
theorem Ascending.take (h : Ascending endSerial serial (d :: chain) (entry :: entries))
    (hsorted : (entry :: entries).Pairwise
      (fun e f ↦ e.1.startSerial.val < f.1.startSerial.val))
    (hstart : entry.1.startSerial = d.startSerial) (hne : d.startSerial ≠ endSerial)
    (hlinks : ∀ d' ∈ chain.head?, d'.startSerial = d.endSerial)
    (hrising : d.endSerial.gt d.startSerial = true) :
    Ascending endSerial d.endSerial chain entries := by
  obtain ⟨hfirst, htail⟩ := List.pairwise_cons.mp hsorted
  obtain ⟨hascending, hrest⟩ := List.pairwise_cons.mp h.ascending
  constructor
  · intro d' hd'
    rcases List.mem_cons.mp (h.mem d' (List.mem_cons_of_mem d hd')) with heq | hmem
    · have hlt := hascending d' hd'
      rw [← hstart, ← heq] at hlt
      exact absurd hlt (UInt32.lt_irrefl _)
    · exact hmem
  · exact hrest
  · intro d' hd' entry' hentry' hlt
    have hbetween : d.startSerial.val < entry'.1.startSerial.val := by
      rw [← hstart]
      exact hfirst entry' hentry'
    rw [← hlinks d' hd'] at hrising ⊢
    exact gt_of_between hbetween hlt hrising
  · intro entry' hentry' hchain hold
    have hafter : ∀ d' ∈ d :: chain, d'.startSerial.val < entry'.1.startSerial.val := by
      intro d' hd'
      rcases List.mem_cons.mp hd' with rfl | hd'
      · rw [← hstart]
        exact hfirst entry' hentry'
      · exact hchain d' hd'
    obtain ⟨found, hfound, heq, hle⟩ :=
      h.after entry' (List.mem_cons_of_mem entry hentry') hafter hold
    rcases List.mem_cons.mp hfound with rfl | hfound
    · exact absurd (hstart.symm.trans heq) hne
    · exact ⟨found, hfound, heq, hle⟩

theorem Chain.head (h : Chain serial chain endSerial) : ∀ d ∈ chain.head?, d.startSerial = serial := by
  intro d hd
  cases chain with
  | nil => cases hd
  | cons d' chain =>
    cases hd
    exact h.1

-- The first entry is the one of the chain, or it is before it.
theorem Ascending.eq_or_lt (h : Ascending endSerial serial (d :: chain) (entry :: entries))
    (hsorted : (entry :: entries).Pairwise
      (fun e f ↦ e.1.startSerial.val < f.1.startSerial.val)) :
    (⟨d.startSerial, d.endSerial⟩, d) = entry ∨
      entry.1.startSerial.val < d.startSerial.val := by
  rcases List.mem_cons.mp (h.mem d List.mem_cons_self) with heq | hmem
  · exact Or.inl heq
  · exact Or.inr ((List.pairwise_cons.mp hsorted).1 _ hmem)

-- What is before the chain is not in it.
theorem Ascending.ne_of_lt (h : Ascending endSerial serial (d :: chain) (entry :: entries))
    (hlt : entry.1.startSerial.val < d.startSerial.val) :
    ∀ d' ∈ d :: chain, d'.startSerial ≠ entry.1.startSerial := by
  intro d' hd' heq
  have hle : entry.1.startSerial.val < d'.startSerial.val := by
    rcases List.mem_cons.mp hd' with rfl | hd'
    · exact hlt
    · exact UInt32.lt_trans hlt ((List.pairwise_cons.mp h.ascending).1 d' hd')
  rw [heq] at hle
  exact UInt32.lt_irrefl _ hle

-- At the end, the first entry that is not older is the one at the end.
theorem taken_of_ascending_nil (hsorted : entries.Pairwise
      (fun e f ↦ e.1.startSerial.val < f.1.startSerial.val))
    (h : Ascending endSerial endSerial [] entries) : taken endSerial endSerial entries = some [] := by
  induction entries with
  | nil => rfl
  | cons entry entries ih =>
    obtain ⟨hfirst, htail⟩ := List.pairwise_cons.mp hsorted
    cases hold : endSerial.gt entry.1.startSerial with
    | true =>
      rw [taken_old hold]
      exact ih htail (h.old (fun d hd ↦ by cases hd) (ne_of_newer hold))
    | false =>
      obtain ⟨found, hfound, heq, hle⟩ :=
        h.after entry List.mem_cons_self (fun d hd ↦ by cases hd) hold
      have hsame : entry.1.startSerial = endSerial := by
        rcases List.mem_cons.mp hfound with rfl | hfound
        · exact heq
        · exact absurd (hfirst found hfound) (UInt32.not_lt.mpr hle)
      exact taken_found hold (by rw [hsame, gt_irrefl]) hsame

-- By induction on the entries: each is older, or the next one of the chain.
theorem taken_of_ascending (hsorted : entries.Pairwise
      (fun e f ↦ e.1.startSerial.val < f.1.startSerial.val))
    (hlinks : Chain serial chain endSerial)
    (hrising : ∀ d ∈ chain, d.endSerial.gt d.startSerial = true ∧
      endSerial.gt d.startSerial = true)
    (h : Ascending endSerial serial chain entries) :
    taken endSerial serial entries = some chain := by
  induction entries generalizing serial chain with
  | nil =>
    cases chain with
    | nil => rfl
    | cons d chain => cases h.mem d List.mem_cons_self
  | cons entry entries ih =>
    cases chain with
    | nil =>
      cases hlinks
      exact taken_of_ascending_nil hsorted h
    | cons d chain =>
      have htail := (List.pairwise_cons.mp hsorted).2
      obtain ⟨rfl, hchain⟩ := hlinks
      obtain ⟨hup, hend⟩ := hrising d List.mem_cons_self
      rcases h.eq_or_lt hsorted with heq | hlt
      · have hstart : entry.1.startSerial = d.startSerial := by rw [← heq]
        have hne := ne_of_newer hend
        have hrest := h.take hsorted hstart hne hchain.head hup
        have htaken := ih htail hchain (fun d' hd' ↦ hrising d' (List.mem_cons_of_mem d hd')) hrest
        have htake : IsTaken endSerial d.startSerial ⟨d.startSerial, d.endSerial⟩ :=
          ⟨gt_irrefl _, gt_irrefl _, gt_asymm hend, hne⟩
        rw [← heq, taken_take htake, htaken]
        rfl
      · have hold := h.before d rfl entry List.mem_cons_self hlt
        have hnot : entry.1.startSerial ≠ endSerial := by
          intro heq
          rw [heq, gt_asymm hend] at hold
          cases hold
        have hlinks : Chain d.startSerial (d :: chain) endSerial := ⟨rfl, hchain⟩
        rw [taken_old hold]
        exact ih htail hlinks hrising (h.old (h.ne_of_lt hlt) hnot)

-- There is one rising chain at most.
theorem RisingChain.unique {diffs : ZoneDiffs C} {chain' : List (InMemoryZoneDiff C)}
    (h : RisingChain diffs startSerial chain endSerial)
    (h' : RisingChain diffs startSerial chain' endSerial) : chain = chain' :=
  chain_unique h.links h'.links (fun d hd ↦ ⟨h.mem d hd, ne_of_newer (h.rising d hd).2⟩)
    (fun d hd ↦ ⟨h'.mem d hd, ne_of_newer (h'.rising d hd).2⟩)

end

/-! ## Entries that are too new -/

/-- The search cannot go past the entry: there is none for the end before it, and it is too new for the
client's serial and for the end serials of all entries before it. -/
structure TooNew (startSerial endSerial : Serial) (entries : Entries C)
    (entry : ZoneDiffKey × InMemoryZoneDiff C) : Prop where
  mem : entry ∈ entries
  notFound : ∀ e ∈ entries, e.1.startSerial.val < entry.1.startSerial.val →
    e.1.startSerial ≠ endSerial
  newer : ∀ serial, (serial = startSerial ∨ ∃ e ∈ entries,
      e.1.startSerial.val < entry.1.startSerial.val ∧ e.1.endSerial = serial) →
    serial.gt entry.1.startSerial = false ∧
      (entry.1.startSerial.gt serial = true ∨ entry.1.startSerial.gt endSerial = true)

section

variable {startSerial endSerial serial : Serial} {entry first : ZoneDiffKey × InMemoryZoneDiff C}

-- What has come to a later entry still cannot go past this one.
theorem TooNew.tail (h : TooNew startSerial endSerial (first :: entries) entry)
    (hmem : entry ∈ entries) (hserial : serial = startSerial ∨ first.1.endSerial = serial)
    (hlt : first.1.startSerial.val < entry.1.startSerial.val) :
    TooNew serial endSerial entries entry where
  mem := hmem
  notFound := fun e he ↦ h.notFound e (List.mem_cons_of_mem first he)
  newer := by
    intro serial' hserial'
    apply h.newer
    rcases hserial' with rfl | ⟨e, he, hend⟩
    · rcases hserial with rfl | hend
      · exact Or.inl rfl
      · exact Or.inr ⟨first, List.mem_cons_self, hlt, hend⟩
    · exact Or.inr ⟨e, List.mem_cons_of_mem first he, hend⟩

theorem taken_of_tooNew (hsorted : entries.Pairwise
      (fun e f ↦ e.1.startSerial.val < f.1.startSerial.val))
    (h : TooNew serial endSerial entries entry) : taken endSerial serial entries = none := by
  induction entries generalizing serial with
  | nil => cases h.mem
  | cons first entries ih =>
    obtain ⟨hfirst, htail⟩ := List.pairwise_cons.mp hsorted
    rcases List.mem_cons.mp h.mem with rfl | hmem
    · obtain ⟨hold, hnew⟩ := h.newer serial (Or.inl rfl)
      exact taken_new hold hnew
    · have hlt := hfirst entry hmem
      rcases entry_cases endSerial serial first.1 with
        hold | ⟨hold, hnew⟩ | ⟨hold, hnew, hfound⟩ | htaken
      · exact (taken_old hold).trans (ih htail (h.tail hmem (Or.inl rfl) hlt))
      · exact taken_new hold hnew
      · exact absurd hfound (h.notFound first List.mem_cons_self hlt)
      · rw [taken_take htaken, ih htail (h.tail hmem (Or.inr rfl) hlt)]
        rfl

end

/-! ## All or nothing -/

/-- How the keys may lie to the range.  Nothing is needed (`none`), when an entry from the client's serial
is needed only for an end that is newer, and no entry is half the serial space away; there is what
is needed, in order; or there is not, and the search does not get past an entry that is too new. -/
inductive Orderly (diffs : ZoneDiffs C) (startSerial endSerial : Serial) : Prop
  | none : (∀ entry ∈ diffs.entries, startSerial.gt entry.1.startSerial = true ∨
      entry.1.startSerial.gt startSerial = true ∨
      entry.1.startSerial = startSerial ∧
        (startSerial = endSerial ∨ startSerial.gt endSerial = true)) →
      Orderly diffs startSerial endSerial
  | chain (chain : List (InMemoryZoneDiff C)) : RisingChain diffs startSerial chain endSerial →
      Ascending endSerial startSerial chain diffs.entries → Orderly diffs startSerial endSerial
  | tooNew (entry : ZoneDiffKey × InMemoryZoneDiff C) :
      (∀ chain, ¬RisingChain diffs startSerial chain endSerial) →
      TooNew startSerial endSerial diffs.entries entry → Orderly diffs startSerial endSerial

section

variable {diffs : ZoneDiffs C} {startSerial endSerial serial : Serial}
  {chain : List (InMemoryZoneDiff C)}

-- Nothing is taken from entries of which none is needed.
theorem taken_of_none (h : ∀ entry ∈ entries, serial.gt entry.1.startSerial = true ∨
      entry.1.startSerial.gt serial = true ∨
      entry.1.startSerial = serial ∧ (serial = endSerial ∨ serial.gt endSerial = true)) :
    (taken endSerial serial entries).getD [] = [] := by
  induction entries with
  | nil => rfl
  | cons entry entries ih =>
    rcases h entry List.mem_cons_self with hold | hnew | ⟨hsame, hend | hend⟩
    · rw [taken_old hold]
      exact ih (fun e he ↦ h e (List.mem_cons_of_mem entry he))
    · rw [taken_new (gt_asymm hnew) (Or.inl hnew)]
      rfl
    · rw [taken_found (by rw [hsame, gt_irrefl]) (by rw [hsame, gt_irrefl]) (hsame.trans hend)]
      rfl
    · rw [taken_new (by rw [hsame, gt_irrefl]) (Or.inr (by rw [hsame]; exact hend))]
      rfl

-- A chain begins with an entry from the client's serial, which is older than the end.
theorem RisingChain.first (h : RisingChain diffs startSerial chain endSerial) :
    (∃ entry ∈ diffs.entries, entry.1.startSerial = startSerial) ∧
      endSerial.gt startSerial = true := by
  obtain ⟨d, rest, rfl⟩ := List.exists_cons_of_ne_nil h.nonempty
  have hstart : d.startSerial = startSerial := h.links.1
  obtain ⟨entry, hentry, rfl⟩ := List.mem_map.mp (h.mem d List.mem_cons_self)
  refine ⟨⟨entry, hentry, (diffs.keyed entry hentry).trans hstart⟩, ?_⟩
  rw [← hstart]
  exact (h.rising _ List.mem_cons_self).2

/-- All that is needed or nothing is offered when the keys lie so. -/
theorem complete_or_nothing_of_orderly (h : Orderly diffs startSerial endSerial) :
    CompleteOrNothing diffs startSerial endSerial (diffs.diffsForRange startSerial endSerial) := by
  rw [diffsForRange_eq]
  cases h with
  | none hnone =>
    rw [taken_of_none hnone]
    refine ⟨Or.inl rfl, ?_⟩
    intro chain hchain
    obtain ⟨⟨entry, hentry, hsame⟩, hend⟩ := hchain.first
    rcases hnone entry hentry with hold | hnew | ⟨-, heq | hnewer⟩
    · rw [hsame, gt_irrefl] at hold
      cases hold
    · rw [hsame, gt_irrefl] at hnew
      cases hnew
    · exact absurd heq (ne_of_newer hend)
    · rw [gt_asymm hend] at hnewer
      cases hnewer
  | chain chain hchain hascending =>
    rw [taken_of_ascending diffs.sorted hchain.links hchain.rising hascending]
    exact ⟨Or.inr hchain.links, fun chain' hchain' ↦ hchain.unique hchain'⟩
  | tooNew entry hnot htooNew =>
    rw [taken_of_tooNew diffs.sorted htooNew]
    exact ⟨Or.inl rfl, fun chain hchain ↦ absurd hchain (hnot chain)⟩

end

namespace ShortRun

def diffOf (startSerial endSerial : UInt32) : InMemoryZoneDiff Unit :=
  ⟨⟨startSerial⟩, ⟨endSerial⟩, ()⟩

end ShortRun

end ZoneDiffs

end Cascade

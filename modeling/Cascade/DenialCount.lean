import Mathlib.Data.List.Lex
import Mathlib.Data.Prod.Lex
import Mathlib.Logic.Equiv.List
import Cascade.Resigning

/-!
# Counting the denial records

`sign_zone` reports how many records were generated for the denial of existence: the length of the
list of records after that step, less its length when the zone was collected.  In between the records of
the keyset are appended and repeated records are removed.
-/

namespace Cascade

open Lib

/-- What tells records apart.  The TTL does not. -/
def StoredRecord.ownerData (r : StoredRecord) : Name × ZoneRecordData := (r.owner, r.data)

namespace Resigning

open Signing (OwnerRrs recordsIter determineSigningConcurrency signThreads sentBatches)

/-- The sorting of the library is by the canonical order of records, which tells those apart that
compare as different. -/
structure CanonicalLib (Key : Type) extends SigningLib Key where
  canonicalLe : Name × ZoneRecordData → Name × ZoneRecordData → Prop
  canonicalLe_antisymm : ∀ a b, canonicalLe a b → canonicalLe b a → a = b
  sort_sorted : ∀ records, ((sort records).map StoredRecord.ownerData).Pairwise canonicalLe
  recordEq_of_ownerData : ∀ r r', r.ownerData = r'.ownerData → recordEq r r' = true

/-- A subtraction of lengths; it panics below zero. -/
def checkedSub (a b : Nat) : Option Nat := if b ≤ a then some (a - b) else none

theorem checkedSub_eq_some_iff {a b c : Nat} : checkedSub a b = some c ↔ a = b + c := by
  unfold checkedSub
  by_cases h : b ≤ a
  · rw [if_pos h, Option.some.injEq]
    omega
  · rw [if_neg h]
    constructor
    · intro hnone
      cases hnone
    · intro heq
      omega

theorem checkedSub_eq_none_iff {a b : Nat} : checkedSub a b = none ↔ a < b := by
  unfold checkedSub
  by_cases h : b ≤ a
  · rw [if_pos h]
    simp [h]
  · rw [if_neg h]
    simp only [true_iff]
    omega

structure DenialCount where
  unsignedRrCount : Nat
  /-- How many records the generation adds. -/
  added : Nat
  denialRrCount : Option Nat
deriving DecidableEq

section

variable {Key : Type} (lib : SigningLib Key) (apex : Name)

/-- `sign_zone` up to the generation of denial records.  Without a signing key it ends before that. -/
def countDenial (content : ZoneContent) (round : Round Key) : Except String (Option DenialCount) :=
  match content.soa with
  | none => .error "SOA not found"
  | some soa =>
    let records := Pipeline.collectZone content
    let unsignedRrCount := records.length
    let records := records ++ round.keyset.dnskeys
    if round.keyset.signingKeys.isEmpty then .ok none
    else do
      let records := dedup lib.recordEq (lib.sort records)
      let unsignedRecords ← lib.addDenial round.denial apex soa records
      .ok (some {
        unsignedRrCount
        added := unsignedRecords.length - records.length
        denialRrCount := checkedSub unsignedRecords.length unsignedRrCount })

-- A run that signs the zone gets to the count.
theorem exists_countDenial_of_signZone {settings : Settings} {content content' : ZoneContent}
    {round : Round Key} (hkeys : round.keyset.signingKeys ≠ [])
    (h : signZone lib settings apex content round = .ok content') :
    ∃ count, countDenial lib apex content round = .ok (some count) := by
  unfold signZone at h
  unfold countDenial
  cases hsoa : content.soa with
  | none =>
    rw [hsoa] at h
    cases h
  | some soa =>
    have hsome : round.keyset.signingKeys.isEmpty = false := by
      rw [List.isEmpty_eq_false_iff]
      exact hkeys
    simp only [hsoa, hsome] at h ⊢
    cases hdenial : lib.addDenial round.denial apex soa
        (dedup lib.recordEq (lib.sort (Pipeline.collectZone content ++ round.keyset.dnskeys))) with
    | error err =>
      rw [hdenial] at h
      cases h
    | ok unsignedRecords => exact ⟨_, rfl⟩

end

section

variable {Key : Type} (lib : CanonicalLib Key) {apex : Name} {content : ZoneContent}
  {round : Round Key} {count : DenialCount}

/-- The number of different records to be signed. -/
def distinct (content : ZoneContent) (round : Round Key) : Nat :=
  ((Pipeline.collectZone content ++ round.keyset.dnskeys).map StoredRecord.ownerData).dedup.length

theorem length_dedup_sort (records : List StoredRecord) :
    (dedup lib.recordEq (lib.sort records)).length =
      (records.map StoredRecord.ownerData).dedup.length := by
  have hantisymm : Std.Antisymm lib.canonicalLe := ⟨lib.canonicalLe_antisymm⟩
  have heq : ∀ x ∈ lib.sort records, ∀ y ∈ lib.sort records,
      lib.recordEq x y = true ↔ x.ownerData = y.ownerData := by
    intro x _ y _
    constructor
    · intro h
      exact Prod.ext (lib.recordEq_data x y h).1 (lib.recordEq_data x y h).2
    · exact lib.recordEq_of_ownerData x y
  rw [length_dedup_of_sorted heq (lib.sort_sorted records)]
  exact ((lib.sort_perm records).map _).dedup.length_eq

-- The lengths before and after the generation.
theorem countDenial_spec
    (h : countDenial lib.toSigningLib apex content round = .ok (some count)) :
    count.denialRrCount = checkedSub (distinct content round + count.added)
      (Pipeline.collectZone content).length := by
  unfold countDenial at h
  cases hsoa : content.soa with
  | none =>
    rw [hsoa] at h
    cases h
  | some soa =>
    simp only [hsoa] at h
    cases hkeys : round.keyset.signingKeys.isEmpty with
    | true =>
      rw [hkeys] at h
      cases h
    | false =>
      rw [hkeys] at h
      cases hdenial : lib.addDenial round.denial apex soa
          (dedup lib.recordEq (lib.sort (Pipeline.collectZone content ++ round.keyset.dnskeys))) with
      | error err =>
        rw [hdenial] at h
        cases h
      | ok unsignedRecords =>
        rw [hdenial] at h
        obtain ⟨generated, -, hperm⟩ := lib.addDenial_spec _ _ _ _ _ hdenial
        have hlength := hperm.length_eq
        rw [List.length_append, length_dedup_sort] at hlength
        cases h
        show checkedSub unsignedRecords.length _ = checkedSub (_ + (unsignedRecords.length - _)) _
        rw [length_dedup_sort, distinct, hlength, Nat.add_sub_cancel_left]

/-- The count does not underflow and is right exactly where there are as many repeated records, among
those of the zone and those of the keyset, as the keyset has records. -/
theorem denialRrCount_iff
    (h : countDenial lib.toSigningLib apex content round = .ok (some count)) :
    count.denialRrCount = some count.added ↔
      distinct content round = (Pipeline.collectZone content).length := by
  rw [countDenial_spec lib h, checkedSub_eq_some_iff]
  omega

-- With that many repeated records the subtraction panics.
theorem denialRrCount_eq_none_iff
    (h : countDenial lib.toSigningLib apex content round = .ok (some count)) :
    count.denialRrCount = none ↔
      distinct content round + count.added < (Pipeline.collectZone content).length := by
  rw [countDenial_spec lib h, checkedSub_eq_none_iff]

end

/-! ## A zone with one key -/

namespace CountExample

open Nsec3Example (apex soa address keyset nsecRound)

def nameCode (name : Name) : List (List Nat) :=
  name.labels.reverse.map (fun label ↦ label.map UInt8.toNat)

def dataCode : ZoneRecordData → List Nat
  | .soa soa =>
    [0, Encodable.encode (nameCode soa.mname), Encodable.encode (nameCode soa.rname),
      soa.serial.val.toNat, soa.refresh.toNat, soa.retry.toNat, soa.expire.toNat,
      soa.minimum.toNat]
  | .other rtype data => 1 :: rtype.code.toNat :: data.map UInt8.toNat

/-- By owner, then by type and data. -/
def code (key : Name × ZoneRecordData) : List (List Nat) ×ₗ List Nat :=
  toLex (nameCode key.1, dataCode key.2)

theorem nameCode_injective : Function.Injective nameCode := by
  intro a b h
  have hlabels : a.labels.reverse = b.labels.reverse :=
    List.map_injective_iff.mpr (List.map_injective_iff.mpr fun _ _ ↦ UInt8.toNat_inj.mp) h
  have heq : a.labels = b.labels := List.reverse_injective hlabels
  cases a
  cases b
  simpa using heq

theorem dataCode_injective : Function.Injective dataCode := by
  intro a b h
  cases a with
  | soa s =>
    cases b with
    | soa t =>
      obtain ⟨mname, rname, ⟨serial⟩, refresh, retry, expire, minimum⟩ := s
      obtain ⟨mname', rname', ⟨serial'⟩, refresh', retry', expire', minimum'⟩ := t
      simp only [dataCode, List.cons.injEq, Encodable.encode_inj, nameCode_injective.eq_iff,
        UInt32.toNat_inj] at h
      grind
    | other rtype data => simp [dataCode] at h
  | other rtype data =>
    cases b with
    | soa t => simp [dataCode] at h
    | other rtype' data' =>
      simp only [dataCode, List.cons.injEq, UInt16.toNat_inj, true_and] at h
      have hdata : data = data' :=
        List.map_injective_iff.mpr (fun _ _ ↦ UInt8.toNat_inj.mp) h.2
      cases rtype
      cases rtype'
      simp_all

theorem code_injective : Function.Injective code := by
  intro a b h
  have hpair : (nameCode a.1, dataCode a.2) = (nameCode b.1, dataCode b.2) := toLex.injective h
  have hname := nameCode_injective (congrArg Prod.fst hpair)
  have hdata := dataCode_injective (congrArg Prod.snd hpair)
  exact Prod.ext hname hdata

def recordLe (r r' : StoredRecord) : Prop := code r.ownerData ≤ code r'.ownerData

instance : DecidableRel recordLe := fun r r' ↦
  inferInstanceAs (Decidable (code r.ownerData ≤ code r'.ownerData))

instance : Std.Total recordLe := ⟨fun r r' ↦ le_total (code r.ownerData) (code r'.ownerData)⟩

instance : IsTrans StoredRecord recordLe := ⟨fun _ _ _ h h' ↦ le_trans h h'⟩

def lib : CanonicalLib UInt8 where
  toSigningLib := { Nsec3Example.lib with
    sort := List.insertionSort recordLe
    sort_perm := fun records ↦ List.perm_insertionSort _ records }
  canonicalLe a b := code a ≤ code b
  canonicalLe_antisymm a b h h' := code_injective (le_antisymm h h')
  sort_sorted records := List.pairwise_map.mpr (List.pairwise_insertionSort recordLe records)
  recordEq_of_ownerData r r' h := by
    apply decide_eq_true
    exact Prod.ext_iff.mp h

/-- Zones with one address, that many times. -/
def zone (times : Nat) : ZoneContent := ⟨some soa, List.replicate times address⟩

def counted (times : Nat) : Except String (Option DenialCount) :=
  countDenial lib.toSigningLib apex (zone times) nsecRound

end CountExample

/-- The address is there twice and makes up for the one DNSKEY record. -/
theorem repeated_address_counted : ∃ count, CountExample.counted 2 = .ok (some count) ∧
    count.denialRrCount = some count.added := by
  have hok : CountExample.counted 2 = .ok (some ⟨2, 1, some 1⟩) := by decide +kernel
  refine ⟨_, hok, ?_⟩
  apply (denialRrCount_iff CountExample.lib hok).mpr
  decide +kernel

/-- The DNSKEY record is counted as a denial record; and with the address four times the subtraction
underflows. -/
theorem denial_miscounted :
    (∃ count, CountExample.counted 1 = .ok (some count) ∧
      count.denialRrCount ≠ some count.added) ∧
    ∃ count, CountExample.counted 4 = .ok (some count) ∧ count.denialRrCount = none := by
  have hone : CountExample.counted 1 = .ok (some ⟨1, 1, some 2⟩) := by decide +kernel
  have hfour : CountExample.counted 4 = .ok (some ⟨4, 1, none⟩) := by decide +kernel
  exact ⟨⟨_, hone, by decide⟩, ⟨_, hfour, rfl⟩⟩

end Resigning

end Cascade

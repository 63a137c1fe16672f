import Mathlib.Data.List.Sort
import Cascade.Lib.Dedup
import Cascade.LightWeightZone
import Cascade.Pipeline
import Cascade.Signing

/-!
# Signing a zone again

What `sign_zone` does with the records of a zone, from the collection to the content of the signed
zone, and what is collected when it is applied to its own result again and again, with other keys
and other policies for denial of existence each time.

The records are those besides the SOA record, which stays the same.
-/

namespace Cascade

open Lib

namespace Resigning

open Signing (SignSorted OwnerRrs recordsIter determineSigningConcurrency signThreads sentBatches)

/-- The keys for one signing run: those that sign, and the records that the state of the keyset has
for the DNSKEY RRset. -/
structure Keyset (Key : Type) where
  dnskeys : List StoredRecord
  signingKeys : List Key

/-- The records are DNSKEY records and signatures. -/
def Keyset.OnlyDnskeys {Key : Type} (keyset : Keyset Key) : Prop :=
  ∀ r ∈ keyset.dnskeys, r.rtype = Rtype.DNSKEY ∨ r.rtype = Rtype.RRSIG

structure Round (Key : Type) where
  denial : SignerDenialPolicy
  keyset : Keyset Key

/-- The settings of the signer. -/
structure Settings where
  treatSingleKeysAsCsks : Bool
  maxConcurrentRrsigGenerationTasks : Nat

/-- What is generated for the denial of existence. -/
def DenialRecords (apex : Name) (generated : List StoredRecord) : SignerDenialPolicy → Prop
  | .NSec => ∀ r ∈ generated, r.rtype = Rtype.NSEC
  | .NSec3 _ => ∃ param nsec3s, generated.Perm (param :: nsec3s) ∧ param.owner = apex ∧
      param.rtype = Rtype.NSEC3PARAM ∧ ∀ r ∈ nsec3s, r.rtype = Rtype.NSEC3

/-- The records of that owner and type have one TTL. -/
def SameTtl (records : List StoredRecord) (owner : Name) (rtype : Rtype) : Prop :=
  ∀ r ∈ records, ∀ r' ∈ records, r.owner = owner → r.rtype = rtype → r'.owner = owner →
    r'.rtype = rtype → r.ttl = r'.ttl

/-- What other libraries do.  Records compare as equal at most for the same owner and data.  A zone
that records are added to has RRsets of the owners and types of these, and where the TTLs do not
differ it has the same records, perhaps without the duplicates. -/
structure SigningLib (Key : Type) where
  sort : List StoredRecord → List StoredRecord
  recordEq : StoredRecord → StoredRecord → Bool
  addDenial : SignerDenialPolicy → Name → Soa → List StoredRecord →
    Except String (List StoredRecord)
  signSorted : Soa → SignSorted Key StoredRecord
  arrive : List (List StoredRecord) → List (List StoredRecord)
  stored : List StoredRecord → List StoredRecord
  sort_perm : ∀ records, (sort records).Perm records
  recordEq_data : ∀ r r', recordEq r r' = true → r.owner = r'.owner ∧ r.data = r'.data
  addDenial_spec : ∀ denial apex soa records out, addDenial denial apex soa records = .ok out →
    ∃ generated, DenialRecords apex generated denial ∧ out.Perm (records ++ generated)
  signSorted_rtype : ∀ soa apex groups keys rrsigs, signSorted soa apex groups keys = .ok rrsigs →
    ∀ r ∈ rrsigs, r.rtype = Rtype.RRSIG
  arrive_perm : ∀ batches, (arrive batches).Perm batches
  stored_rtype : ∀ added owner rtype, (∃ r ∈ stored added, r.owner = owner ∧ r.rtype = rtype) ↔
    ∃ r ∈ added, r.owner = owner ∧ r.rtype = rtype
  stored_same : ∀ added r, SameTtl added r.owner r.rtype →
    (r ∈ stored added ↔ r ∈ added) ∧ (stored added).count r ≤ added.count r

section

variable {Key : Type} (lib : SigningLib Key) (settings : Settings) (apex : Name)

/-- The content of the zone after a call of `sign_zone` that returns `Ok`.  Without a signing key
nothing is signed and the zone stays as it is. -/
def signZone (content : ZoneContent) (round : Round Key) : Except String ZoneContent :=
  match content.soa with
  | none => .error "SOA not found"
  | some soa =>
    let records := Pipeline.collectZone content ++ round.keyset.dnskeys
    let keys := round.keyset.signingKeys
    if keys.isEmpty then .ok content
    else do
      let records := dedup lib.recordEq (lib.sort records)
      let unsignedRecords ← lib.addDenial round.denial apex soa records
      let rrCount := (recordsIter unsignedRecords).length
      let parallelism :=
        (determineSigningConcurrency rrCount settings.maxConcurrentRrsigGenerationTasks).1
      let threads := signThreads (lib.signSorted soa) parallelism unsignedRecords keys apex
        settings.treatSingleKeysAsCsks
      let rrsigs := (lib.arrive (sentBatches threads)).flatten
      if threads.all (fun thread ↦ thread.2.isOk) then
        .ok { soa := some soa, records := lib.stored (rrsigs ++ unsignedRecords) }
      else .error "RRSIG generation error"

/-- What is collected in each of the rounds, if all of them return `Ok`. -/
def collections : ZoneContent → List (Round Key) → Except String (List (List StoredRecord))
  | _, [] => .ok []
  | content, round :: rounds => do
    let content' ← signZone lib settings apex content round
    let later ← collections content' rounds
    .ok (Pipeline.collectZone content :: later)

end

/-! ## Unsigned records -/

/-- A record that signing does not make, of a type that is not taken from an unsigned zone either. -/
def isUnsigned (r : StoredRecord) : Bool :=
  decide (r.rtype ∉ LightWeightZone.signedTypes ++ [Rtype.CDS, Rtype.CDNSKEY])

/-- The content of an unsigned zone: a set of records, those of one RRset with the same TTL. -/
structure UnsignedRecords where
  records : List StoredRecord
  nodup : records.Nodup
  sameTtl : ∀ owner rtype, SameTtl records owner rtype
  unsigned : ∀ r ∈ records, isUnsigned r = true

/-- The zone has these records, beside what signing made. -/
def Holds (u : UnsignedRecords) (records : List StoredRecord) : Prop :=
  (records.filter isUnsigned).Perm u.records

def HasNsec3param (records : List StoredRecord) : Prop :=
  ∃ r ∈ records, r.rtype = Rtype.NSEC3PARAM

theorem isUnsigned_congr {r r' : StoredRecord} (h : r.rtype = r'.rtype) :
    isUnsigned r = isUnsigned r' := by
  unfold isUnsigned
  rw [h]

theorem isUnsigned_of_generated {r : StoredRecord} (h : r.rtype ∈ LightWeightZone.signedTypes) :
    isUnsigned r = false := by
  apply decide_eq_false
  intro hnot
  exact hnot (List.mem_append_left _ h)

-- Generated records do not change what a zone holds.
theorem holds_append_iff {u : UnsignedRecords} {records generated : List StoredRecord}
    (h : ∀ r ∈ generated, r.rtype ∈ LightWeightZone.signedTypes) :
    Holds u (records ++ generated) ↔ Holds u records := by
  have hnone : generated.filter isUnsigned = [] := by
    apply List.filter_eq_nil_iff.mpr
    intro r hr
    rw [isUnsigned_of_generated (h r hr)]
    exact Bool.false_ne_true
  unfold Holds
  rw [List.filter_append, hnone, List.append_nil]

theorem holds_congr {u : UnsignedRecords} {records records' : List StoredRecord}
    (h : records.Perm records') : Holds u records ↔ Holds u records' := by
  have hfilter := h.filter isUnsigned
  exact ⟨hfilter.symm.trans, hfilter.trans⟩

theorem hasNsec3param_congr {records records' : List StoredRecord}
    (h : records.Perm records') : HasNsec3param records ↔ HasNsec3param records' := by
  unfold HasNsec3param
  simp only [h.mem_iff]

theorem hasNsec3param_append (records records' : List StoredRecord) :
    HasNsec3param (records ++ records') ↔ HasNsec3param records ∨ HasNsec3param records' := by
  unfold HasNsec3param
  simp only [List.mem_append, or_and_right, exists_or]

theorem not_hasNsec3param {records : List StoredRecord}
    (h : ∀ r ∈ records, r.rtype ≠ Rtype.NSEC3PARAM) : ¬HasNsec3param records := by
  intro hhas
  have ⟨r, hr, hparam⟩ := hhas
  exact h r hr hparam

/-! ## The steps of one round -/

theorem collectZone_filter (content : ZoneContent) :
    (Pipeline.collectZone content).filter isUnsigned = content.records.filter isUnsigned := by
  unfold Pipeline.collectZone
  rw [List.filter_filter]
  apply List.filter_congr
  intro r _
  unfold isUnsigned LightWeightZone.signedTypes
  by_cases hr : r.rtype ∉ [Rtype.DNSKEY, Rtype.RRSIG, Rtype.NSEC, Rtype.NSEC3, Rtype.CDS,
      Rtype.CDNSKEY]
  · rw [decide_eq_true hr, Bool.and_true]
  · rw [decide_eq_false hr, Bool.and_false]
    symm
    apply decide_eq_false
    simp only [List.mem_append, List.mem_cons] at hr ⊢
    grind

theorem holds_collectZone {u : UnsignedRecords} (content : ZoneContent) :
    Holds u (Pipeline.collectZone content) ↔ Holds u content.records := by
  unfold Holds
  rw [collectZone_filter]

theorem hasNsec3param_collectZone (content : ZoneContent) :
    HasNsec3param (Pipeline.collectZone content) ↔ HasNsec3param content.records := by
  unfold HasNsec3param Pipeline.collectZone
  apply Iff.intro
  · intro h
    have ⟨r, hr, hparam⟩ := h
    exact ⟨r, (List.mem_filter.mp hr).1, hparam⟩
  · intro h
    have ⟨r, hr, hparam⟩ := h
    refine ⟨r, List.mem_filter.mpr ⟨hr, ?_⟩, hparam⟩
    rw [hparam]
    decide

-- NSEC3PARAM is the only type that signing makes and the collection does not leave out.
theorem collectZone_perm_iff {u : UnsignedRecords} {content : ZoneContent}
    (h : Holds u content.records) :
    (Pipeline.collectZone content).Perm u.records ↔ ¬HasNsec3param content.records := by
  rw [← hasNsec3param_collectZone]
  apply Iff.intro
  · intro hperm hhas
    have ⟨r, hr, hparam⟩ := hhas
    have hunsigned := u.unsigned r (hperm.mem_iff.mp hr)
    rw [isUnsigned_of_generated (by rw [hparam]; decide)] at hunsigned
    cases hunsigned
  · intro hnot
    have hall : (Pipeline.collectZone content).filter isUnsigned = Pipeline.collectZone content := by
      apply List.filter_eq_self.mpr
      intro r hr
      have hne : r.rtype ≠ Rtype.NSEC3PARAM := fun hparam ↦ hnot ⟨r, hr, hparam⟩
      have hkept := of_decide_eq_true (List.mem_filter.mp hr).2
      apply decide_eq_true
      unfold LightWeightZone.signedTypes
      simp only [List.mem_append, List.mem_cons] at hkept ⊢
      grind
    rw [← hall, collectZone_filter]
    exact h

theorem mem_of_holds {u : UnsignedRecords} {records : List StoredRecord} (h : Holds u records)
    {r : StoredRecord} (hunsigned : isUnsigned r = true) : r ∈ records ↔ r ∈ u.records := by
  rw [← h.mem_iff, List.mem_filter]
  exact (and_iff_left hunsigned).symm

-- The comparison of records tells those of the zone apart.
theorem holds_dedup {u : UnsignedRecords} {eq : StoredRecord → StoredRecord → Bool}
    (heq : ∀ r r', eq r r' = true → r.owner = r'.owner ∧ r.data = r'.data)
    {records : List StoredRecord} (h : Holds u records) : Holds u (dedup eq records) := by
  unfold Holds
  rw [filter_dedup _ (h.nodup_iff.mpr u.nodup)]
  · exact h
  · intro r hr r' hr' hunsigned hsame
    have ⟨howner, hdata⟩ := heq r' r hsame
    have hrtype : r'.rtype = r.rtype := congrArg ZoneRecordData.rtype hdata
    have hmem : r ∈ u.records :=
      (mem_of_holds h ((isUnsigned_congr hrtype).symm.trans hunsigned)).mp hr
    have hmem' : r' ∈ u.records := (mem_of_holds h hunsigned).mp hr'
    have httl := u.sameTtl r.owner r.rtype r hmem r' hmem' rfl rfl howner hrtype
    cases r
    cases r'
    simp only at howner hdata httl
    rw [howner, hdata, httl]

theorem hasNsec3param_dedup {eq : StoredRecord → StoredRecord → Bool}
    (heq : ∀ r r', eq r r' = true → r.owner = r'.owner ∧ r.data = r'.data)
    (records : List StoredRecord) : HasNsec3param (dedup eq records) ↔ HasNsec3param records := by
  unfold HasNsec3param
  apply Iff.intro
  · intro h
    have ⟨r, hr, hparam⟩ := h
    exact ⟨r, mem_of_mem_dedup hr, hparam⟩
  · intro h
    have ⟨r, hr, hparam⟩ := h
    have ⟨kept, hkept, hor⟩ := exists_mem_dedup eq hr
    refine ⟨kept, hkept, ?_⟩
    cases hor with
    | inl hsame => rw [hsame, hparam]
    | inr hsame =>
      have hrtype : r.rtype = kept.rtype := congrArg ZoneRecordData.rtype (heq r kept hsame).2
      rw [← hrtype, hparam]

section

variable {Key : Type} (lib : SigningLib Key)

-- The TTLs of the zone's own RRsets do not differ, so all of their records are stored as they are.
theorem holds_stored {u : UnsignedRecords} {added : List StoredRecord} (h : Holds u added) :
    Holds u (lib.stored added) := by
  have hsame : ∀ r, isUnsigned r = true → SameTtl added r.owner r.rtype := by
    intro r hunsigned r1 hr1 r2 hr2 howner1 hrtype1 howner2 hrtype2
    have hmem1 := (mem_of_holds h ((isUnsigned_congr hrtype1).trans hunsigned)).mp hr1
    have hmem2 := (mem_of_holds h ((isUnsigned_congr hrtype2).trans hunsigned)).mp hr2
    exact u.sameTtl r.owner r.rtype r1 hmem1 r2 hmem2 howner1 hrtype1 howner2 hrtype2
  have hnodup : ((lib.stored added).filter isUnsigned).Nodup := by
    apply List.nodup_iff_count_le_one.mpr
    intro r
    cases hunsigned : isUnsigned r with
    | false =>
      have hnot : r ∉ (lib.stored added).filter isUnsigned := by
        intro hr
        have hp := (List.mem_filter.mp hr).2
        rw [hunsigned] at hp
        cases hp
      rw [List.count_eq_zero.mpr hnot]
      omega
    | true =>
      calc
        ((lib.stored added).filter isUnsigned).count r = (lib.stored added).count r :=
          List.count_filter hunsigned
        _ ≤ added.count r := (lib.stored_same added r (hsame r hunsigned)).2
        _ = (added.filter isUnsigned).count r := (List.count_filter hunsigned).symm
        _ ≤ 1 := List.nodup_iff_count_le_one.mp (h.nodup_iff.mpr u.nodup) r
  apply (List.perm_ext_iff_of_nodup hnodup u.nodup).mpr
  intro r
  rw [← h.mem_iff, List.mem_filter, List.mem_filter]
  apply and_congr_left
  intro hunsigned
  exact (lib.stored_same added r (hsame r hunsigned)).1

theorem hasNsec3param_stored (added : List StoredRecord) :
    HasNsec3param (lib.stored added) ↔ HasNsec3param added := by
  unfold HasNsec3param
  apply Iff.intro
  · intro h
    have ⟨r, hr, hparam⟩ := h
    have ⟨r', hr', _, hparam'⟩ :=
      (lib.stored_rtype added r.owner Rtype.NSEC3PARAM).mp ⟨r, hr, rfl, hparam⟩
    exact ⟨r', hr', hparam'⟩
  · intro h
    have ⟨r, hr, hparam⟩ := h
    have ⟨r', hr', _, hparam'⟩ :=
      (lib.stored_rtype added r.owner Rtype.NSEC3PARAM).mpr ⟨r, hr, rfl, hparam⟩
    exact ⟨r', hr', hparam'⟩

/-- The zone is signed with NSEC3. -/
def Round.AddsNsec3param (round : Round Key) : Prop :=
  round.keyset.signingKeys ≠ [] ∧ ∃ optOut, round.denial = .NSec3 optOut

theorem denialRecords_rtype {apex : Name} {generated : List StoredRecord}
    {denial : SignerDenialPolicy} (h : DenialRecords apex generated denial) :
    ∀ r ∈ generated, r.rtype ∈ LightWeightZone.signedTypes := by
  intro r hr
  cases denial with
  | NSec =>
    rw [h r hr]
    decide
  | NSec3 optOut =>
    have ⟨param, nsec3s, hperm, _, hparam, hnsec3s⟩ := h
    cases List.mem_cons.mp (hperm.mem_iff.mp hr) with
    | inl hsame =>
      rw [hsame, hparam]
      decide
    | inr hmem =>
      rw [hnsec3s r hmem]
      decide

theorem denialRecords_hasNsec3param {apex : Name} {generated : List StoredRecord}
    {denial : SignerDenialPolicy} (h : DenialRecords apex generated denial) :
    HasNsec3param generated ↔ ∃ optOut, denial = .NSec3 optOut := by
  cases denial with
  | NSec =>
    apply iff_of_false
    · apply not_hasNsec3param
      intro r hr
      rw [h r hr]
      decide
    · intro hsome
      cases hsome.choose_spec
  | NSec3 optOut =>
    have ⟨param, nsec3s, hperm, _, hparam, _⟩ := h
    apply iff_of_true
    · exact ⟨param, hperm.mem_iff.mpr List.mem_cons_self, hparam⟩
    · exact ⟨optOut, rfl⟩

theorem sent_rtype {soa : Soa} {parallelism : Nat} {records : List StoredRecord}
    {keys : List Key} {apex : Name} {treat : Bool} :
    ∀ r ∈ (lib.arrive (sentBatches
        (signThreads (lib.signSorted soa) parallelism records keys apex treat))).flatten,
      r.rtype = Rtype.RRSIG := by
  intro r hr
  obtain ⟨batch, hbatch, hrbatch⟩ := List.mem_flatten.mp hr
  obtain ⟨groups, hsign⟩ := Signing.exists_of_mem_sentBatches
    ((lib.arrive_perm _).mem_iff.mp hbatch)
  exact lib.signSorted_rtype soa apex groups keys batch hsign r hrbatch

theorem Keyset.OnlyDnskeys.signedTypes {keyset : Keyset Key} (h : keyset.OnlyDnskeys) :
    ∀ r ∈ keyset.dnskeys, r.rtype ∈ LightWeightZone.signedTypes := by
  intro r hr
  cases h r hr with
  | inl hdnskey =>
    rw [hdnskey]
    decide
  | inr hrrsig =>
    rw [hrrsig]
    decide

theorem Keyset.OnlyDnskeys.not_hasNsec3param {keyset : Keyset Key} (h : keyset.OnlyDnskeys) :
    ¬HasNsec3param keyset.dnskeys := by
  apply Resigning.not_hasNsec3param
  intro r hr
  cases h r hr with
  | inl hdnskey =>
    rw [hdnskey]
    decide
  | inr hrrsig =>
    rw [hrrsig]
    decide

-- A round keeps the records of the zone; an NSEC3PARAM record, once there, stays.
theorem signZone_spec {u : UnsignedRecords} {settings : Settings} {apex : Name}
    {content content' : ZoneContent} {round : Round Key} (hu : Holds u content.records)
    (hkeyset : round.keyset.OnlyDnskeys)
    (h : signZone lib settings apex content round = .ok content') :
    Holds u content'.records ∧
      (HasNsec3param content'.records ↔
        HasNsec3param content.records ∨ round.AddsNsec3param) := by
  unfold signZone at h
  cases hsoa : content.soa with
  | none =>
    rw [hsoa] at h
    cases h
  | some soa =>
    simp only [hsoa] at h
    cases hkeys : round.keyset.signingKeys with
    | nil =>
      simp only [hkeys, List.isEmpty_nil, if_true, Except.ok.injEq] at h
      subst h
      have hnot : ¬round.AddsNsec3param := fun hadds ↦ hadds.1 hkeys
      exact ⟨hu, (or_iff_left hnot).symm⟩
    | cons key keys =>
      simp only [hkeys, List.isEmpty_cons, Bool.false_eq_true, if_false] at h
      obtain ⟨unsignedRecords, hdenial, h⟩ := except_bind_ok h
      split at h
      · cases h
        obtain ⟨generated, hgenerated, hout⟩ := lib.addDenial_spec _ _ _ _ _ hdenial
        -- up to the DNSKEY records
        have hcollected : Holds u (Pipeline.collectZone content ++ round.keyset.dnskeys) := by
          rw [holds_append_iff hkeyset.signedTypes, holds_collectZone]
          exact hu
        have hcollectedParam := hasNsec3param_append (Pipeline.collectZone content)
          round.keyset.dnskeys
        rw [or_iff_left hkeyset.not_hasNsec3param, hasNsec3param_collectZone] at hcollectedParam
        -- sorted, and without duplicates
        have hsorted := holds_dedup lib.recordEq_data
          ((holds_congr (lib.sort_perm _)).mpr hcollected)
        have hsortedParam := (hasNsec3param_dedup lib.recordEq_data _).trans
          ((hasNsec3param_congr (lib.sort_perm _)).trans hcollectedParam)
        -- with the records for denial of existence
        have hdenied : Holds u unsignedRecords := by
          rw [holds_congr hout, holds_append_iff (denialRecords_rtype hgenerated)]
          exact hsorted
        have hdeniedParam := (hasNsec3param_congr hout).trans (hasNsec3param_append _ generated)
        rw [hsortedParam, denialRecords_hasNsec3param hgenerated] at hdeniedParam
        -- and with the signatures, in the zone
        have hadds : round.AddsNsec3param ↔ ∃ optOut, round.denial = .NSec3 optOut := by
          apply and_iff_right
          rw [hkeys]
          exact List.cons_ne_nil key keys
        refine ⟨?_, ?_⟩
        · apply holds_stored
          rw [holds_congr List.perm_append_comm,
            holds_append_iff (by intro r hr; rw [sent_rtype lib r hr]; decide)]
          exact hdenied
        · rw [hasNsec3param_stored, hasNsec3param_append,
            or_iff_right (not_hasNsec3param (by intro r hr; rw [sent_rtype lib r hr]; decide)),
            hdeniedParam, hadds]
      · cases h

/-! ## All rounds -/

-- By induction on the rounds; of the last one only the collection counts, not what is published.
theorem collections_perm_iff {u : UnsignedRecords} {settings : Settings} {apex : Name}
    {rounds : List (Round Key)} {content : ZoneContent} {collected : List (List StoredRecord)}
    (hu : Holds u content.records) (hkeysets : ∀ round ∈ rounds, round.keyset.OnlyDnskeys)
    (h : collections lib settings apex content rounds = .ok collected) :
    (∀ records ∈ collected, records.Perm u.records) ↔
      (rounds ≠ [] → ¬HasNsec3param content.records) ∧
        ∀ round ∈ rounds.dropLast, ¬round.AddsNsec3param := by
  induction rounds generalizing content collected with
  | nil =>
    cases h
    simp
  | cons round rounds ih =>
    obtain ⟨content', hsign, h⟩ := except_bind_ok h
    obtain ⟨later, hlater, h⟩ := except_bind_ok h
    cases h
    rw [List.forall_mem_cons] at hkeysets
    have ⟨hu', hparam⟩ := signZone_spec lib hu hkeysets.1 hsign
    rw [List.forall_mem_cons, ih hu' hkeysets.2 hlater, collectZone_perm_iff hu, hparam, not_or]
    cases rounds with
    | nil => simp
    | cons next rounds =>
      have hlast : (round :: next :: rounds).dropLast = round :: (next :: rounds).dropLast := rfl
      have hne : round :: next :: rounds ≠ [] := List.cons_ne_nil _ _
      have hne' : next :: rounds ≠ [] := List.cons_ne_nil _ _
      rw [hlast, List.forall_mem_cons, forall_prop_of_true hne, forall_prop_of_true hne']
      tauto

/-- A zone is signed and then re-signed from its own result in any number of rounds, with keysets
that add DNSKEY records and signatures.  In every one of them exactly the records of the unsigned
zone are collected if and only if none but the last signs with NSEC3. -/
theorem collected_unsigned_iff {settings : Settings} {apex : Name} {soa : Soa}
    {u : UnsignedRecords} {rounds : List (Round Key)} {collected : List (List StoredRecord)}
    (hkeysets : ∀ round ∈ rounds, round.keyset.OnlyDnskeys)
    (h : collections lib settings apex ⟨some soa, u.records⟩ rounds = .ok collected) :
    (∀ records ∈ collected, records.Perm u.records) ↔
      ∀ round ∈ rounds.dropLast, ¬round.AddsNsec3param := by
  have hall : u.records.filter isUnsigned = u.records :=
    List.filter_eq_self.mpr u.unsigned
  have hu : Holds u u.records := List.Perm.of_eq hall
  have hnot : ¬HasNsec3param u.records := by
    intro hhas
    have ⟨r, hr, hparam⟩ := hhas
    have hfalse := isUnsigned_of_generated (r := r) (by rw [hparam]; decide)
    rw [u.unsigned r hr] at hfalse
    cases hfalse
  have hcontent : Holds u (ZoneContent.mk (some soa) u.records).records := hu
  rw [collections_perm_iff lib hcontent hkeysets h]
  exact and_iff_right (fun _ ↦ hnot)

end

/-! ## A zone with one address -/

namespace Nsec3Example

def apex : Name := ⟨[[120, 114]], by decide⟩

/-- The hash of the apex, in the base32 of NSEC3 owner names and as it is. -/
def hashLabel : Label :=
  [117, 112, 48, 49, 105, 53, 52, 106, 99, 101, 113, 118, 99, 106, 116, 118, 110, 56, 53, 115, 108,
    55, 99, 98, 117, 48, 103, 117, 104, 105, 111, 114]

def hash : List UInt8 :=
  [246, 64, 25, 20, 147, 99, 181, 246, 79, 191, 186, 11, 202, 157, 139, 240, 33, 232, 203, 27]

def record (owner : Name) (rtype : Rtype) (data : List UInt8) : StoredRecord :=
  { owner, ttl := 300, data := .other rtype data }

def address : StoredRecord := record apex Rtype.A [192, 0, 2, 1]

def soa : Soa :=
  { mname := apex, rname := apex, serial := ⟨1⟩, refresh := 60, retry := 60, expire := 600
    minimum := 300 }

def unsigned : UnsignedRecords where
  records := [address]
  nodup := List.nodup_singleton address
  sameTtl := by
    intro owner rtype r hr r' hr' _ _ _ _
    rw [List.mem_singleton.mp hr, List.mem_singleton.mp hr']
  unsigned := by
    intro r hr
    rw [List.mem_singleton.mp hr]
    decide

/-- The NSEC record of a zone with nothing but its apex, which has the types A, SOA, RRSIG, NSEC and
DNSKEY. -/
def nsec : StoredRecord :=
  record apex Rtype.NSEC ([2, 120, 114, 0] ++ [0, 7, 66, 0, 0, 0, 0, 3, 128])

/-- The NSEC3 and NSEC3PARAM records of such a zone: SHA-1, no iterations and no salt. -/
def nsec3 : StoredRecord :=
  record ⟨[hashLabel, [120, 114]], by decide⟩ Rtype.NSEC3
    ([1, 0, 0, 0, 0, 20] ++ hash ++ [0, 7, 66, 0, 0, 0, 0, 2, 144])

def nsec3param (zone : Name) : StoredRecord := record zone Rtype.NSEC3PARAM [1, 0, 0, 0, 0]

def denialRecords (zone : Name) : SignerDenialPolicy → List StoredRecord
  | .NSec => [nsec]
  | .NSec3 _ => [nsec3param zone, nsec3]

/-- A signature that is the key tag and the type of the RRset. -/
def rrsig (key : UInt8) (r : StoredRecord) : StoredRecord :=
  record r.owner Rtype.RRSIG [r.rtype.code.toUInt8, key]

/-- By owner, and then by type. -/
def canonicalLe (r r' : StoredRecord) : Prop :=
  r.owner.canonicalLe r'.owner ∧ (r.owner = r'.owner → r.rtype.code ≤ r'.rtype.code)

instance (r r' : StoredRecord) : Decidable (canonicalLe r r') := inferInstanceAs (Decidable (_ ∧ _))

def lib : SigningLib UInt8 where
  sort := List.insertionSort canonicalLe
  recordEq r r' := decide (r.owner = r'.owner ∧ r.data = r'.data)
  addDenial denial zone _ records := .ok (records ++ denialRecords zone denial)
  signSorted _ _ groups keys := .ok (groups.flatten.flatMap fun r ↦ keys.map fun key ↦ rrsig key r)
  arrive batches := batches
  stored added := added.dedup
  sort_perm records := List.perm_insertionSort _ records
  recordEq_data _ _ h := of_decide_eq_true h
  addDenial_spec := by
    intro denial zone soa records out h
    cases h
    refine ⟨denialRecords zone denial, ?_, List.Perm.refl _⟩
    cases denial with
    | NSec =>
      intro r hr
      rw [List.mem_singleton.mp hr]
      rfl
    | NSec3 optOut =>
      refine ⟨nsec3param zone, [nsec3], List.Perm.refl _, rfl, rfl, ?_⟩
      intro r hr
      rw [List.mem_singleton.mp hr]
      rfl
  signSorted_rtype := by
    intro soa apex groups keys rrsigs h r hr
    cases h
    obtain ⟨signed, _, hr⟩ := List.mem_flatMap.mp hr
    obtain ⟨key, _, hkey⟩ := List.mem_map.mp hr
    rw [← hkey]
    rfl
  arrive_perm batches := List.Perm.refl batches
  stored_rtype := by
    intro added owner rtype
    simp only [List.mem_dedup]
  stored_same := by
    intro added r _
    exact ⟨List.mem_dedup, (List.dedup_sublist added).count_le r⟩

def keyset : Keyset UInt8 where
  dnskeys := [record apex Rtype.DNSKEY [1, 1, 3, 15, 7]]
  signingKeys := [7]

theorem onlyDnskeys_keyset : keyset.OnlyDnskeys := by
  intro r hr
  rw [List.mem_singleton.mp hr]
  exact Or.inl rfl

def settings : Settings :=
  { treatSingleKeysAsCsks := true, maxConcurrentRrsigGenerationTasks := 4 }

def nsecRound : Round UInt8 := { denial := .NSec, keyset }

def nsec3Round : Round UInt8 := { denial := .NSec3 .Disabled, keyset }

def collected (rounds : List (Round UInt8)) : Except String (List (List StoredRecord)) :=
  collections lib settings apex ⟨some soa, unsigned.records⟩ rounds

end Nsec3Example

/-- Two rounds with NSEC and a last one with NSEC3. -/
theorem nsec_rounds_collect_unsigned : ∃ collected,
    Nsec3Example.collected
        [Nsec3Example.nsecRound, Nsec3Example.nsecRound, Nsec3Example.nsec3Round] = .ok collected ∧
      ∀ records ∈ collected, records.Perm Nsec3Example.unsigned.records := by
  have hok : Nsec3Example.collected
      [Nsec3Example.nsecRound, Nsec3Example.nsecRound, Nsec3Example.nsec3Round] =
        .ok [[Nsec3Example.address], [Nsec3Example.address], [Nsec3Example.address]] := by
    rfl
  refine ⟨_, hok, ?_⟩
  have hkeysets : ∀ round ∈
      [Nsec3Example.nsecRound, Nsec3Example.nsecRound, Nsec3Example.nsec3Round],
      round.keyset.OnlyDnskeys := by
    simp only [List.forall_mem_cons]
    exact ⟨Nsec3Example.onlyDnskeys_keyset, Nsec3Example.onlyDnskeys_keyset,
      Nsec3Example.onlyDnskeys_keyset, List.forall_mem_nil _⟩
  apply (collected_unsigned_iff Nsec3Example.lib hkeysets hok).mpr
  intro round hround hadds
  have hnsec : round = Nsec3Example.nsecRound := by
    have hcases := hround
    simp only [List.dropLast, List.mem_cons, List.not_mem_nil, or_false, or_self] at hcases
    exact hcases
  rw [hnsec] at hadds
  cases hadds.2.choose_spec

/-- Signed with NSEC3 and then signed again, with NSEC: the NSEC3PARAM record of the first round is
collected as one of the zone's own. -/
theorem nsec3param_collected : ∃ collected,
    Nsec3Example.collected [Nsec3Example.nsec3Round, Nsec3Example.nsecRound] = .ok collected ∧
      (∃ records ∈ collected, Nsec3Example.nsec3param Nsec3Example.apex ∈ records) ∧
      ¬∀ records ∈ collected, records.Perm Nsec3Example.unsigned.records := by
  have hok : Nsec3Example.collected [Nsec3Example.nsec3Round, Nsec3Example.nsecRound] =
      .ok [[Nsec3Example.address],
        [Nsec3Example.address, Nsec3Example.nsec3param Nsec3Example.apex]] := by
    rfl
  refine ⟨_, hok, ?_, ?_⟩
  · exact ⟨_, List.mem_cons_of_mem _ List.mem_cons_self,
      List.mem_cons_of_mem _ List.mem_cons_self⟩
  · intro hall
    have hperm := hall _ (List.mem_cons_of_mem _ List.mem_cons_self)
    exact absurd hperm.length_eq (by decide)

end Resigning

end Cascade

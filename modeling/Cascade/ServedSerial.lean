import Cascade.Lib.History
import Cascade.Serials

/-!
# The serials that readers see

A zone that is signed again is signed under the serial of the published one, which is read before the
zone to sign into is chosen, so that a newer version may be published in between.  As long as none
is, readers see no serial that is older than the one before.
-/

namespace Cascade

open Lib

namespace Pipeline

/-- The pipeline, with the serials that the unsigned zones have had and those that readers have seen
of the published ones, the newest first. -/
structure Versioned where
  pipeline : Pipeline
  versions : List (Name × Serial)
  seen : Name → List Serial

namespace Versioned

def step (w : Versioned) (a : Action) : Option Versioned :=
  match w.pipeline.step a with
  | some p' =>
    some ⟨p', w.versions ++ (w.pipeline.newVersion a).toList,
      fun n ↦ observe (p'.publishedSerial n) (w.seen n)⟩
  | none => none

def Started (w : Versioned) : Prop :=
  w.pipeline.Started ∧ w.versions = [] ∧ w.seen = fun _ ↦ []

/-- A new version of an unsigned zone has a newer serial than all before, or the serial it had. -/
def newest (w : Versioned) (a : Action) : Bool :=
  match w.pipeline.newVersion a with
  | some (n, s) => w.versions.all (fun v ↦ decide (v.1 ≠ n) || s.ge v.2)
  | none => true

/-- When a zone is signed again, readers have seen no newer serial than the one it is signed under. -/
def resignsLatest (w : Versioned) : Action → Bool
  | .signerNext _ =>
    match w.pipeline.signer with
    | .collected ⟨n, none, _⟩ soa _ _ _ => (w.seen n).head?.all (fun t ↦ soa.value.serial.ge t)
    | _ => true
  | _ => true

def ordered (w : Versioned) (a : Action) : Bool :=
  w.newest a && w.pipeline.registersOnce a && w.resignsLatest a

/-- Readers have seen no newer serial. -/
def Covers (w : Versioned) (n : Name) (s : Serial) : Prop :=
  ∀ t, (w.seen n).head? = some t → s.ge t = true

/-- Readers have seen no newer serial than that of the signed zone. -/
def Fresh (w : Versioned) (n : Name) (handle : Handle) : Prop :=
  ∀ s, w.pipeline.signedSerial n handle = some s → w.Covers n s

/-- The invariant. -/
structure Ordered (w : Versioned) : Prop where
  nested : w.pipeline.Nested
  single : ∀ n, w.pipeline.unsignedHeap.next n ≤ 1
  unsigned : ∀ n handle s, w.pipeline.unsignedSerial n handle = some s →
    (n, s) ∈ w.versions ∧ ∀ t, (n, t) ∈ w.versions → s.ge t = true
  signed : ∀ n handle s, w.pipeline.signedSerial n handle = some s → (n, s) ∈ w.versions
  seen : ∀ n, ∀ s ∈ w.seen n, (n, s) ∈ w.versions
  shown : ∀ n s, w.pipeline.publishedSerial n = some s → (w.seen n).head? = some s
  chain : ∀ n, (w.seen n).IsChain (fun new old ↦ new.ge old = true)
  /-- An unsigned version that is being signed is the newest one. -/
  read : ∀ job soa, w.pipeline.signer.soaJob = some (job, soa) →
    (job.zoneName, soa.serial) ∈ w.versions ∧ (job.zoneSerial.isSome = true →
      w.Covers job.zoneName soa.serial ∧ ∀ handle t,
        w.pipeline.signedSerial job.zoneName handle = some t → soa.serial.ge t = true)
  tree : ∀ n handle, w.pipeline.signedZones.lookup n = some handle → w.Fresh n handle
  creating : ∀ job soa zones handle, w.pipeline.signer = .creating job soa zones handle →
    w.pipeline.signedSerial job.zoneName handle = none ∧
      ∀ n h, zones.lookup n = some h → w.Fresh n h

variable {w w' : Versioned} {a : Action}

theorem step_eq (h : w.step a = some w') : w.pipeline.step a = some w'.pipeline ∧
    w'.versions = w.versions ++ (w.pipeline.newVersion a).toList ∧
    ∀ n, w'.seen n = observe (w'.pipeline.publishedSerial n) (w.seen n) := by
  unfold Versioned.step at h
  split at h
  next hp' =>
    cases h
    exact ⟨hp', rfl, fun _ ↦ rfl⟩
  · cases h

theorem ordered_started (h : w.Started) : w.Ordered := by
  have ⟨hp, hversions, hseen⟩ := h
  have hnested := nested_started hp
  have ⟨center, rsHooks, rs2Hooks, _, hnew⟩ := hp
  have hunsigned : ∀ n handle, w.pipeline.unsignedSerial n handle = none := by
    intro n handle
    rw [hnew]
    rfl
  have hsigned : ∀ n handle, w.pipeline.signedSerial n handle = none := by
    intro n handle
    rw [hnew]
    rfl
  have hpublished : ∀ n, w.pipeline.publishedSerial n = none := by
    intro n
    rw [hnew]
    rfl
  have hsigner : w.pipeline.signer = .idle := by rw [hnew]; rfl
  refine ⟨hnested, ?_, ?_, ?_, ?_, ?_, ?_, ?_, ?_, ?_⟩
  · intro n
    rw [hnew]
    exact Nat.zero_le 1
  · intro n handle s hs
    rw [hunsigned] at hs
    cases hs
  · intro n handle s hs
    rw [hsigned] at hs
    cases hs
  · intro n s hs
    rw [hseen] at hs
    cases hs
  · intro n s hs
    rw [hpublished] at hs
    cases hs
  · intro n
    rw [hseen]
    exact List.isChain_nil
  · intro job soa hjob
    rw [hsigner] at hjob
    cases hjob
  · intro n handle _ s hs
    rw [hsigned] at hs
    cases hs
  · intro job soa zones handle hpc
    rw [hsigner] at hpc
    cases hpc

theorem mem_versions (h : w.step a = some w') {v : Name × Serial} (hv : v ∈ w.versions) :
    v ∈ w'.versions := by
  rw [(step_eq h).2.1]
  exact List.mem_append_left _ hv

theorem Covers.step (h : w.step a = some w') {n : Name} {s : Serial} (hs : w.Covers n s)
    (hnow : ∀ t, w'.pipeline.publishedSerial n = some t → s.ge t = true) : w'.Covers n s := by
  intro t ht
  rw [(step_eq h).2.2 n] at ht
  rcases head?_of_observe ht with hnew | hold
  · exact hnow t hnew
  · exact hs t hold

-- Nothing changes for readers of a zone that is published as before.
theorem Ordered.seen_of_same (hinv : w.Ordered) (h : w.step a = some w') {n : Name}
    (hsame : w'.pipeline.publishedSerial n = w.pipeline.publishedSerial n) :
    w'.seen n = w.seen n := by
  rw [(step_eq h).2.2 n, hsame]
  exact observe_of_shown (hinv.shown n)

theorem Ordered.fresh_of_same (hinv : w.Ordered) (h : w.step a = some w') {n : Name}
    {handle : Handle}
    (hserial : w'.pipeline.signedSerial n handle = w.pipeline.signedSerial n handle)
    (hpublished : w'.pipeline.publishedSerial n = w.pipeline.publishedSerial n)
    (hfresh : w.Fresh n handle) : w'.Fresh n handle := by
  intro s hs t ht
  rw [hserial] at hs
  rw [hinv.seen_of_same h hpublished] at ht
  exact hfresh s hs t ht

-- What is signed now is no older than what readers have seen: a new version is the newest one, and
-- readers must not have seen a newer one than a zone that is signed again.
theorem Ordered.covers_collected (hinv : w.Ordered) {records : List StoredRecord} {job : SignJob}
    {soa : SignRead Soa} {handle : Handle} {policy : PolicyVersion}
    {collected : SignRead (List StoredRecord)} (hok : w.resignsLatest (.signerNext records) = true)
    (hpc : w.pipeline.signer = .collected job soa handle policy collected) :
    w.Covers job.zoneName soa.value.serial := by
  have hjob : w.pipeline.signer.soaJob = some (job, soa.value) := by rw [hpc]; rfl
  cases hserial : job.zoneSerial with
  | some s => exact ((hinv.read job soa.value hjob).2 (by rw [hserial]; rfl)).1
  | none =>
    rcases job with ⟨n, serial, read⟩
    cases hserial
    simp only [resignsLatest, hpc] at hok
    intro t ht
    rw [ht] at hok
    exact hok

-- What the signer has read now or before.
theorem Ordered.read_of_step (hinv : w.Ordered) (h : w.step a = some w') {job : SignJob} {soa : Soa}
    (hjob : w'.pipeline.signer.soaJob = some (job, soa)) :
    (job.zoneName, soa.serial) ∈ w.versions ∧ (job.zoneSerial.isSome = true →
      w.Covers job.zoneName soa.serial ∧ ∀ handle t,
        w.pipeline.signedSerial job.zoneName handle = some t → soa.serial.ge t = true) := by
  rcases soaJob_of_step (step_eq h).1 hjob with hold | ⟨_, hunsigned | ⟨hnone, hsigned⟩⟩
  · exact hinv.read job soa hold
  · have ⟨hmem, hnewest⟩ := hinv.unsigned job.zoneName job.handle soa.serial hunsigned
    refine ⟨hmem, ?_⟩
    intro _
    refine ⟨?_, ?_⟩
    · intro t ht
      exact hnewest t (hinv.seen job.zoneName t (List.mem_of_head? ht))
    · intro handle t ht
      exact hnewest t (hinv.signed job.zoneName handle t ht)
  · refine ⟨hinv.signed job.zoneName job.handle soa.serial hsigned, ?_⟩
    intro hsome
    rw [hnone] at hsome
    cases hsome

-- What the publication server publishes is the zone in the tree.
theorem Ordered.publishedSerial_publish (hinv : w.Ordered) {n : Name} {handle : Handle}
    {signed published : ZoneTree} (hpc : w.pipeline.publisher = .adding n handle signed published)
    (hp' : w'.pipeline = { w.pipeline with
      publishedZones := (published.erase n).insert n handle
      publisher := .removing n signed }) :
    w.pipeline.signedZones.lookup n = some handle ∧
      w'.pipeline.publishedSerial n = w.pipeline.signedSerial n handle ∧
      ∀ m, m ≠ n → w'.pipeline.publishedSerial m = w.pipeline.publishedSerial m := by
  have ⟨htree, hsame⟩ := hinv.nested.adding n handle signed published hpc
  refine ⟨htree, ?_, ?_⟩
  · rw [hp', publishedSerial, AList.lookup_insert]
    rfl
  · intro m hm
    rw [hp', publishedSerial, AList.lookup_insert_ne hm, AList.lookup_erase_ne hm, hsame]
    rfl

theorem Ordered.fresh_publish (hinv : w.Ordered) (h : w.step a = some w') {n : Name}
    {handle : Handle} {signed published : ZoneTree}
    (hpc : w.pipeline.publisher = .adding n handle signed published)
    (hp' : w'.pipeline = { w.pipeline with
      publishedZones := (published.erase n).insert n handle
      publisher := .removing n signed })
    {m : Name} {h' : Handle} (hsame : m = n → h' = handle) (hfresh : w.Fresh m h') :
    w'.Fresh m h' := by
  have ⟨_, hnow, hother⟩ := hinv.publishedSerial_publish hpc hp'
  have hserial : w'.pipeline.signedSerial m h' = w.pipeline.signedSerial m h' := by
    rw [hp']
    rfl
  by_cases hm : m = n
  · intro s hs
    rw [hserial] at hs
    refine (hfresh s hs).step h ?_
    -- readers now see the serial of this very zone
    intro t ht
    rw [hm, hnow, ← hm, ← hsame hm, hs] at ht
    rw [Option.some.inj ht]
    exact Serial.ge_refl t
  · exact hinv.fresh_of_same h hserial (hother m hm) hfresh

theorem Ordered.fresh_commit (hinv : w.Ordered) (h : w.step a = some w') {n : Name}
    {handle : Handle} {soa : Soa} {records : List StoredRecord} {z : ZoneSigner}
    (hcovers : w.Covers n soa.serial)
    (hp' : w'.pipeline = { w.pipeline with
      signedHeap := w.pipeline.signedHeap.set n handle ⟨some soa, records⟩
      signer := z }) : w'.Fresh n handle := by
  intro s hs
  rw [hp'] at hs
  have heq : s = soa.serial := by
    rcases signedSerial_set hs with ⟨_, _, heq⟩ | ⟨hne, _⟩
    · exact heq
    · exact absurd ⟨rfl, rfl⟩ hne
  rw [heq]
  refine hcovers.step h ?_
  intro t ht
  have ⟨h', hlookup, hserial⟩ := signedSerial_of_published ht
  rw [hp'] at hlookup hserial
  rcases signedSerial_set hserial with ⟨_, _, ht'⟩ | ⟨_, hold⟩
  · rw [ht']
    exact Serial.ge_refl soa.serial
  · -- readers see what they have seen last
    have hshown : w.pipeline.publishedSerial n = some t :=
      Option.bind_eq_some_iff.mpr ⟨h', hlookup, hold⟩
    exact hcovers t (hinv.shown n t hshown)

-- The other names keep their serials.
theorem serials_of_commit {n m : Name} {handle : Handle} {soa : Soa}
    {records : List StoredRecord} {z : ZoneSigner}
    (hp' : w'.pipeline = { w.pipeline with
      signedHeap := w.pipeline.signedHeap.set n handle ⟨some soa, records⟩
      signer := z }) (hm : m ≠ n) :
    (∀ h, w'.pipeline.signedSerial m h = w.pipeline.signedSerial m h) ∧
      w'.pipeline.publishedSerial m = w.pipeline.publishedSerial m := by
  have hserial : ∀ h, w'.pipeline.signedSerial m h = w.pipeline.signedSerial m h := by
    intro h
    unfold signedSerial
    rw [hp', Heap.get_set, if_neg (fun hboth ↦ hm hboth.1)]
  refine ⟨hserial, ?_⟩
  unfold publishedSerial
  rw [hp']
  cases hlookup : w.pipeline.publishedZones.lookup m with
  | none => rfl
  | some h =>
    rw [← hp']
    exact hserial h

-- Whatever readers see next is no older than what they have seen last.
theorem Ordered.publishedSerial_of_step (hinv : w.Ordered) (hok : w.resignsLatest a = true)
    (h : w.step a = some w') {n : Name} {s : Serial}
    (hs : w'.pipeline.publishedSerial n = some s) :
    (w.seen n).head? = some s ∨ (n, s) ∈ w.versions ∧ w.Covers n s := by
  cases serialStep_of_step (step_eq h).1 with
  | @commit records job soa handle policy collected hpc hp' =>
    have hjob : w.pipeline.signer.soaJob = some (job, soa.value) := by rw [hpc]; rfl
    have ⟨h', hlookup, hserial⟩ := signedSerial_of_published hs
    rw [hp'] at hlookup hserial
    rcases signedSerial_set hserial with ⟨hn, _, heq⟩ | ⟨_, hold⟩
    · rw [hn, heq]
      exact Or.inr ⟨(hinv.read job soa.value hjob).1, hinv.covers_collected hok hpc⟩
    · exact Or.inl (hinv.shown n s (Option.bind_eq_some_iff.mpr ⟨h', hlookup, hold⟩))
  | @publish m handle signed published hpc hp' =>
    have ⟨htree, hnow, hother⟩ := hinv.publishedSerial_publish hpc hp'
    by_cases hn : n = m
    · rw [hn] at hs ⊢
      rw [hnow] at hs
      exact Or.inr ⟨hinv.signed m handle s hs, hinv.tree m handle htree s hs⟩
    · rw [hother n hn] at hs
      exact Or.inl (hinv.shown n s hs)
  | keep hserial hpublished =>
    rw [publishedSerial_of_keep hserial hpublished] at hs
    exact Or.inl (hinv.shown n s hs)

theorem Ordered.unsigned_of_step (hinv : w.Ordered) (hnewest : w.newest a = true)
    (honce : w.pipeline.registersOnce a = true) (h : w.step a = some w') {n : Name}
    {handle : Handle} {s : Serial} (hs : w'.pipeline.unsignedSerial n handle = some s) :
    (n, s) ∈ w'.versions ∧ ∀ t, (n, t) ∈ w'.versions → s.ge t = true := by
  have ⟨hp', hversions, _⟩ := step_eq h
  have hstep := unsignedStep_of_step honce hp'
  rw [hversions]
  rcases unsignedSerial_of_step hinv.single hstep hs with hnew | ⟨hold, hnone⟩
  · simp only [newest, hnew] at hnewest
    rw [hnew]
    refine ⟨List.mem_append_right _ List.mem_cons_self, ?_⟩
    intro t ht
    rcases List.mem_append.mp ht with hbefore | hnow
    · simpa using List.all_eq_true.mp hnewest (n, t) hbefore
    · have heq : (n, t) = (n, s) := List.mem_singleton.mp hnow
      rw [(Prod.mk.inj heq).2]
      exact Serial.ge_refl s
  · have ⟨hmem, hcovers⟩ := hinv.unsigned n handle s hold
    refine ⟨List.mem_append_left _ hmem, ?_⟩
    intro t ht
    rcases List.mem_append.mp ht with hbefore | hnow
    · exact hcovers t hbefore
    · exact absurd (Option.mem_toList.mp hnow) (hnone t)

theorem Ordered.signed_of_step (hinv : w.Ordered) (h : w.step a = some w') {n : Name}
    {handle : Handle} {s : Serial} (hs : w'.pipeline.signedSerial n handle = some s) :
    (n, s) ∈ w.versions := by
  cases serialStep_of_step (step_eq h).1 with
  | @commit records job soa handle' policy collected hpc hp' =>
    have hjob : w.pipeline.signer.soaJob = some (job, soa.value) := by rw [hpc]; rfl
    rw [hp'] at hs
    rcases signedSerial_set hs with ⟨hn, _, heq⟩ | ⟨_, hold⟩
    · rw [hn, heq]
      exact (hinv.read job soa.value hjob).1
    · exact hinv.signed n handle s hold
  | publish _ hp' =>
    rw [hp'] at hs
    exact hinv.signed n handle s hs
  | keep hserial _ =>
    rw [hserial] at hs
    exact hinv.signed n handle s hs

theorem Ordered.covers_of_read (hinv : w.Ordered) (h : w.step a = some w') {job : SignJob}
    {soa : Soa} (hjob : w'.pipeline.signer.soaJob = some (job, soa))
    (hserial : job.zoneSerial.isSome = true) :
    w'.Covers job.zoneName soa.serial ∧ ∀ handle t,
      w'.pipeline.signedSerial job.zoneName handle = some t → soa.serial.ge t = true := by
  have ⟨_, hread⟩ := hinv.read_of_step h hjob
  have ⟨hcovers, hsigned⟩ := hread hserial
  have hsame : ∀ n handle,
      w'.pipeline.signedSerial n handle = w.pipeline.signedSerial n handle := by
    cases serialStep_of_step (step_eq h).1 with
    | commit _ hp' =>
      -- the signer has finished the job
      rw [hp'] at hjob
      cases hjob
    | publish _ hp' =>
      rw [hp']
      exact fun _ _ ↦ rfl
    | keep hserial _ => exact hserial
  refine ⟨hcovers.step h ?_, ?_⟩
  · intro t ht
    have ⟨handle, _, hserial⟩ := signedSerial_of_published ht
    rw [hsame] at hserial
    exact hsigned handle t hserial
  · intro handle t ht
    rw [hsame] at ht
    exact hsigned handle t ht

theorem Ordered.tree_of_step (hinv : w.Ordered) (hok : w.resignsLatest a = true)
    (h : w.step a = some w') {n : Name} {handle : Handle}
    (hlookup : w'.pipeline.signedZones.lookup n = some handle) : w'.Fresh n handle := by
  cases serialStep_of_step (step_eq h).1 with
  | @commit records job soa target policy collected hpc hp' =>
    rw [hp'] at hlookup
    by_cases hn : n = job.zoneName
    · have htarget : w.pipeline.signer.target = some (job.zoneName, target) := by rw [hpc]; rfl
      rw [hn] at hlookup ⊢
      rw [hinv.nested.target job.zoneName target htarget handle hlookup]
      exact hinv.fresh_commit h (hinv.covers_collected hok hpc) hp'
    · have ⟨hserial, hpublished⟩ := serials_of_commit hp' hn
      exact hinv.fresh_of_same h (hserial handle) hpublished (hinv.tree n handle hlookup)
  | @publish m published _ _ hpc hp' =>
    have ⟨htree, _⟩ := hinv.publishedSerial_publish hpc hp'
    rw [hp'] at hlookup
    refine hinv.fresh_publish h hpc hp' ?_ (hinv.tree n handle hlookup)
    intro hn
    rw [hn, htree] at hlookup
    exact (Option.some.inj hlookup).symm
  | keep hserial hpublished =>
    have hsame := publishedSerial_of_keep hserial hpublished n
    cases signedStep_of_step (step_eq h).1 with
    | @store records job soa zones created hpc hp' =>
      have ⟨hnone, hzones⟩ := hinv.creating job soa zones created hpc
      rw [hp'] at hlookup
      by_cases hn : n = job.zoneName
      · rw [hn, AList.lookup_insert] at hlookup
        rw [hn, ← Option.some.inj hlookup]
        -- nothing has been signed into the new zone yet
        intro s hs
        rw [hserial, hnone] at hs
        cases hs
      · rw [AList.lookup_insert_ne hn] at hlookup
        exact hinv.fresh_of_same h (hserial n handle) hsame (hzones n handle hlookup)
    | remove hpc hp' =>
      rw [hp'] at hlookup
      have hold := hinv.nested.lookup_remove hpc hlookup
      exact hinv.fresh_of_same h (hserial n handle) hsame (hinv.tree n handle hold)
    | keep htree _ =>
      rw [htree] at hlookup
      exact hinv.fresh_of_same h (hserial n handle) hsame (hinv.tree n handle hlookup)

theorem Ordered.creating_of_step (hinv : w.Ordered) (hok : w.resignsLatest a = true)
    (h : w.step a = some w') {job : SignJob} {soa : SignRead Soa} {zones : ZoneTree}
    {handle : Handle} (hpc : w'.pipeline.signer = .creating job soa zones handle) :
    w'.pipeline.signedSerial job.zoneName handle = none ∧
      ∀ n h, zones.lookup n = some h → w'.Fresh n h := by
  have hp' := (step_eq h).1
  refine ⟨?_, ?_⟩
  · rcases Pipeline.creating_of_step hp' hpc with hold | hnew
    · have ⟨hnone, _⟩ := hinv.creating job soa zones handle (hold.trans hpc)
      cases serialStep_of_step hp' with
      | commit _ hcommit =>
        rw [hcommit] at hpc
        cases hpc
      | publish _ hpublish =>
        rw [hpublish]
        exact hnone
      | keep hserial _ =>
        rw [hserial]
        exact hnone
    · exact hnew
  · intro n h' hlookup
    rcases (signerStep_of_step hp').creating job soa zones handle hpc with hold | ⟨hzones, _⟩
    · have hpc' := hold.trans hpc
      have hfresh := (hinv.creating job soa zones handle hpc').2 n h' hlookup
      cases serialStep_of_step hp' with
      | commit _ hcommit =>
        rw [hcommit] at hpc
        cases hpc
      | @publish m published _ _ hadding hpublish =>
        have ⟨htree, _⟩ := hinv.publishedSerial_publish hadding hpublish
        refine hinv.fresh_publish h hadding hpublish ?_ hfresh
        intro hn
        -- the copy of the signer has the zone that is published
        have hcopy := (hinv.nested.creating job soa zones handle hpc').2 m published htree
        rw [hn, hcopy] at hlookup
        exact (Option.some.inj hlookup).symm
      | keep hserial hpublished =>
        have hsame := publishedSerial_of_keep hserial hpublished n
        exact hinv.fresh_of_same h (hserial n h') hsame hfresh
    · rw [hzones] at hlookup
      exact hinv.tree_of_step hok h hlookup

theorem Ordered.step (hinv : w.Ordered) (hok : w.ordered a = true) (h : w.step a = some w') :
    w'.Ordered := by
  have ⟨hp', hversions, hseen⟩ := step_eq h
  simp only [ordered, Bool.and_eq_true] at hok
  have ⟨⟨hnewest, honce⟩, hlatest⟩ := hok
  have hpublished : ∀ n s, w'.pipeline.publishedSerial n = some s →
      (w.seen n).head? = some s ∨ (n, s) ∈ w.versions ∧ w.Covers n s :=
    fun _ _ hs ↦ hinv.publishedSerial_of_step hlatest h hs
  refine ⟨hinv.nested.step hp', ?_, ?_, ?_, ?_, ?_, ?_, ?_, ?_, ?_⟩
  · exact next_le_one_of_step hinv.single (unsignedStep_of_step honce hp')
  · exact fun _ _ _ hs ↦ hinv.unsigned_of_step hnewest honce h hs
  · exact fun _ _ _ hs ↦ mem_versions h (hinv.signed_of_step h hs)
  · intro n s hs
    rw [hseen] at hs
    rcases mem_of_observe hs with hnow | hold
    · rcases hpublished n s hnow with hhead | ⟨hmem, _⟩
      · exact mem_versions h (hinv.seen n s (List.mem_of_head? hhead))
      · exact mem_versions h hmem
    · exact mem_versions h (hinv.seen n s hold)
  · intro n s hs
    rw [hseen, hs]
    exact head?_observe_some s (w.seen n)
  · intro n
    rw [hseen]
    refine isChain_observe (hinv.chain n) ?_
    intro s hs
    exact (hpublished n s hs).imp id And.right
  · intro job soa hjob
    have ⟨hmem, _⟩ := hinv.read_of_step h hjob
    exact ⟨mem_versions h hmem, hinv.covers_of_read h hjob⟩
  · exact fun _ _ hlookup ↦ hinv.tree_of_step hlatest h hlookup
  · exact fun _ _ _ _ hpc ↦ hinv.creating_of_step hlatest h hpc

/-- In every run in which the unsigned versions of a zone, which is registered once, have increasing
serials, and no zone is signed again under an older serial than readers have seen, the serials that
readers see of a zone never go backwards. -/
theorem served_serials_ascend {w : Versioned}
    (h : Reach Versioned.step (fun w a ↦ w.ordered a = true) Started w) (n : Name) :
    (w.seen n).IsChain (fun new old ↦ new.ge old = true) :=
  (h.invariant (fun _ ↦ ordered_started)
    (fun _ _ _ hinv hok hstep ↦ hinv.step hok hstep) : w.Ordered).chain n

end Versioned

namespace OneZone

/-- The second version is approved while the first one is published. -/
def secondApproved : List Action :=
  firstVersion ++ [.transferCommit zone 0 (content 2)] ++ reviewUnsigned ++ [.signerReceive] ++
    List.replicate 7 (.signerNext []) ++ reviewSigned

/-- The second version is published, and then signed again. -/
def signedAgainInTurn : List Action :=
  secondApproved ++ [.publisherReceive, .publisherNext, .publisherNext, .resign zone, .direct,
    .forward, .signerReceive] ++ List.replicate 7 (.signerNext [])

/-- The signer reads the first version to sign it again, and then the second one is published. -/
def publishedMeanwhile : List Action :=
  secondApproved ++ [.resign zone, .direct, .forward, .signerReceive, .signerNext [],
    .publisherReceive, .publisherNext] ++ List.replicate 4 (.signerNext [])

def versioned : Versioned := ⟨daemon, [], fun _ ↦ []⟩

end OneZone

set_option maxRecDepth 4096 in
theorem two_versions_in_turn : ∃ w : Versioned, w.seen OneZone.zone = [⟨2⟩, ⟨1⟩] ∧
    (w.seen OneZone.zone).IsChain (fun new old ↦ new.ge old = true) := by
  have hstarted : Versioned.Started OneZone.versioned := ⟨OneZone.daemon_started, rfl, rfl⟩
  have hrun : ∃ w, Reach Versioned.step (fun w a ↦ w.ordered a = true) Versioned.Started w ∧
      decide (w.seen OneZone.zone = [⟨2⟩, ⟨1⟩]) = true :=
    Reach.of_exec hstarted
      OneZone.signedAgainInTurn (by decide) (by decide)
  have ⟨w, hw, hseen⟩ := hrun
  exact ⟨w, of_decide_eq_true hseen, Versioned.served_serials_ascend hw OneZone.zone⟩

/-- The second version is signed, approved and published after the signer has read the first one to
sign it again, and the first one is then signed into the zone that was published. -/
theorem old_serial_served : ∃ w : Versioned, Reach Versioned.step anyStep Versioned.Started w ∧
    w.versions = [(OneZone.zone, ⟨1⟩), (OneZone.zone, ⟨2⟩)] ∧
      w.seen OneZone.zone = [⟨1⟩, ⟨2⟩, ⟨1⟩] ∧
        ¬(w.seen OneZone.zone).IsChain (fun new old ↦ new.ge old = true) := by
  have hstarted : Versioned.Started OneZone.versioned := ⟨OneZone.daemon_started, rfl, rfl⟩
  have hrun : ∃ w, Reach Versioned.step anyStep Versioned.Started w ∧
      decide (w.versions = [(OneZone.zone, ⟨1⟩), (OneZone.zone, ⟨2⟩)] ∧
        w.seen OneZone.zone = [⟨1⟩, ⟨2⟩, ⟨1⟩]) = true :=
    Reach.of_exec_any hstarted OneZone.publishedMeanwhile (by decide)
  have ⟨w, hw, hend⟩ := hrun
  have ⟨hversions, hseen⟩ := of_decide_eq_true hend
  refine ⟨w, hw, hversions, hseen, ?_⟩
  rw [hseen]
  decide

end Pipeline

end Cascade

import Cascade.Steps

/-!
# What is published

The signer writes into a zone that is shared by reference, while that zone waits for its review or
has already been moved to the published zones.  A version is under review from its commit until the
publication server has taken its zone over.  As long as the signer neither commits to a zone that is
under review or published, nor stores a tree with a zone back that is under review, what readers see
is what was approved.
-/

namespace Cascade

open Lib

namespace ZoneSigner

/-- The zone that `sign_zone` has chosen to sign into. -/
def target : ZoneSigner → Option (Name × Handle)
  | .targeted job _ handle => some (job.zoneName, handle)
  | .configured job _ handle _ => some (job.zoneName, handle)
  | .collected job _ handle _ _ => some (job.zoneName, handle)
  | _ => none

end ZoneSigner

namespace Pipeline

/-- Everything that readers can see of the published zones was approved, under its own serial. -/
def PublishedApproved (p : Pipeline) : Prop :=
  ∀ n handle content, p.publishedZones.lookup n = some handle →
    p.signedHeap.get n handle = some content →
      ∃ s, ⟨n, s, some content⟩ ∈ p.approvals ∧ content.soa.map Soa.serial = some s

/-- A version between its commit and its publication: the signer is about to report it, its review
goes on, or the publication server has not got the command to publish it. -/
def UnderReview (p : Pipeline) (n : Name) (s : Serial) : Prop :=
  p.signer = .committed n s ∨ p.Reviews .RS2 p.rs2 (n, s) ∨
    .PublishSignedZone n s ∈ p.inFlight .PS

def isPublish (n : Name) : ApplicationCommand → Bool
  | .PublishSignedZone m _ => decide (m = n)
  | _ => false

def isCommitted (n : Name) : ZoneSigner → Bool
  | .committed m _ => decide (m = n)
  | _ => false

def isAdding (n : Name) : Publisher → Bool
  | .adding m _ _ _ => decide (m = n)
  | _ => false

/-- Some version of the zone is under review, or about to be taken over. -/
def reviewed (p : Pipeline) (n : Name) : Bool :=
  isCommitted n p.signer || p.reviewsZone .RS2 p.rs2 n || (p.inFlight .PS).any (isPublish n) ||
    isAdding n p.publisher

/-- The signer commits only to a zone that is neither under review nor published, and the tree that
it stores with a new zone brings back no zone that is under review. -/
def signsAside (p : Pipeline) : Action → Bool
  | .signerNext _ =>
    match p.signer with
    | .creating job _ loaded handle =>
      (loaded.insert job.zoneName handle).keys.all
        (fun n ↦ decide (n ∈ p.signedZones) || !p.reviewed n)
    | .collected job _ handle _ _ =>
      !p.reviewed job.zoneName && decide (p.publishedZones.lookup job.zoneName ≠ some handle)
    | _ => true
  | _ => true

theorem reviewed_of_underReview {p : Pipeline} {n : Name} {s : Serial}
    (h : p.UnderReview n s) : p.reviewed n = true := by
  unfold reviewed
  rcases h with h | h | h
  · simp [h, isCommitted]
  · simp [reviewsZone_of_reviews h]
  · have hany : (p.inFlight .PS).any (isPublish n) = true :=
      List.any_eq_true.mpr ⟨_, h, by simp [isPublish]⟩
    simp [hany]

/-! ## The invariant -/

/-- The zone `n` in the heap has a content with this property. -/
def Holds (p : Pipeline) (n : Name) (handle : Handle) (P : ZoneContent → Prop) : Prop :=
  ∃ content, p.signedHeap.get n handle = some content ∧ P content

theorem Holds.mono {p p' : Pipeline} {n : Name} {handle : Handle} {P Q : ZoneContent → Prop}
    (h : p.Holds n handle P)
    (hget : ∀ content, p.signedHeap.get n handle = some content →
      p'.signedHeap.get n handle = some content)
    (himp : ∀ content, P content → Q content) : p'.Holds n handle Q := by
  obtain ⟨content, hcontent, hP⟩ := h
  exact ⟨content, hget content hcontent, himp content hP⟩

structure Published (p : Pipeline) : Prop where
  underReview : ∀ n s handle, p.UnderReview n s → p.signedZones.lookup n = some handle →
    p.Holds n handle (fun content ↦ content.soa.map Soa.serial = some s)
  publishing : ∀ n s handle, .PublishSignedZone n s ∈ p.inFlight .PS →
    p.signedZones.lookup n = some handle →
      p.Holds n handle (fun content ↦ ⟨n, s, some content⟩ ∈ p.approvals)
  adding : ∀ n handle signedZones publishedZones,
    p.publisher = .adding n handle signedZones publishedZones →
      publishedZones = p.publishedZones ∧ p.Holds n handle (fun content ↦
        ∃ s, ⟨n, s, some content⟩ ∈ p.approvals ∧ content.soa.map Soa.serial = some s)
  published : ∀ n handle, p.publishedZones.lookup n = some handle →
    p.Holds n handle (fun content ↦
      ∃ s, ⟨n, s, some content⟩ ∈ p.approvals ∧ content.soa.map Soa.serial = some s)
  /-- Only the publication server takes zones out of the tree. -/
  loadedSigned : ∀ n handle signedZones publishedZones m h,
    p.publisher = .adding n handle signedZones publishedZones ∨
      p.publisher = .removing n signedZones →
    signedZones.lookup m = some h → p.signedZones.lookup m = some h
  creating : ∀ job soa loaded handle, p.signer = .creating job soa loaded handle →
    loaded.lookup job.zoneName = none ∧ p.Holds job.zoneName handle (fun _ ↦ True) ∧
      (∀ m h, p.signedZones.lookup m = some h → loaded.lookup m = some h) ∧
      ∀ m h, loaded.lookup m = some h → p.Holds m h (fun _ ↦ True)
  target : ∀ n handle, p.signer.target = some (n, handle) →
    p.Holds n handle (fun _ ↦ True) ∧
      ∀ h, p.signedZones.lookup n = some h → h = handle
  signed : ∀ n handle, p.signedZones.lookup n = some handle → p.Holds n handle (fun _ ↦ True)

theorem published_started {p : Pipeline} (h : p.Started) : p.Published := by
  obtain ⟨center, rsHooks, rs2Hooks, -, rfl⟩ := h
  have hsigned : ∀ n, (Pipeline.new center rsHooks rs2Hooks).signedZones.lookup n = none :=
    fun n ↦ rfl
  exact {
    underReview := fun n s handle _ h ↦ absurd h (by simp [hsigned])
    publishing := fun n s handle _ h ↦ absurd h (by simp [hsigned])
    adding := fun n handle _ _ h ↦ by cases h
    published := fun n handle h ↦ by cases h
    loadedSigned := fun n handle _ _ m h hpc _ ↦ by rcases hpc with hpc | hpc <;> cases hpc
    creating := fun job soa loaded handle h ↦ by cases h
    target := fun n handle h ↦ by cases h
    signed := fun n handle h ↦ absurd h (by simp [hsigned]) }

/-! ## Steps -/

-- A version comes under review by its commit only.
theorem underReview_of_step {p p' : Pipeline} {a : Action} (h : p.step a = some p') {n : Name}
    {s : Serial} (hreview : p'.UnderReview n s) :
    p.UnderReview n s ∨ p'.signer = .committed n s := by
  rcases hreview with hsigner | hreviews | hmem
  · exact Or.inr hsigner
  · rcases rs2_reviews_of_step h hreviews with hreviews | hsigner
    · exact Or.inl (Or.inr (Or.inl hreviews))
    · exact Or.inl (Or.inl hsigner)
  · rcases step_inFlight h (by simp) hmem with hmem | hemits
    · exact Or.inl (Or.inr (Or.inr hmem))
    · cases hemits with
      | approvedSigned hreviews => exact Or.inl (Or.inr (Or.inl hreviews))

theorem publishing_of_step {p p' : Pipeline} {a : Action} (h : p.step a = some p')
    (ha : a.task ≠ .rs2) {n : Name} {s : Serial}
    (hmem : .PublishSignedZone n s ∈ p'.inFlight .PS) :
    .PublishSignedZone n s ∈ p.inFlight .PS := by
  rcases step_inFlight h (by simp) hmem with hmem | hemits
  · exact hmem
  · cases hemits with
    | approvedSigned => exact absurd rfl ha

/-- The signer creates no zone and does not commit, and what it signs into is in the tree. -/
structure SignerKeeps (zones : ZoneTree) (z z' : ZoneSigner) : Prop where
  creating : ∀ job soa loaded handle, z' = .creating job soa loaded handle → z = z'
  target : ∀ n handle, z'.target = some (n, handle) →
    z.target = some (n, handle) ∨ zones.lookup n = some handle
  committed : ∀ n s, z' = .committed n s → z = z'

-- Steps that neither move nor write a signed zone, and approve nothing.
theorem Published.of_quiet {p p' : Pipeline} {a : Action} (hinv : p.Published)
    (h : p.step a = some p') (ha : a.task ≠ .rs2) (hsigned : p'.signedZones = p.signedZones)
    (hpublished : p'.publishedZones = p.publishedZones) (hheap : p'.signedHeap = p.signedHeap)
    (hpublisher : p'.publisher = p.publisher)
    (hsigner : SignerKeeps p.signedZones p.signer p'.signer) :
    p'.Published := by
  have happrovals : p'.approvals = p.approvals := (step_frame h).approvals ha
  have hholds : ∀ n handle P, p'.Holds n handle P ↔ p.Holds n handle P := by
    intro n handle P
    unfold Holds
    rw [hheap]
  constructor
  · intro n s handle hreview hlookup
    rw [hsigned] at hlookup
    rw [hholds]
    rcases underReview_of_step h hreview with hreview | hcommitted
    · exact hinv.underReview n s handle hreview hlookup
    · have hold := hsigner.committed n s hcommitted
      rw [hcommitted] at hold
      exact hinv.underReview n s handle (Or.inl hold) hlookup
  · intro n s handle hmem hlookup
    rw [hsigned] at hlookup
    rw [hholds, happrovals]
    exact hinv.publishing n s handle (publishing_of_step h ha hmem) hlookup
  · intro n handle signedZones publishedZones hpc
    rw [hpublisher] at hpc
    rw [hholds, happrovals, hpublished]
    exact hinv.adding n handle signedZones publishedZones hpc
  · intro n handle hlookup
    rw [hpublished] at hlookup
    rw [hholds, happrovals]
    exact hinv.published n handle hlookup
  · intro n handle signedZones publishedZones m h' hpc hlookup
    rw [hpublisher] at hpc
    rw [hsigned]
    exact hinv.loadedSigned n handle signedZones publishedZones m h' hpc hlookup
  · intro job soa loaded handle hpc
    have hold := hsigner.creating job soa loaded handle hpc
    rw [hpc] at hold
    simp only [hholds, hsigned]
    exact hinv.creating job soa loaded handle hold
  · intro n handle htarget
    simp only [hholds, hsigned]
    rcases hsigner.target n handle htarget with hold | hlookup
    · exact hinv.target n handle hold
    · refine ⟨hinv.signed n handle hlookup, ?_⟩
      intro handle' hlookup'
      rw [hlookup] at hlookup'
      exact (Option.some.inj hlookup').symm
  · intro n handle hlookup
    rw [hsigned] at hlookup
    rw [hholds]
    exact hinv.signed n handle hlookup

theorem SignerKeeps.refl (zones : ZoneTree) (z : ZoneSigner) : SignerKeeps zones z z :=
  ⟨fun _ _ _ _ _ ↦ rfl, fun _ _ h ↦ Or.inl h, fun _ _ _ ↦ rfl⟩

-- The places before the choice of a zone, and the ends.
theorem SignerKeeps.plain {zones : ZoneTree} {z z' : ZoneSigner} (htarget : z'.target = none)
    (hcreating : ∀ job soa loaded handle, z' ≠ .creating job soa loaded handle)
    (hcommitted : ∀ n s, z' ≠ .committed n s) : SignerKeeps zones z z' where
  creating := fun job soa loaded handle h ↦ absurd h (hcreating job soa loaded handle)
  target := by
    intro n handle h
    rw [htarget] at h
    cases h
  committed := fun n s h ↦ absurd h (hcommitted n s)

section

variable {p p' : Pipeline}

-- The review server for signed zones records the content that it approves.
theorem Published.rs2Receive {rounds : Nat → Uuid × Bool} (hinv : p.Published)
    (h : p.step (.rs2Receive rounds) = some p') : p'.Published := by
  have hreview : ∀ n s, p'.UnderReview n s → p.UnderReview n s := by
    intro n s hreview
    have hsigner : p'.signer = p.signer := (step_frame h).signer (by simp [Action.task])
    rcases underReview_of_step h hreview with hreview | hcommitted
    · exact hreview
    · exact Or.inl (hsigner ▸ hcommitted)
  obtain ⟨cmd, net, hreceive, rfl⟩ := rs2Receive_spec h
  obtain ⟨hcmd, hold⟩ := inFlight_receive hreceive
  have hmono : ∀ {n handle s}, p.Holds n handle
      (fun content ↦ ⟨n, s, some content⟩ ∈ p.approvals) →
      p.Holds n handle (fun content ↦ ⟨n, s, some content⟩ ∈
        p.approvals ++ (p.rs2.handleCommand rounds cmd).2.filterMap p.approvalOf) := by
    intro n handle s h
    exact h.mono (fun _ hget ↦ hget) (fun _ hmem ↦ List.mem_append_left _ hmem)
  have hmono' : ∀ {n handle}, p.Holds n handle (fun content ↦
        ∃ s, ⟨n, s, some content⟩ ∈ p.approvals ∧ content.soa.map Soa.serial = some s) →
      p.Holds n handle (fun content ↦ ∃ s, ⟨n, s, some content⟩ ∈
        p.approvals ++ (p.rs2.handleCommand rounds cmd).2.filterMap p.approvalOf ∧
          content.soa.map Soa.serial = some s) := by
    intro n handle h
    refine h.mono (fun _ hget ↦ hget) ?_
    intro content happroved
    obtain ⟨s, hmem, hserial⟩ := happroved
    exact ⟨s, List.mem_append_left _ hmem, hserial⟩
  exact {
    underReview := fun n s handle hr hlookup ↦ hinv.underReview n s handle (hreview n s hr) hlookup
    publishing := by
      intro n s handle hmem hlookup
      rcases sent_of_review p.rs2 hcmd rounds with hsent | ⟨m, t, hsent, hreviews⟩
      · rw [hsent] at hmem
        rcases mem_inFlight_send.mp hmem with hmem | hmem
        · exact hmono (hinv.publishing n s handle (hold _ _ hmem) hlookup)
        · cases hmem
      · rw [hsent] at hmem
        rcases mem_inFlight_send_one.mp hmem with hmem | hmem
        · exact hmono (hinv.publishing n s handle (hold _ _ hmem) hlookup)
        · simp only [Source.approvedEvent, directUpdate, List.mem_singleton, Prod.mk.injEq,
            ApplicationCommand.PublishSignedZone.injEq, true_and] at hmem
          obtain ⟨rfl, rfl⟩ := hmem
          -- the version is under review, so the zone in the tree is the one that was signed
          obtain ⟨content, hget, -⟩ :=
            hinv.underReview n s handle (Or.inr (Or.inl hreviews)) hlookup
          have hlookup' : p.signedZones.lookup n = some handle := hlookup
          have hcontent : p.signedContent n = some content := by
            rw [signedContent, hlookup', Option.bind_some, hget]
          refine ⟨content, hget, ?_⟩
          show _ ∈ p.approvals ++ (p.rs2.handleCommand rounds cmd).2.filterMap p.approvalOf
          rw [hsent]
          simp [Source.approvedEvent, approvalOf, hcontent]
    adding := fun n handle signedZones publishedZones hpc ↦
      ⟨(hinv.adding n handle signedZones publishedZones hpc).1,
        hmono' (hinv.adding n handle signedZones publishedZones hpc).2⟩
    published := fun n handle hlookup ↦ hmono' (hinv.published n handle hlookup)
    loadedSigned := hinv.loadedSigned
    creating := hinv.creating
    target := hinv.target
    signed := hinv.signed }

-- Creating a zone to sign into leaves all others as they are.
theorem Published.create (job : SignJob) (soa : SignRead Soa) (hinv : p.Published)
    (hnone : p.signedZones.lookup job.zoneName = none) :
    ({ p with
      signedHeap := p.signedHeap.alloc job.zoneName ⟨none, []⟩
      signer := .creating job soa p.signedZones (p.signedHeap.next job.zoneName) } :
        Pipeline).Published := by
  have hkeep : ∀ {n handle P}, p.Holds n handle P →
      Holds { p with signedHeap := p.signedHeap.alloc job.zoneName ⟨none, []⟩ } n handle P :=
    fun h ↦ h.mono (fun _ ↦ Heap.get_alloc_of_some) (fun _ hP ↦ hP)
  have hreview : ∀ {n s}, (ZoneSigner.creating job soa p.signedZones
      (p.signedHeap.next job.zoneName) = .committed n s ∨ p.Reviews .RS2 p.rs2 (n, s) ∨
        .PublishSignedZone n s ∈ p.inFlight .PS) → p.UnderReview n s := by
    intro n s hr
    rcases hr with hr | hr
    · cases hr
    · exact Or.inr hr
  exact {
    underReview := fun n s handle hr hlookup ↦
      hkeep (hinv.underReview n s handle (hreview hr) hlookup)
    publishing := fun n s handle hmem hlookup ↦ hkeep (hinv.publishing n s handle hmem hlookup)
    adding := by
      intro n handle signedZones publishedZones hpc
      have hadding := hinv.adding n handle signedZones publishedZones hpc
      exact ⟨hadding.1, hkeep hadding.2⟩
    published := fun n handle hlookup ↦ hkeep (hinv.published n handle hlookup)
    loadedSigned := hinv.loadedSigned
    creating := by
      intro job' soa' loaded handle hpc
      cases hpc
      exact ⟨hnone, ⟨⟨none, []⟩, by simp [Heap.get_alloc], trivial⟩, fun m h' hlookup ↦ hlookup,
        fun m h' hlookup ↦ hkeep (hinv.signed m h' hlookup)⟩
    target := fun n handle htarget ↦ by cases htarget
    signed := fun n handle hlookup ↦ hkeep (hinv.signed n handle hlookup) }

-- Storing a tree with a new zone brings back no zone that is under review.
theorem Published.store {job : SignJob} {soa : SignRead Soa} {loaded : ZoneTree} {handle : Handle}
    (hinv : p.Published) (hsigner : p.signer = .creating job soa loaded handle)
    (hok : ∀ n, n ∈ loaded.insert job.zoneName handle → n ∉ p.signedZones → p.reviewed n = false) :
    ({ p with
      signedZones := loaded.insert job.zoneName handle
      signer := .targeted job soa handle } : Pipeline).Published := by
  obtain ⟨hnew, hhandle, hsub, hvalid⟩ := hinv.creating job soa loaded handle hsigner
  have hother : ∀ {n h}, n ≠ job.zoneName → loaded.lookup n = some h →
      (loaded.insert job.zoneName handle).lookup n = some h := by
    intro n h hn hlookup
    rw [AList.lookup_insert_ne hn]
    exact hlookup
  -- the tree only grows
  have hgrow : ∀ {n h}, p.signedZones.lookup n = some h →
      (loaded.insert job.zoneName handle).lookup n = some h := by
    intro n h hlookup
    have hloaded := hsub n h hlookup
    refine hother ?_ hloaded
    intro hn
    rw [hn, hnew] at hloaded
    cases hloaded
  have hback : ∀ {n h}, (loaded.insert job.zoneName handle).lookup n = some h →
      p.reviewed n = true → p.signedZones.lookup n = some h := by
    intro n h hlookup hreviewed
    cases hold : p.signedZones.lookup n with
    | some h' =>
      rw [hgrow hold] at hlookup
      exact hlookup
    | none =>
      have hmem : n ∈ loaded.insert job.zoneName handle :=
        HashMap.mem_iff_lookup.mpr ⟨h, hlookup⟩
      rw [hok n hmem (AList.lookup_eq_none.mp hold)] at hreviewed
      cases hreviewed
  have hreview : ∀ {n s}, (ZoneSigner.targeted job soa handle = .committed n s ∨
      p.Reviews .RS2 p.rs2 (n, s) ∨ .PublishSignedZone n s ∈ p.inFlight .PS) →
        p.UnderReview n s := by
    intro n s hr
    rcases hr with hr | hr
    · cases hr
    · exact Or.inr hr
  exact {
    underReview := by
      intro n s h hr hlookup
      exact hinv.underReview n s h (hreview hr)
        (hback hlookup (reviewed_of_underReview (hreview hr)))
    publishing := by
      intro n s h hmem hlookup
      exact hinv.publishing n s h hmem
        (hback hlookup (reviewed_of_underReview (Or.inr (Or.inr hmem))))
    adding := hinv.adding
    published := hinv.published
    loadedSigned := by
      intro n h signedZones publishedZones m h' hpc hlookup
      exact hgrow (hinv.loadedSigned n h signedZones publishedZones m h' hpc hlookup)
    creating := fun _ _ _ _ hpc ↦ by cases hpc
    target := by
      intro n h htarget
      cases htarget
      refine ⟨hhandle, ?_⟩
      intro h' hlookup
      rw [AList.lookup_insert] at hlookup
      exact (Option.some.inj hlookup).symm
    signed := by
      intro n h hlookup
      by_cases hn : n = job.zoneName
      · subst hn
        rw [AList.lookup_insert] at hlookup
        cases hlookup
        exact hhandle
      · rw [AList.lookup_insert_ne hn] at hlookup
        exact hvalid n h hlookup }

-- A commit to a zone that is neither under review nor published.
theorem Published.commit {job : SignJob} {soa : SignRead Soa} {handle : Handle}
    {policy : PolicyVersion} {records : SignRead (List StoredRecord)}
    (signedRecords : List StoredRecord) (hinv : p.Published)
    (hsigner : p.signer = .collected job soa handle policy records)
    (hreviewed : p.reviewed job.zoneName = false)
    (hpublished : p.publishedZones.lookup job.zoneName ≠ some handle) :
    ({ p with
      signedHeap := p.signedHeap.set job.zoneName handle ⟨some soa.value, signedRecords⟩
      signer := .committed job.zoneName soa.value.serial } : Pipeline).Published := by
  have htarget : p.signer.target = some (job.zoneName, handle) := by rw [hsigner]; rfl
  obtain ⟨⟨old, hold, -⟩, hunique⟩ := hinv.target job.zoneName handle htarget
  have hnew : (p.signedHeap.set job.zoneName handle ⟨some soa.value, signedRecords⟩).get
      job.zoneName handle = some ⟨some soa.value, signedRecords⟩ := by
    rw [Heap.get_set, if_pos ⟨rfl, rfl⟩, hold, Option.map_some]
  have hkeep : ∀ {n h}, (n ≠ job.zoneName ∨ h ≠ handle) →
      (p.signedHeap.set job.zoneName handle ⟨some soa.value, signedRecords⟩).get n h =
        p.signedHeap.get n h := by
    intro n h hne
    rw [Heap.get_set, if_neg]
    rintro ⟨hn, hh⟩
    exact hne.elim (absurd hn) (absurd hh)
  have hmono : ∀ {n h P}, (n ≠ job.zoneName ∨ h ≠ handle) → p.Holds n h P →
      Holds { p with signedHeap :=
        p.signedHeap.set job.zoneName handle ⟨some soa.value, signedRecords⟩ } n h P :=
    fun hne hholds ↦ hholds.mono (fun _ hget ↦ (hkeep hne).trans hget) (fun _ hP ↦ hP)
  have hvalid : ∀ {n h}, p.Holds n h (fun _ ↦ True) →
      ∃ content, (p.signedHeap.set job.zoneName handle ⟨some soa.value, signedRecords⟩).get n h =
        some content ∧ True := by
    intro n h hholds
    by_cases hsame : n = job.zoneName ∧ h = handle
    · obtain ⟨rfl, rfl⟩ := hsame
      exact ⟨_, hnew, trivial⟩
    · rw [hkeep (not_and_or.mp hsame)]
      exact hholds
  -- a version under review is of another zone, the new one apart
  have hne : ∀ {n s}, p.UnderReview n s → n ≠ job.zoneName := by
    intro n s hr hn
    subst hn
    rw [reviewed_of_underReview hr] at hreviewed
    cases hreviewed
  exact {
    underReview := by
      intro n s h hr hlookup
      rcases hr with hr | hr
      · cases hr
        cases hunique h hlookup
        exact ⟨_, hnew, rfl⟩
      · exact hmono (Or.inl (hne (Or.inr hr))) (hinv.underReview n s h (Or.inr hr) hlookup)
    publishing := by
      intro n s h hmem hlookup
      have hother : n ≠ job.zoneName := hne (Or.inr (Or.inr hmem))
      exact hmono (Or.inl hother) (hinv.publishing n s h hmem hlookup)
    adding := by
      intro n h signedZones publishedZones hpc
      have hold := hinv.adding n h signedZones publishedZones hpc
      have hn : n ≠ job.zoneName := by
        intro hn
        have hadding : isAdding job.zoneName p.publisher = true := by
          rw [show p.publisher = _ from hpc, hn]
          simp [isAdding]
        simp [reviewed, hadding] at hreviewed
      exact ⟨hold.1, hmono (Or.inl hn) hold.2⟩
    published := by
      intro n h hlookup
      refine hmono ?_ (hinv.published n h hlookup)
      by_contra hboth
      rw [not_or, not_not, not_not] at hboth
      obtain ⟨rfl, rfl⟩ := hboth
      exact hpublished hlookup
    loadedSigned := hinv.loadedSigned
    creating := fun _ _ _ _ hpc ↦ by cases hpc
    target := fun _ _ hpc ↦ by cases hpc
    signed := fun n h hlookup ↦ hvalid (hinv.signed n h hlookup) }

-- The publication server starts with a zone whose content was approved.
theorem Published.take {net : Net} {n : Name} {s : Serial} {handle : Handle} (hinv : p.Published)
    (hreceive : p.net.receive .PS = some (.PublishSignedZone n s, net))
    (hlookup : p.signedZones.lookup n = some handle) :
    ({ p.withNet net with
      publisher := .adding n handle p.signedZones p.publishedZones } : Pipeline).Published := by
  obtain ⟨hmem, hold⟩ := inFlight_receive hreceive
  have hreview : ∀ {m t}, (p.withNet net).UnderReview m t → p.UnderReview m t := by
    intro m t hr
    rcases hr with hr | (⟨cmd, hcmd, hasks⟩ | hr) | hr
    · exact Or.inl hr
    · exact Or.inr (Or.inl (Or.inl ⟨cmd, hold _ _ hcmd, hasks⟩))
    · exact Or.inr (Or.inl (Or.inr hr))
    · exact Or.inr (Or.inr (hold _ _ hr))
  exact {
    underReview := fun m t h hr hl ↦ hinv.underReview m t h (hreview hr) hl
    publishing := fun m t h hr hl ↦ hinv.publishing m t h (hold _ _ hr) hl
    adding := by
      intro m h signedZones publishedZones hpc
      cases hpc
      obtain ⟨content, hget, happroved⟩ := hinv.publishing n s handle hmem hlookup
      obtain ⟨content', hget', hserial⟩ :=
        hinv.underReview n s handle (Or.inr (Or.inr hmem)) hlookup
      rw [hget] at hget'
      cases hget'
      exact ⟨rfl, content, hget, s, happroved, hserial⟩
    published := hinv.published
    loadedSigned := by
      intro m h signedZones publishedZones m' h' hpc hl
      rcases hpc with hpc | hpc
      · cases hpc
        exact hl
      · cases hpc
    creating := hinv.creating
    target := hinv.target
    signed := hinv.signed }

theorem Published.add {n : Name} {handle : Handle} {signedZones publishedZones : ZoneTree}
    (hinv : p.Published) (hpc : p.publisher = .adding n handle signedZones publishedZones) :
    ({ p with
      publishedZones := (publishedZones.erase n).insert n handle
      publisher := .removing n signedZones } : Pipeline).Published := by
  obtain ⟨hsame, hadding⟩ := hinv.adding n handle signedZones publishedZones hpc
  exact {
    underReview := hinv.underReview
    publishing := hinv.publishing
    adding := fun _ _ _ _ h ↦ by cases h
    published := by
      intro m h hlookup
      by_cases hm : m = n
      · subst hm
        rw [AList.lookup_insert] at hlookup
        cases hlookup
        exact hadding
      · rw [AList.lookup_insert_ne hm, AList.lookup_erase_ne hm, hsame] at hlookup
        exact hinv.published m h hlookup
    loadedSigned := by
      intro m h signed published m' h' hpc' hlookup
      rcases hpc' with hpc' | hpc'
      · cases hpc'
      · cases hpc'
        exact hinv.loadedSigned n handle signedZones publishedZones m' h' (Or.inl hpc) hlookup
    creating := hinv.creating
    target := hinv.target
    signed := hinv.signed }

-- Removing a zone from the tree as it was when the server loaded it.
theorem Published.remove {n : Name} {signedZones : ZoneTree} (hinv : p.Published)
    (hpc : p.publisher = .removing n signedZones) :
    ({ p with signedZones := signedZones.erase n, publisher := .idle } : Pipeline).Published := by
  have hback : ∀ {m h}, (signedZones.erase n).lookup m = some h →
      p.signedZones.lookup m = some h := by
    intro m h hlookup
    by_cases hm : m = n
    · subst hm
      rw [AList.lookup_erase] at hlookup
      cases hlookup
    · rw [AList.lookup_erase_ne hm] at hlookup
      exact hinv.loadedSigned n 0 signedZones ∅ m h (Or.inr hpc) hlookup
  exact {
    underReview := fun m s h hr hlookup ↦ hinv.underReview m s h hr (hback hlookup)
    publishing := fun m s h hr hlookup ↦ hinv.publishing m s h hr (hback hlookup)
    adding := fun _ _ _ _ h ↦ by cases h
    published := hinv.published
    loadedSigned := fun _ _ _ _ _ _ h _ ↦ by rcases h with h | h <;> cases h
    creating := by
      intro job soa loaded handle hsigner
      obtain ⟨hnew, hhandle, hsub, hvalid⟩ := hinv.creating job soa loaded handle hsigner
      exact ⟨hnew, hhandle, fun m h hlookup ↦ hsub m h (hback hlookup), hvalid⟩
    target := by
      intro m handle htarget
      obtain ⟨hholds, hunique⟩ := hinv.target m handle htarget
      exact ⟨hholds, fun h hlookup ↦ hunique h (hback hlookup)⟩
    signed := fun m h hlookup ↦ hinv.signed m h (hback hlookup) }

theorem Published.of_signer {a : Action} (hinv : p.Published) (hok : p.signsAside a = true)
    (h : p.step a = some p') (ha : a.task = .signer) : p'.Published := by
  have hframe := step_frame h
  have hquiet : SignerKeeps p.signedZones p.signer p'.signer → p'.signedZones = p.signedZones →
      p'.signedHeap = p.signedHeap → p'.Published := fun hsigner hsigned hheap ↦
    hinv.of_quiet h (by simp [ha]) hsigned (hframe.publishedZones (by simp [ha])) hheap
      (hframe.publisher (by simp [ha])) hsigner
  cases signerTurn_of_step h ha with
  | receive | read | noSoa | panic | fail =>
    exact hquiet (.plain rfl (by simp) (by simp)) rfl rfl
  | report =>
    have hidle : SignerKeeps p.signedZones p.signer .idle := .plain rfl (by simp) (by simp)
    exact hquiet hidle rfl rfl
  | skip => exact hquiet (.refl _ _) rfl rfl
  | choose _ hlookup =>
    refine hquiet ⟨fun _ _ _ _ h ↦ (by cases h), ?_, fun _ _ h ↦ (by cases h)⟩ rfl rfl
    intro n h htarget
    cases htarget
    exact Or.inr hlookup
  | create _ hnone => exact hinv.create _ _ hnone
  | store hsigner =>
    refine hinv.store hsigner ?_
    intro n hmem hnot
    simp only [signsAside, hsigner, List.all_eq_true, Bool.or_eq_true, decide_eq_true_eq,
      Bool.not_eq_true'] at hok
    exact (hok n hmem).resolve_left hnot
  | configure hsigner | collect hsigner =>
    refine hquiet ⟨fun _ _ _ _ h ↦ (by cases h), ?_, fun _ _ h ↦ (by cases h)⟩ rfl rfl
    intro n h htarget
    rw [hsigner]
    exact Or.inl htarget
  | commit hsigner =>
    simp only [signsAside, hsigner, Bool.and_eq_true, Bool.not_eq_true', decide_eq_true_eq] at hok
    exact hinv.commit _ hsigner hok.1 hok.2

theorem Published.of_publisher {a : Action} (hinv : p.Published) (h : p.step a = some p')
    (ha : a.task = .publisher) : p'.Published := by
  have hframe := step_frame h
  cases publisherTurn_of_step h ha with
  | take _ hreceive hlookup => exact hinv.take hreceive hlookup
  | skip =>
    refine hinv.of_quiet h (by decide) rfl rfl (hframe.signedHeap (by decide)) rfl ?_
    rw [hframe.signer (by decide)]
    exact .refl _ _
  | add hpc => exact hinv.add hpc
  | remove hpc => exact hinv.remove hpc

-- Every step that signs aside keeps the invariant.
theorem Published.step {a : Action} (hinv : p.Published) (hok : p.signsAside a = true)
    (h : p.step a = some p') : p'.Published := by
  cases a with
  | rs2Receive rounds => exact hinv.rs2Receive h
  | signerReceive | signerNext | signerFail => exact hinv.of_signer hok h rfl
  | publisherReceive | publisherNext => exact hinv.of_publisher h rfl
  | _ =>
    -- the other tasks work on nothing of this
    have hframe := step_frame h
    refine hinv.of_quiet h (by simp [Action.task]) ?_ ?_ ?_ ?_ ?_
    · exact hframe.signedZones (by simp [Action.task]) (by simp [Action.task])
    · exact hframe.publishedZones (by simp [Action.task])
    · exact hframe.signedHeap (by simp [Action.task])
    · exact hframe.publisher (by simp [Action.task])
    · rw [hframe.signer (by simp [Action.task])]
      exact .refl _ _

end

/-- In every run in which the signer signs aside, readers see approved content only. -/
theorem published_content_approved {p : Pipeline}
    (h : Reach Pipeline.step (fun p a ↦ p.signsAside a = true) Started p) :
    p.PublishedApproved := by
  have hinv : p.Published := h.invariant (fun _ ↦ published_started)
    (fun _ _ _ hinv hok hstep ↦ hinv.step hok hstep)
  intro n handle content hlookup hget
  obtain ⟨content', hget', happroved⟩ := hinv.published n handle hlookup
  rw [hget] at hget'
  cases hget'
  exact happroved

namespace OneZone

/-- The first version goes all the way. -/
def firstVersion : List Action :=
  registration ++ firstTransfer ++ reviewUnsigned ++ [.signerReceive] ++
    List.replicate 7 (.signerNext []) ++ reviewSigned ++
    [.publisherReceive, .publisherNext, .publisherNext]

/-- A second version is signed while the first one waits for the publication server. -/
def secondVersion : List Action :=
  registration ++ firstTransfer ++ reviewUnsigned ++ [.signerReceive] ++
    List.replicate 7 (.signerNext []) ++ reviewSigned ++
    [.transferCommit zone 0 (content 2)] ++ reviewUnsigned ++ [.signerReceive] ++
    List.replicate 5 (.signerNext []) ++ [.publisherReceive, .publisherNext]

end OneZone

/-- A version that is published without another one being signed meanwhile. -/
theorem first_version_published :
    ∃ p : Pipeline, p.PublishedApproved ∧ p.publishedZones.lookup OneZone.zone = some 0 ∧
      p.signedHeap.get OneZone.zone 0 = some (OneZone.content 1) := by
  have hrun : (exec Pipeline.step OneZone.daemon OneZone.firstVersion).any (fun p ↦
      decide (p.publishedZones.lookup OneZone.zone = some 0 ∧
        p.signedHeap.get OneZone.zone 0 = some (OneZone.content 1))) = true := by decide
  have hok : execOk Pipeline.step signsAside OneZone.daemon OneZone.firstVersion = true := by
    decide
  obtain ⟨p, hreach, hp⟩ := Reach.of_exec OneZone.daemon_started OneZone.firstVersion hok hrun
  exact ⟨p, published_content_approved hreach, of_decide_eq_true hp⟩

/-- The publication server publishes a zone that was signed again after its approval. -/
theorem unapproved_content_published :
    ∃ p, Reach Pipeline.step anyStep Started p ∧ ¬p.PublishedApproved := by
  have hrun : (exec Pipeline.step OneZone.daemon OneZone.secondVersion).any (fun p ↦
      decide (p.publishedZones.lookup OneZone.zone = some 0 ∧
        p.signedHeap.get OneZone.zone 0 = some (OneZone.content 2) ∧
        p.approvals = [⟨OneZone.zone, ⟨1⟩, some (OneZone.content 1)⟩])) = true := by decide
  obtain ⟨p, hreach, hp⟩ := Reach.of_exec_any OneZone.daemon_started OneZone.secondVersion hrun
  obtain ⟨hlookup, hget, happrovals⟩ := of_decide_eq_true hp
  refine ⟨p, hreach, ?_⟩
  intro happroved
  obtain ⟨s, hmem, -⟩ := happroved OneZone.zone 0 (OneZone.content 2) hlookup hget
  rw [happrovals, List.mem_singleton, Approval.mk.injEq] at hmem
  exact absurd hmem.2.2 (by decide)

end Pipeline

end Cascade

import Cascade.Publication

/-!
# The tree of signed zones

The signer puts a zone into the tree of signed zones when it first signs it, and the publication
server takes it out when it has published it.  Both store a changed copy of the whole tree.  The
copy of the signer still has whatever the server has taken out meanwhile, but that of the server
lacks a zone that the signer has put in meanwhile, and so drops it.
-/

namespace Cascade

open Lib

namespace Publisher

/-- The tree of signed zones as the publication server has loaded it. -/
def loaded : Publisher → Option ZoneTree
  | .idle => none
  | .adding _ _ signedZones _ => some signedZones
  | .removing _ signedZones => some signedZones

end Publisher

namespace Pipeline

/-- The publication server takes out the zone that it has published, and no other one. -/
def keepsSigned (p : Pipeline) : Action → Bool
  | .publisherNext =>
    match p.publisher with
    | .removing n signedZones =>
      p.signedZones.keys.all (fun m ↦ decide (m = n) || decide (m ∈ signedZones))
    | _ => true
  | _ => true

/-- A zone is taken out only when no further version of it is under review or signed into it. -/
def removesLast (p : Pipeline) : Action → Bool
  | .publisherNext =>
    match p.publisher with
    | .removing n _ => !p.reviewed n && !p.signer.target.any (fun target ↦ decide (target.1 = n))
    | _ => true
  | _ => true

/-- The zones that the signer has put into the tree, after an action: a zone waits there until a
command to publish it has been handled, be it that there is nothing to publish. -/
def waitingAfter (p : Pipeline) (waiting : List Name) : Action → List Name
  | .signerNext _ =>
    match p.signer with
    | .creating job _ _ _ => job.zoneName :: waiting
    | _ => waiting
  | .publisherReceive =>
    match p.net.receive .PS with
    | some (.PublishSignedZone n _, _) =>
      if n ∈ p.signedZones then waiting else waiting.filter (fun m ↦ decide (m ≠ n))
    | _ => waiting
  | .publisherNext =>
    match p.publisher with
    | .removing n _ => waiting.filter (fun m ↦ decide (m ≠ n))
    | _ => waiting
  | _ => waiting

/-! ## What a step does to the tree -/

/-- The signer stores its copy with a new zone, the publication server its copy without one, or the
tree stays the same. -/
inductive SignedStep (p p' : Pipeline) : Action → Prop
  | store {records : List StoredRecord} {job : SignJob} {soa : SignRead Soa} {zones : ZoneTree}
      {handle : Handle} : p.signer = .creating job soa zones handle →
      p' = { p with
        signedZones := zones.insert job.zoneName handle
        signer := .targeted job soa handle } → SignedStep p p' (.signerNext records)
  | remove {n : Name} {zones : ZoneTree} : p.publisher = .removing n zones →
      p' = { p with signedZones := zones.erase n, publisher := .idle } →
      SignedStep p p' .publisherNext
  | keep {a : Action} : p'.signedZones = p.signedZones →
      (∀ waiting m, m ∈ p.waitingAfter waiting a → m ∈ waiting) → SignedStep p p' a

section

variable {p p' : Pipeline} {a : Action}

theorem signedStep_of_step (h : p.step a = some p') : SignedStep p p' a := by
  by_cases hsigner : a.task = .signer
  · cases signerTurn_of_step h hsigner with
    | store hpc => exact .store hpc rfl
    | receive | skip | fail => exact .keep rfl (fun _ _ hm ↦ hm)
    | read hpc | noSoa hpc | choose hpc | create hpc | panic hpc | configure hpc | collect hpc
    | commit hpc | report hpc => exact .keep rfl (by simp [waitingAfter, hpc])
  · by_cases hpublisher : a.task = .publisher
    · cases publisherTurn_of_step h hpublisher with
      | remove hpc => exact .remove hpc rfl
      | add hpc => exact .keep rfl (by simp [waitingAfter, hpc])
      | take | skip =>
        refine .keep rfl ?_
        intro waiting m hm
        simp only [waitingAfter] at hm
        repeat' split at hm
        · exact hm
        · exact (List.mem_filter.mp hm).1
        · exact hm
    · have hsame := (step_frame h).signedZones hsigner hpublisher
      cases a with
      | signerReceive | signerNext | signerFail => exact absurd rfl hsigner
      | publisherReceive | publisherNext => exact absurd rfl hpublisher
      | _ => exact .keep hsame (fun _ _ hm ↦ hm)

/-- How the signer comes to create, target and commit. -/
structure SignerStep (p p' : Pipeline) : Prop where
  creating : ∀ job soa zones handle, p'.signer = .creating job soa zones handle →
    p.signer = p'.signer ∨ zones = p'.signedZones ∧ zones.lookup job.zoneName = none
  target : ∀ n handle, p'.signer.target = some (n, handle) →
    p.signer.target = some (n, handle) ∨ p'.signedZones.lookup n = some handle
  committed : ∀ n s, p'.signer = .committed n s →
    p.signer = p'.signer ∨ ∃ handle, p.signer.target = some (n, handle)

theorem SignerStep.of_eq (h : p'.signer = p.signer) : SignerStep p p' where
  creating := fun _ _ _ _ _ ↦ Or.inl h.symm
  target := fun _ _ htarget ↦ Or.inl (h ▸ htarget)
  committed := fun _ _ _ ↦ Or.inl h.symm

-- The signer has nothing of its own in the tree.
theorem SignerStep.of_plain (htarget : p'.signer.target = none)
    (hcreating : ∀ job soa zones handle, p'.signer ≠ .creating job soa zones handle)
    (hcommitted : ∀ n s, p'.signer ≠ .committed n s) : SignerStep p p' where
  creating := fun job soa zones handle h ↦ absurd h (hcreating job soa zones handle)
  target := by
    intro n handle h
    rw [htarget] at h
    cases h
  committed := fun n s h ↦ absurd h (hcommitted n s)

theorem signerStep_of_step (h : p.step a = some p') : SignerStep p p' := by
  by_cases ha : a.task = .signer
  · cases signerTurn_of_step h ha with
    | receive | read | noSoa | panic | fail => exact .of_plain rfl (by simp) (by simp)
    | skip => exact .of_eq rfl
    | choose _ hlookup =>
      refine ⟨fun _ _ _ _ hpc ↦ (by cases hpc), ?_, fun _ _ hpc ↦ (by cases hpc)⟩
      intro n handle htarget
      cases htarget
      exact Or.inr hlookup
    | create _ hnone =>
      refine ⟨?_, fun _ _ htarget ↦ (by cases htarget), fun _ _ hpc ↦ (by cases hpc)⟩
      intro job soa zones handle hpc
      cases hpc
      exact Or.inr ⟨rfl, hnone⟩
    | store =>
      refine ⟨fun _ _ _ _ hpc ↦ (by cases hpc), ?_, fun _ _ hpc ↦ (by cases hpc)⟩
      intro n handle htarget
      cases htarget
      exact Or.inr (AList.lookup_insert _)
    | configure hsigner | collect hsigner =>
      refine ⟨fun _ _ _ _ hpc ↦ (by cases hpc), ?_, fun _ _ hpc ↦ (by cases hpc)⟩
      intro n handle htarget
      exact Or.inl (hsigner ▸ htarget)
    | commit hsigner =>
      refine ⟨fun _ _ _ _ hpc ↦ (by cases hpc), fun _ _ htarget ↦ (by cases htarget), ?_⟩
      intro n s hpc
      cases hpc
      exact Or.inr ⟨_, by rw [hsigner]; rfl⟩
    | @report _ n s =>
      have hidle : (({ p with signer := .idle } : Pipeline).send
          [.ZoneSignedEvent n s]).signer = .idle := rfl
      exact .of_plain (by rw [hidle]; rfl) (by simp [hidle]) (by simp [hidle])
  · exact .of_eq ((step_frame h).signer ha)

/-- How the publication server comes to have a copy of the tree, and a zone to publish. -/
structure PublisherStep (p p' : Pipeline) : Prop where
  loaded : ∀ zones, p'.publisher.loaded = some zones →
    p.publisher.loaded = some zones ∨ zones = p'.signedZones
  adding : ∀ n handle signed published, p'.publisher = .adding n handle signed published →
    (p.publisher = .adding n handle signed published ∧ p'.publishedZones = p.publishedZones) ∨
      (p'.signedZones.lookup n = some handle ∧ published = p'.publishedZones)

theorem publisherStep_of_step (h : p.step a = some p') : PublisherStep p p' := by
  by_cases ha : a.task = .publisher
  · cases publisherTurn_of_step h ha with
    | take _ _ hlookup =>
      refine ⟨fun _ hloaded ↦ Or.inr (Option.some.inj hloaded).symm, ?_⟩
      intro n handle signed published hadding
      cases hadding
      exact Or.inr ⟨hlookup, rfl⟩
    | skip => exact ⟨fun _ hloaded ↦ Or.inl hloaded, fun _ _ _ _ hadding ↦ Or.inl ⟨hadding, rfl⟩⟩
    | add hpublisher =>
      refine ⟨?_, fun _ _ _ _ hadding ↦ (by cases hadding)⟩
      intro zones hloaded
      rw [hpublisher]
      exact Or.inl hloaded
    | remove => exact ⟨fun _ hloaded ↦ (by cases hloaded), fun _ _ _ _ hadding ↦ (by cases hadding)⟩
  · have hframe := step_frame h
    have hpublisher := hframe.publisher ha
    refine ⟨fun _ hloaded ↦ Or.inl (hpublisher ▸ hloaded), ?_⟩
    exact fun _ _ _ _ hadding ↦ Or.inl ⟨hpublisher ▸ hadding, hframe.publishedZones ha⟩

end

/-! ## The copies of the tree -/

/-- The invariant: the copy of the signer has every zone of the tree, but not the one that is
created, the tree has every zone of the copy of the publication server, and the zone that is signed
into or published is the one of the tree, if there is one. -/
structure Nested (p : Pipeline) : Prop where
  creating : ∀ job soa zones handle, p.signer = .creating job soa zones handle →
    zones.lookup job.zoneName = none ∧
      ∀ m h, p.signedZones.lookup m = some h → zones.lookup m = some h
  loaded : ∀ zones, p.publisher.loaded = some zones →
    ∀ m h, zones.lookup m = some h → p.signedZones.lookup m = some h
  target : ∀ n handle, p.signer.target = some (n, handle) →
    ∀ h, p.signedZones.lookup n = some h → h = handle
  adding : ∀ n handle signed published, p.publisher = .adding n handle signed published →
    p.signedZones.lookup n = some handle ∧ published = p.publishedZones

section

variable {p p' : Pipeline} {a : Action}

theorem nested_started (h : p.Started) : p.Nested := by
  have ⟨center, rsHooks, rs2Hooks, _, hp⟩ := h
  rw [hp]
  exact ⟨fun _ _ _ _ hpc ↦ (by cases hpc), fun _ hpc ↦ (by cases hpc),
    fun _ _ hpc ↦ (by cases hpc), fun _ _ _ _ hpc ↦ (by cases hpc)⟩

-- A store of the signer loses no zone.
theorem Nested.lookup_store (hinv : p.Nested) {job : SignJob} {soa : SignRead Soa}
    {zones : ZoneTree} {handle : Handle} (hpc : p.signer = .creating job soa zones handle)
    {m : Name} {h : Handle} (hm : p.signedZones.lookup m = some h) :
    (zones.insert job.zoneName handle).lookup m = some h := by
  have ⟨hnone, hsub⟩ := hinv.creating job soa zones handle hpc
  have hold := hsub m h hm
  by_cases hname : m = job.zoneName
  · rw [hname, hnone] at hold
    cases hold
  · rw [AList.lookup_insert_ne hname]
    exact hold

-- The publication server brings no zone back.
theorem Nested.lookup_remove (hinv : p.Nested) {n : Name} {zones : ZoneTree}
    (hpc : p.publisher = .removing n zones) {m : Name} {h : Handle}
    (hm : (zones.erase n).lookup m = some h) : p.signedZones.lookup m = some h := by
  have hloaded : p.publisher.loaded = some zones := by rw [hpc]; rfl
  by_cases hname : m = n
  · rw [hname, AList.lookup_erase] at hm
    cases hm
  · rw [AList.lookup_erase_ne hname] at hm
    exact hinv.loaded zones hloaded m h hm

theorem Nested.step (hinv : p.Nested) (h : p.step a = some p') : p'.Nested := by
  have hsigner := signerStep_of_step h
  have hpublisher := publisherStep_of_step h
  cases signedStep_of_step h with
  | @store records job soa zones handle hpc hp' =>
    subst hp'
    refine ⟨fun _ _ _ _ hpc' ↦ (by cases hpc'), ?_, ?_, ?_⟩
    · intro loaded hloaded m h' hm
      exact hinv.lookup_store hpc (hinv.loaded loaded hloaded m h' hm)
    · intro n handle' htarget h' hlookup
      cases htarget
      rw [AList.lookup_insert] at hlookup
      exact (Option.some.inj hlookup).symm
    · intro n handle' signed published hadding
      have ⟨hlookup, hsame⟩ := hinv.adding n handle' signed published hadding
      exact ⟨hinv.lookup_store hpc hlookup, hsame⟩
  | @remove n zones hpc hp' =>
    have hback : ∀ m h', p'.signedZones.lookup m = some h' → p.signedZones.lookup m = some h' := by
      intro m h' hm
      rw [hp'] at hm
      exact hinv.lookup_remove hpc hm
    subst hp'
    refine ⟨?_, fun _ hpc' ↦ (by cases hpc'), ?_, fun _ _ _ _ hpc' ↦ (by cases hpc')⟩
    · intro job soa loaded handle hpc'
      have ⟨hnone, hsub⟩ := hinv.creating job soa loaded handle hpc'
      exact ⟨hnone, fun m h' hm ↦ hsub m h' (hback m h' hm)⟩
    · intro m handle htarget h' hlookup
      exact hinv.target m handle htarget h' (hback m h' hlookup)
  | keep hsame _ =>
    refine ⟨?_, ?_, ?_, ?_⟩
    · intro job soa zones handle hpc
      rw [hsame]
      rcases hsigner.creating job soa zones handle hpc with hold | ⟨hnew, hnone⟩
      · exact hinv.creating job soa zones handle (hold.trans hpc)
      · rw [hnew, hsame] at hnone ⊢
        exact ⟨hnone, fun _ _ hm ↦ hm⟩
    · intro zones hloaded m h' hm
      rw [hsame]
      rcases hpublisher.loaded zones hloaded with hold | hnew
      · exact hinv.loaded zones hold m h' hm
      · rw [hnew, hsame] at hm
        exact hm
    · intro n handle htarget h' hlookup
      rcases hsigner.target n handle htarget with hold | hnew
      · rw [hsame] at hlookup
        exact hinv.target n handle hold h' hlookup
      · rw [hnew] at hlookup
        exact (Option.some.inj hlookup).symm
    · intro n handle signed published hadding
      rw [hsame]
      rcases hpublisher.adding n handle signed published hadding with ⟨hold, hzones⟩ | ⟨hnew, hzones⟩
      · rw [hzones]
        exact hinv.adding n handle signed published hold
      · rw [hsame] at hnew
        exact ⟨hnew, hzones⟩

-- A store of the signer loses no zone, and one of the publication server no other zone.
theorem mem_signedZones_of_store (hinv : p.Nested) {job : SignJob} {soa : SignRead Soa}
    {zones : ZoneTree} {handle : Handle} (hpc : p.signer = .creating job soa zones handle) {m : Name}
    (hm : m ∈ p.signedZones) : m ∈ zones.insert job.zoneName handle := by
  have ⟨h, hlookup⟩ := HashMap.mem_iff_lookup.mp hm
  exact HashMap.mem_iff_lookup.mpr ⟨h, hinv.lookup_store hpc hlookup⟩

theorem mem_signedZones_of_remove {n m : Name} {zones : ZoneTree}
    (hok : p.keepsSigned .publisherNext = true) (hpc : p.publisher = .removing n zones)
    (hm : m ∈ p.signedZones) (hne : m ≠ n) : m ∈ zones.erase n := by
  simp only [keepsSigned, hpc] at hok
  have hkept := List.all_eq_true.mp hok m hm
  have hmem : m ∈ zones := by simpa [hne] using hkept
  exact AList.mem_erase.mpr ⟨hne, hmem⟩

end

/-! ## Waiting for publication -/

/-- The pipeline, with the zones that wait for their publication. -/
structure Watched where
  pipeline : Pipeline
  waiting : List Name

namespace Watched

def step (w : Watched) (a : Action) : Option Watched :=
  match w.pipeline.step a with
  | some p' => some ⟨p', w.pipeline.waitingAfter w.waiting a⟩
  | none => none

def Started (w : Watched) : Prop := w.pipeline.Started ∧ w.waiting = []

variable {w w' : Watched} {a : Action}

theorem step_eq (h : w.step a = some w') : w.pipeline.step a = some w'.pipeline ∧
    w'.waiting = w.pipeline.waitingAfter w.waiting a := by
  unfold Watched.step at h
  split at h
  next hp' =>
    cases h
    exact ⟨hp', rfl⟩
  · cases h

/-- The invariant: what waits is in the tree. -/
structure Kept (w : Watched) : Prop where
  nested : w.pipeline.Nested
  waiting : ∀ n ∈ w.waiting, n ∈ w.pipeline.signedZones

theorem Kept.step (hinv : w.Kept) (hok : w.pipeline.keepsSigned a = true)
    (h : w.step a = some w') : w'.Kept := by
  have ⟨hp', hwaiting⟩ := step_eq h
  refine ⟨hinv.nested.step hp', ?_⟩
  intro n hn
  rw [hwaiting] at hn
  cases signedStep_of_step hp' with
  | @store records job soa zones handle hpc hstore =>
    rw [hstore]
    simp only [waitingAfter, hpc] at hn
    rcases List.mem_cons.mp hn with hnew | hold
    · exact (AList.mem_insert _).mpr (Or.inl hnew)
    · exact mem_signedZones_of_store hinv.nested hpc (hinv.waiting n hold)
  | @remove m zones hpc hremove =>
    rw [hremove]
    simp only [waitingAfter, hpc] at hn
    have ⟨hold, hne⟩ := List.mem_filter.mp hn
    exact mem_signedZones_of_remove hok hpc (hinv.waiting n hold) (of_decide_eq_true hne)
  | keep hsame hsub =>
    rw [hsame]
    exact hinv.waiting n (hsub w.waiting n hn)

end Watched

/-! ## What is to be published -/

/-- The invariant: a version that is under review, or being signed, is one of a zone in the tree. -/
structure Findable (p : Pipeline) : Prop where
  nested : p.Nested
  underReview : ∀ n s, p.UnderReview n s → n ∈ p.signedZones
  target : ∀ n handle, p.signer.target = some (n, handle) → n ∈ p.signedZones

variable {p p' : Pipeline} {a : Action}

theorem Started.not_underReview (h : p.Started) (n : Name) (s : Serial) : ¬p.UnderReview n s := by
  have hflight := h.inFlight
  have ⟨center, rsHooks, rs2Hooks, _, hp⟩ := h
  intro hreview
  rcases hreview with hcommitted | (⟨cmd, hcmd, _⟩ | hpending) | hpublish
  · rw [hp] at hcommitted
    cases hcommitted
  · rw [hflight] at hcmd
    cases hcmd
  · rw [hp] at hpending
    exact absurd hpending (AList.notMem_empty _)
  · rw [hflight] at hpublish
    cases hpublish

theorem findable_started (h : p.Started) : p.Findable := by
  refine ⟨nested_started h, fun n s hreview ↦ absurd hreview (h.not_underReview n s), ?_⟩
  have ⟨center, rsHooks, rs2Hooks, _, hp⟩ := h
  rw [hp]
  exact fun _ _ htarget ↦ (by cases htarget)

-- A version comes under review when the signer has committed to its target.
theorem Findable.underReview_of_step (hinv : p.Findable) (h : p.step a = some p') {n : Name}
    {s : Serial} (hreview : p'.UnderReview n s) : n ∈ p.signedZones := by
  rcases Pipeline.underReview_of_step h hreview with hold | hcommitted
  · exact hinv.underReview n s hold
  · rcases (signerStep_of_step h).committed n s hcommitted with hold | ⟨handle, htarget⟩
    · exact hinv.underReview n s (Or.inl (hold.trans hcommitted))
    · exact hinv.target n handle htarget

theorem Findable.step (hinv : p.Findable)
    (hok : (p.keepsSigned a && p.removesLast a) = true) (h : p.step a = some p') :
    p'.Findable := by
  have ⟨hkeeps, hlast⟩ := Bool.and_eq_true_iff.mp hok
  have hreview : ∀ n s, p'.UnderReview n s → n ∈ p.signedZones :=
    fun n s ↦ hinv.underReview_of_step h
  have htarget : ∀ n handle, p'.signer.target = some (n, handle) →
      n ∈ p.signedZones ∨ n ∈ p'.signedZones := by
    intro n handle hp'
    rcases (signerStep_of_step h).target n handle hp' with hold | hnew
    · exact Or.inl (hinv.target n handle hold)
    · exact Or.inr (HashMap.mem_iff_lookup.mpr ⟨handle, hnew⟩)
  cases signedStep_of_step h with
  | @store records job soa zones handle hpc hstore =>
    have hgrow : ∀ m, m ∈ p.signedZones → m ∈ p'.signedZones := by
      intro m hm
      rw [hstore]
      exact mem_signedZones_of_store hinv.nested hpc hm
    refine ⟨hinv.nested.step h, fun n s hr ↦ hgrow n (hreview n s hr), ?_⟩
    intro n handle' hp'
    rcases htarget n handle' hp' with hold | hnew
    · exact hgrow n hold
    · exact hnew
  | @remove m zones hpc hremove =>
    -- nothing more of the zone that is taken out is on its way
    simp only [removesLast, hpc, Bool.and_eq_true, Bool.not_eq_true'] at hlast
    have hstay : ∀ n, n ∈ p.signedZones → n ≠ m → n ∈ p'.signedZones := by
      intro n hn hne
      rw [hremove]
      exact mem_signedZones_of_remove hkeeps hpc hn hne
    have hsigner : p'.signer = p.signer := by rw [hremove]
    refine ⟨hinv.nested.step h, ?_, ?_⟩
    · intro n s hr
      apply hstay n (hreview n s hr)
      intro hn
      have hold : p.UnderReview n s := by
        rcases Pipeline.underReview_of_step h hr with hold | hcommitted
        · exact hold
        · exact Or.inl (hsigner ▸ hcommitted)
      rw [hn] at hold
      rw [reviewed_of_underReview hold] at hlast
      exact absurd hlast.1 (by simp)
    · intro n handle hp'
      rw [hsigner] at hp'
      apply hstay n (hinv.target n handle hp')
      intro hn
      rw [hp', hn] at hlast
      simp at hlast
  | keep hsame _ =>
    refine ⟨hinv.nested.step h, ?_, ?_⟩
    · intro n s hr
      rw [hsame]
      exact hreview n s hr
    · intro n handle hp'
      rcases htarget n handle hp' with hold | hnew
      · rw [hsame]
        exact hold
      · exact hnew

/-- In every run in which the publication server takes out only the zone that it has published, a
zone that the signer has put into the tree stays there until a command to publish it has been
handled.  In every such run in which it takes a zone out only when no further version of it is under
review or being signed, every command to publish a zone finds it. -/
theorem signed_zones_wait (n : Name) :
    (∀ w : Watched, Reach Watched.step (fun w a ↦ w.pipeline.keepsSigned a = true)
      Watched.Started w → n ∈ w.waiting → n ∈ w.pipeline.signedZones) ∧
    ∀ p : Pipeline,
      Reach Pipeline.step (fun p a ↦ (p.keepsSigned a && p.removesLast a) = true) Started p →
      ∀ s, .PublishSignedZone n s ∈ p.inFlight .PS → n ∈ p.signedZones := by
  refine ⟨?_, ?_⟩
  · intro w h
    have hkept : w.Kept := h.invariant
      (fun w hw ↦ ⟨nested_started hw.1, by rw [hw.2]; exact fun n hn ↦ absurd hn List.not_mem_nil⟩)
      (fun _ _ _ hinv hok hstep ↦ hinv.step hok hstep)
    exact hkept.waiting n
  · intro p h s hmem
    have hfindable : p.Findable := h.invariant (fun _ ↦ findable_started)
      (fun _ _ _ hinv hok hstep ↦ hinv.step hok hstep)
    exact hfindable.underReview n s (Or.inr (Or.inr hmem))

theorem exists_of_isPublish {n : Name} (h : (p.inFlight .PS).any (isPublish n) = true) :
    ∃ s, .PublishSignedZone n s ∈ p.inFlight .PS := by
  have ⟨cmd, hmem, hcmd⟩ := List.any_eq_true.mp h
  unfold isPublish at hcmd
  split at hcmd
  next m s =>
    rw [of_decide_eq_true hcmd] at hmem
    exact ⟨s, hmem⟩
  · cases hcmd

/-! ## A daemon with two zones -/

namespace TwoZones

def first : Name := OneZone.zone

def second : Name := ⟨[[102]], by decide⟩

/-- The registry with both zones, and with a policy that both use. -/
def state : State :=
  { State.new Config.default with
    zones := (AList.insert second { policy := some OneZone.version }
      (AList.insert first { policy := some OneZone.version } ∅))
    policies := AList.insert "default"
      { latest := OneZone.version, midDeletion := false
        zones := AList.insert second () (AList.insert first () ∅) } ∅ }

def daemon : Pipeline := Pipeline.new ⟨state, [], 0⟩ [] []

theorem daemon_started : daemon.Started := ⟨⟨state, [], 0⟩, [], [], rfl, rfl⟩

/-- The zone is added as a secondary one, and its first version is transferred and approved. -/
def approvedVersion (zone : Name) : List Action :=
  [.zoneAdd ⟨zone, .Server (.V4 0 53), "default"⟩, .zoneAddNext 0, .zoneAddNext 0, .forward,
    .loaderReceive (some ⟨none, []⟩) true, .loaderInsert, .loaderStore, .direct] ++
  List.replicate 6 .forward ++
  [.loaderReceive none true, .rsReceive OneZone.noHooks, .rs2Receive OneZone.noHooks,
    .signerReceive, .publisherReceive, .transferCommit zone 0 (OneZone.content 1), .promote zone,
    .promoteStore] ++ OneZone.reviewUnsigned

/-- The signer signs the version that it is asked for. -/
def signs : List Action := [.signerReceive] ++ List.replicate 7 (.signerNext [])

/-- The first zone is signed and approved. -/
def firstSigned : List Action := approvedVersion first ++ signs ++ OneZone.reviewSigned

/-- The second zone is signed and approved after the first one was published. -/
def inTurn : List Action :=
  firstSigned ++ [.publisherReceive, .publisherNext, .publisherNext] ++ approvedVersion second ++
    signs ++ OneZone.reviewSigned

/-- The signer stores the tree with the second zone after the publication server has loaded it to
publish the first one. -/
def overlapping : List Action :=
  firstSigned ++ approvedVersion second ++ signs ++ [.publisherNext, .publisherNext] ++
    OneZone.reviewSigned

end TwoZones

theorem second_zone_found :
    (∃ w : Watched, TwoZones.second ∈ w.waiting ∧ TwoZones.second ∈ w.pipeline.signedZones) ∧
    ∃ p : Pipeline, (∃ s, .PublishSignedZone TwoZones.second s ∈ p.inFlight .PS) ∧
      TwoZones.second ∈ p.signedZones := by
  have hstarted : Watched.Started ⟨TwoZones.daemon, []⟩ := ⟨TwoZones.daemon_started, rfl⟩
  have hwaits : ∃ w, Reach Watched.step (fun w a ↦ w.pipeline.keepsSigned a = true)
      Watched.Started w ∧ decide (TwoZones.second ∈ w.waiting) = true :=
    Reach.of_exec hstarted TwoZones.inTurn (by decide) (by decide)
  have hsent : ∃ p, Reach Pipeline.step
      (fun p a ↦ (p.keepsSigned a && p.removesLast a) = true) Started p ∧
        (p.inFlight .PS).any (isPublish TwoZones.second) = true :=
    Reach.of_exec TwoZones.daemon_started TwoZones.inTurn (by decide) (by decide)
  have ⟨w, hw, hwaiting⟩ := hwaits
  have ⟨p, hp, hany⟩ := hsent
  have ⟨s, hmem⟩ := exists_of_isPublish hany
  have hwaiting' := of_decide_eq_true hwaiting
  have ⟨hwatched, hfound⟩ := signed_zones_wait TwoZones.second
  exact ⟨⟨w, hwaiting', hwatched w hw hwaiting'⟩, ⟨p, ⟨s, hmem⟩, hfound p hp s hmem⟩⟩

/-- The second zone is dropped when the first one is taken out, and the command to publish it finds
nothing. -/
theorem second_zone_dropped : ∃ w : Watched, Reach Watched.step anyStep Watched.Started w ∧
    TwoZones.second ∈ w.waiting ∧ TwoZones.second ∉ w.pipeline.signedZones ∧
      ∃ s, .PublishSignedZone TwoZones.second s ∈ w.pipeline.inFlight .PS := by
  have hwatched : Watched.Started ⟨TwoZones.daemon, []⟩ := ⟨TwoZones.daemon_started, rfl⟩
  have hrun : ∃ w, Reach Watched.step anyStep Watched.Started w ∧
      (decide (TwoZones.second ∈ w.waiting ∧ TwoZones.second ∉ w.pipeline.signedZones) &&
        (w.pipeline.inFlight .PS).any (isPublish TwoZones.second)) = true :=
    Reach.of_exec_any hwatched TwoZones.overlapping (by decide)
  have ⟨w, hw, hend⟩ := hrun
  have ⟨hzones, hany⟩ := Bool.and_eq_true_iff.mp hend
  have ⟨hwaiting, hdropped⟩ := of_decide_eq_true hzones
  exact ⟨w, hw, hwaiting, hdropped, exists_of_isPublish hany⟩

end Pipeline

end Cascade

import Cascade.Steps

/-!
# What is signed

The signer reads the SOA record and the records of an unsigned zone one after the other, from the
zone as it is then.  A version is under review from its commit until the signer has collected its
records.  As long as no zone is changed, or registered a second time, while a version of it is under
review, what is signed is the one version that was approved.
-/

namespace Cascade

open Lib

namespace Pipeline

/-- What the signer has collected for an approved version is the content of one commit, and that
commit has the approved serial. -/
def OneSnapshot (p : Pipeline) : Prop :=
  ∀ job soa handle policy records s,
    p.signer = .collected job soa handle policy records → job.zoneSerial = some s →
      ∃ v content, p.commits[v]? = some (job.zoneName, content) ∧
        soa.version = some v ∧ records.version = some v ∧
        content.soa = some soa.value ∧ records.value = collectZone content ∧
        soa.value.serial = s

/-- An unsigned version between its commit and the collection of its records. -/
def UnsignedReview (p : Pipeline) (n : Name) (s : Serial) : Prop :=
  (n, s) ∈ p.zoneUpdated ∨ p.Reviews .RS p.rs (n, s) ∨ .SignZone n (some s) ∈ p.inFlight .ZS ∨
    ∃ job, p.signer.reading = some job ∧ job.zoneName = n ∧ job.zoneSerial = some s

def signsVersion (n : Name) : ApplicationCommand → Bool
  | .SignZone m (some _) => decide (m = n)
  | _ => false

def unsignedReviewed (p : Pipeline) (n : Name) : Bool :=
  p.zoneUpdated.any (fun k ↦ decide (k.1 = n)) || p.reviewsZone .RS p.rs n ||
    (p.inFlight .ZS).any (signsVersion n) ||
    p.signer.reading.any (fun job ↦ decide (job.zoneName = n) && job.zoneSerial.isSome)

/-- No zone is changed while a version of it is under review, and every name is registered once. -/
def settled (p : Pipeline) : Action → Bool
  | .loaderReceive loaded _ =>
    match p.loader, p.net.receive .ZL with
    | .idle, some (.RegisterZone zone, _) =>
      !registers zone loaded || decide (p.unsignedHeap.next zone.name = 0)
    | _, _ => true
  | .transferWrite name _ _ => !p.unsignedReviewed name
  | .transferCommit name _ _ => !p.unsignedReviewed name
  | _ => true

theorem unsignedReviewed_of_review {p : Pipeline} {n : Name} {s : Serial}
    (h : p.UnsignedReview n s) : p.unsignedReviewed n = true := by
  unfold unsignedReviewed
  rcases h with h | h | h | ⟨job, hjob, hname, hserial⟩
  · have hany : p.zoneUpdated.any (fun k ↦ decide (k.1 = n)) = true :=
      List.any_eq_true.mpr ⟨_, h, by simp⟩
    simp [hany]
  · simp [reviewsZone_of_reviews h]
  · have hany : (p.inFlight .ZS).any (signsVersion n) = true :=
      List.any_eq_true.mpr ⟨_, h, by simp [signsVersion]⟩
    simp [hany]
  · simp [hjob, hname, hserial]

/-! ## The invariant -/

/-- The zone is as it was committed, with this serial. -/
def Current (p : Pipeline) (n : Name) (s : Serial) : Prop :=
  ∃ zone v soa, p.unsignedHeap.get n 0 = some zone ∧ zone.version = some v ∧
    p.commits[v]? = some (n, zone.content) ∧ zone.content.soa = some soa ∧ soa.serial = s

/-- The first zone of every name is the only one. -/
def FirstOnly (tree : ZoneTree) : Prop := ∀ n handle, tree.lookup n = some handle → handle = 0

def LoaderTask.FirstOnly : LoaderTask → Prop
  | .inserting _ handle _ => handle = 0
  | .storing newZones => Pipeline.FirstOnly newZones
  | _ => True

/-- Every name has at most one zone. -/
structure FirstZones (p : Pipeline) : Prop where
  next : ∀ n, p.unsignedHeap.next n ≤ 1
  unsignedZones : FirstOnly p.unsignedZones
  pendingZones : FirstOnly p.pendingZones
  loader : LoaderTask.FirstOnly p.loader
  maintainer : LoaderTask.FirstOnly p.maintainer

structure Settled (p : Pipeline) : Prop extends FirstZones p where
  review : ∀ n s, p.UnsignedReview n s → p.Current n s
  job : ∀ job, p.signer.reading = some job → job.zoneSerial.isSome → job.handle = 0
  soa : ∀ job soa, p.signer.reading = some job → p.signer.soaRead = some soa →
    job.zoneSerial.isSome → ∃ zone, p.unsignedHeap.get job.zoneName 0 = some zone ∧
      soa.version = zone.version ∧ zone.content.soa = some soa.value
  collected : p.OneSnapshot

theorem firstOnly_empty : FirstOnly ∅ := by
  intro n handle hlookup
  cases hlookup

theorem FirstOnly.insert {tree : ZoneTree} {n : Name} {handle : Handle} (h : FirstOnly tree)
    (hhandle : handle = 0) : FirstOnly (tree.insert n handle) := by
  intro m k hlookup
  by_cases hm : m = n
  · subst hm
    rw [AList.lookup_insert] at hlookup
    cases hlookup
    exact hhandle
  · rw [AList.lookup_insert_ne hm] at hlookup
    exact h m k hlookup

theorem FirstOnly.erase {tree : ZoneTree} {n : Name} (h : FirstOnly tree) :
    FirstOnly (tree.erase n) := by
  intro m k hlookup
  by_cases hm : m = n
  · subst hm
    rw [AList.lookup_erase] at hlookup
    cases hlookup
  · rw [AList.lookup_erase_ne hm] at hlookup
    exact h m k hlookup

theorem settled_started {p : Pipeline} (h : p.Started) : p.Settled := by
  have hflight := h.inFlight
  obtain ⟨center, rsHooks, rs2Hooks, -, rfl⟩ := h
  have hreview : ∀ n s, ¬(Pipeline.new center rsHooks rs2Hooks).UnsignedReview n s := by
    intro n s hreview
    rcases hreview with h | (⟨cmd, hmem, -⟩ | h) | h | ⟨job, hjob, -⟩
    · cases h
    · rw [hflight] at hmem
      cases hmem
    · exact absurd h (AList.notMem_empty _)
    · rw [hflight] at h
      cases h
    · cases hjob
  exact {
    next := fun _ ↦ Nat.zero_le 1
    unsignedZones := firstOnly_empty
    pendingZones := firstOnly_empty
    loader := trivial
    maintainer := trivial
    review := fun n s h ↦ absurd h (hreview n s)
    job := fun _ h ↦ by cases h
    soa := fun _ _ h ↦ by cases h
    collected := fun _ _ _ _ _ _ h ↦ by cases h }

/-! ## Steps -/

section

variable {p p' : Pipeline} {a : Action}

theorem getElem?_append_of_some {α : Type} {l l' : List α} {i : Nat} {x : α}
    (h : l[i]? = some x) : (l ++ l')[i]? = some x := by
  obtain ⟨hi, -⟩ := List.getElem?_eq_some_iff.mp h
  rw [List.getElem?_append_left hi, h]

/-- What a step does to the unsigned zones, to the record of their commits and to the versions that
are announced. -/
inductive ZoneStep (p : Pipeline) : Action → Pipeline → Prop
  | keeps {a : Action} {p' : Pipeline} : p'.unsignedHeap = p.unsignedHeap →
      p'.commits = p.commits → (∀ k ∈ p'.zoneUpdated, k ∈ p.zoneUpdated) → ZoneStep p a p'
  | empty {loaded : Option ZoneContent} {isSecondary : Bool} {name : Name} {p' : Pipeline} :
      (p.settled (.loaderReceive loaded isSecondary) = true → p.unsignedHeap.next name = 0) →
      p'.unsignedHeap = p.unsignedHeap.alloc name ⟨⟨none, []⟩, none, isSecondary⟩ →
      p'.commits = p.commits → p'.zoneUpdated = p.zoneUpdated →
      ZoneStep p (.loaderReceive loaded isSecondary) p'
  | file {loaded : Option ZoneContent} {isSecondary : Bool} {name : Name} {soa : Soa}
      {records : List StoredRecord} {p' : Pipeline} :
      (p.settled (.loaderReceive loaded isSecondary) = true → p.unsignedHeap.next name = 0) →
      p'.unsignedHeap =
        p.unsignedHeap.alloc name ⟨⟨some soa, records⟩, some p.commits.length, false⟩ →
      p'.commits = p.commits ++ [(name, ⟨some soa, records⟩)] →
      p'.zoneUpdated = p.zoneUpdated ++ [(name, soa.serial)] →
      ZoneStep p (.loaderReceive loaded isSecondary) p'
  | write {name : Name} {handle : Handle} {content : ZoneContent} {p' : Pipeline} :
      p'.unsignedHeap = p.unsignedHeap.set name handle ⟨content, none, true⟩ →
      p'.commits = p.commits → p'.zoneUpdated = p.zoneUpdated →
      ZoneStep p (.transferWrite name handle content) p'
  | commit {name : Name} {handle : Handle} {content : ZoneContent} {old : UnsignedZone}
      {p' : Pipeline} : p.unsignedHeap.get name handle = some old →
      p'.unsignedHeap =
        p.unsignedHeap.set name handle ⟨content, some p.commits.length, true⟩ →
      p'.commits = p.commits ++ [(name, content)] →
      p'.zoneUpdated =
        p.zoneUpdated ++ (content.soa.map (fun soa ↦ (name, soa.serial))).toList →
      ZoneStep p (.transferCommit name handle content) p'

theorem zoneStep_of_step (h : p.step a = some p') : ZoneStep p a p' := by
  by_cases ha : a.task = .loader ∨ a.task = .transfer
  · cases a with
    | loaderReceive loaded isSecondary =>
      obtain ⟨cmd, net, hidle, hreceive, rfl | ⟨zone, rfl, hregisters, rfl⟩⟩ :=
        loaderReceive_spec h
      · exact .keeps rfl rfl (fun _ hk ↦ hk)
      · have hnext : p.settled (.loaderReceive loaded isSecondary) = true →
            p.unsignedHeap.next zone.name = 0 := by
          intro hok
          simpa [settled, hidle, hreceive, hregisters] using hok
        rcases register_of_registers (p.withNet net) hregisters with heq | ⟨soa, records, heq⟩
        · rw [heq]
          exact .empty hnext rfl rfl rfl
        · rw [heq]
          exact .file hnext rfl rfl rfl
    | loaderUpdated =>
      simp only [step, loaderUpdated] at h
      split at h
      next hupdated =>
        cases h
        refine .keeps rfl rfl ?_
        intro k hk
        rw [hupdated]
        exact List.mem_cons_of_mem _ hk
      · cases h
    | loaderInsert | loaderStore =>
      simp only [step, loaderInsert, loaderStore] at h
      repeat' split at h
      all_goals cases h
      all_goals exact .keeps rfl rfl (fun _ hk ↦ hk)
    | transferWrite name handle content =>
      simp only [step, transferWrite] at h
      split at h
      · cases h
        exact .write rfl rfl rfl
      · cases h
    | transferCommit name handle content =>
      simp only [step, transferCommit] at h
      split at h
      next hget =>
        cases h
        exact .commit hget rfl rfl rfl
      · cases h
    | _ => rcases ha with ha | ha <;> cases ha
  · rw [not_or] at ha
    have hframe := step_frame h
    exact .keeps (hframe.unsignedHeap ha.1 ha.2) (hframe.commits ha.1 ha.2)
      (fun k hk ↦ hframe.zoneUpdated ha.1 ha.2 ▸ hk)

-- A commit is never forgotten.
theorem commits_of_step (h : p.step a = some p') {v : Nat} {x : Name × ZoneContent}
    (hx : p.commits[v]? = some x) : p'.commits[v]? = some x := by
  cases zoneStep_of_step h with
  | keeps _ hcommits _ | empty _ _ hcommits _ | write _ hcommits _ =>
    rw [hcommits]
    exact hx
  | file _ _ hcommits _ | commit _ _ hcommits _ =>
    rw [hcommits]
    exact getElem?_append_of_some hx

-- A zone with a version under review stays as it is.
theorem zone_of_step (hok : p.settled a = true) (h : p.step a = some p') {n : Name} {s : Serial}
    (hreview : p.UnsignedReview n s) {handle : Handle} {zone : UnsignedZone}
    (hzone : p.unsignedHeap.get n handle = some zone) :
    p'.unsignedHeap.get n handle = some zone := by
  have hreviewed := unsignedReviewed_of_review hreview
  have hset : ∀ {name handle' new}, p.unsignedReviewed name = false →
      (p.unsignedHeap.set name handle' new).get n handle = some zone := by
    intro name handle' new hfree
    have hn : n ≠ name := by
      intro hn
      rw [hn, hfree] at hreviewed
      cases hreviewed
    rw [Heap.get_set, if_neg (fun hsame ↦ hn hsame.1)]
    exact hzone
  cases zoneStep_of_step h with
  | keeps hheap _ _ =>
    rw [hheap]
    exact hzone
  | empty _ hheap _ _ | file _ hheap _ _ =>
    rw [hheap]
    exact Heap.get_alloc_of_some hzone
  | write hheap _ _ | commit _ hheap _ _ =>
    rw [hheap]
    exact hset (by simpa [settled] using hok)

theorem current_of_step (hok : p.settled a = true) (h : p.step a = some p') {n : Name}
    {s : Serial} (hreview : p.UnsignedReview n s) (hcurrent : p.Current n s) :
    p'.Current n s := by
  obtain ⟨zone, v, soa, hzone, hversion, hcommit, hsoa⟩ := hcurrent
  exact ⟨zone, v, soa, zone_of_step hok h hreview hzone, hversion, commits_of_step h hcommit, hsoa⟩

-- What is announced is the zone as it was just committed.
theorem zoneUpdated_of_step (hfirst : p.FirstZones) (hok : p.settled a = true)
    (h : p.step a = some p') {n : Name} {s : Serial} (hmem : (n, s) ∈ p'.zoneUpdated) :
    (n, s) ∈ p.zoneUpdated ∨ p'.Current n s := by
  cases zoneStep_of_step h with
  | keeps _ _ hupdated => exact Or.inl (hupdated _ hmem)
  | empty _ _ _ hupdated | write _ _ hupdated =>
    rw [hupdated] at hmem
    exact Or.inl hmem
  | @file _ _ name soa records _ hnext hheap hcommits hupdated =>
    rw [hupdated] at hmem
    rcases List.mem_append.mp hmem with hmem | hmem
    · exact Or.inl hmem
    · rw [List.mem_singleton, Prod.mk.injEq] at hmem
      obtain ⟨rfl, rfl⟩ := hmem
      refine Or.inr ⟨⟨⟨some soa, records⟩, some p.commits.length, false⟩, p.commits.length,
        soa, ?_, rfl, ?_, rfl, rfl⟩
      · rw [hheap, Heap.get_alloc, if_pos ⟨rfl, (hnext hok).symm⟩]
      · rw [hcommits]
        exact List.getElem?_concat_length
  | @commit name handle content _ _ hget hheap hcommits hupdated =>
    rw [hupdated] at hmem
    rcases List.mem_append.mp hmem with hmem | hmem
    · exact Or.inl hmem
    · rw [Option.mem_toList, Option.map_eq_some_iff] at hmem
      obtain ⟨soa, hsoa, heq⟩ := hmem
      rw [Prod.mk.injEq] at heq
      obtain ⟨rfl, rfl⟩ := heq
      -- the zone that is committed is the only one of its name
      have hlt : handle < p.unsignedHeap.next name := Heap.lt_next_iff.mpr ⟨_, hget⟩
      have hle := hfirst.next name
      have hzero : handle = 0 := Nat.lt_one_iff.mp (Nat.lt_of_lt_of_le hlt hle)
      subst hzero
      refine Or.inr ⟨⟨content, some p.commits.length, true⟩, p.commits.length, soa, ?_, rfl,
        ?_, hsoa, rfl⟩
      · rw [hheap, Heap.get_set, if_pos ⟨rfl, rfl⟩, hget, Option.map_some]
      · rw [hcommits]
        exact List.getElem?_concat_length

-- A version comes under review by its commit only.
theorem unsignedReview_of_step (hfirst : p.FirstZones) (hok : p.settled a = true)
    (h : p.step a = some p') {n : Name} {s : Serial} (hreview : p'.UnsignedReview n s) :
    p.UnsignedReview n s ∨ p'.Current n s := by
  rcases hreview with hmem | hreviews | hmem | ⟨job, hjob, hname, hserial⟩
  · rcases zoneUpdated_of_step hfirst hok h hmem with hmem | hcurrent
    · exact Or.inl (Or.inl hmem)
    · exact Or.inr hcurrent
  · rcases rs_reviews_of_step h hreviews with hreviews | hmem
    · exact Or.inl (Or.inr (Or.inl hreviews))
    · exact Or.inl (Or.inl hmem)
  · rcases step_inFlight h (by simp) hmem with hmem | hemits
    · exact Or.inl (Or.inr (Or.inr (Or.inl hmem)))
    · cases hemits with
      | approvedUnsigned hreviews => exact Or.inl (Or.inr (Or.inl hreviews))
  · rcases reading_of_step h hjob with hjob | ⟨-, hmem, -⟩
    · exact Or.inl (Or.inr (Or.inr (Or.inr ⟨job, hjob, hname, hserial⟩)))
    · rw [hname, hserial] at hmem
      exact Or.inl (Or.inr (Or.inr (Or.inl hmem)))

theorem next_of_step (hfirst : p.FirstZones) (hok : p.settled a = true)
    (h : p.step a = some p') (n : Name) : p'.unsignedHeap.next n ≤ 1 := by
  cases zoneStep_of_step h with
  | keeps hheap _ _ =>
    rw [hheap]
    exact hfirst.next n
  | empty hnext hheap _ _ | file hnext hheap _ _ =>
    rw [hheap, Heap.next_alloc]
    split
    next hn =>
      rw [hn, hnext hok]
    · exact hfirst.next n
  | write hheap _ _ | commit _ hheap _ _ =>
    rw [hheap, Heap.next_set]
    exact hfirst.next n

-- The loader passes on the zones that it was given, and registers every name once.
theorem FirstZones.of_loader (hfirst : p.FirstZones) (hok : p.settled a = true)
    (h : p.step a = some p') (ha : a.task = .loader) : p'.FirstZones := by
  have hnext := next_of_step hfirst hok h
  cases a with
  | loaderReceive loaded isSecondary =>
    obtain ⟨cmd, net, hidle, hreceive, rfl | ⟨zone, rfl, hregisters, rfl⟩⟩ :=
      loaderReceive_spec h
    · exact { hfirst with }
    · have hzero : p.unsignedHeap.next zone.name = 0 := by
        simpa [settled, hidle, hreceive, hregisters] using hok
      rcases register_of_registers (p.withNet net) hregisters with heq | ⟨soa, records, heq⟩
      · rw [heq] at hnext ⊢
        exact { hfirst with next := hnext, loader := hzero }
      · rw [heq] at hnext ⊢
        exact { hfirst with next := hnext, loader := hzero }
  | loaderUpdated =>
    simp only [Pipeline.step, loaderUpdated] at h
    split at h
    · cases h
      exact { hfirst with }
    · cases h
  | loaderInsert =>
    have hhandle := hfirst.loader
    simp only [Pipeline.step, loaderInsert] at h
    split at h
    next hpc =>
      cases h
      rw [hpc] at hhandle
      exact { hfirst with
        pendingZones := hfirst.pendingZones.insert hhandle
        loader := hfirst.unsignedZones }
    next hpc =>
      rw [hpc] at hhandle
      split at h
      · cases h
        exact { hfirst with loader := trivial }
      · cases h
        exact { hfirst with loader := hfirst.unsignedZones.insert hhandle }
    · cases h
  | loaderStore =>
    have hzones := hfirst.loader
    simp only [Pipeline.step, loaderStore] at h
    split at h
    next hpc =>
      cases h
      rw [hpc] at hzones
      exact { hfirst with unsignedZones := hzones, loader := trivial }
    · cases h
  | _ => cases ha

-- So does the maintainer.
theorem FirstZones.of_maintainer (hfirst : p.FirstZones) (h : p.step a = some p')
    (ha : a.task = .maintainer) : p'.FirstZones := by
  cases a with
  | promote name =>
    simp only [Pipeline.step, promote] at h
    split at h
    next handle _ hlookup =>
      have hhandle := hfirst.pendingZones name handle hlookup
      split at h
      · cases h
        exact { hfirst with pendingZones := hfirst.pendingZones.erase, maintainer := trivial }
      · cases h
        exact { hfirst with
          pendingZones := hfirst.pendingZones.erase
          maintainer := hfirst.unsignedZones.insert hhandle }
    · cases h
  | promoteStore =>
    have hzones := hfirst.maintainer
    simp only [Pipeline.step, promoteStore] at h
    split at h
    next hpc =>
      cases h
      rw [hpc] at hzones
      exact { hfirst with unsignedZones := hzones, maintainer := trivial }
    · cases h
  | _ => cases ha

theorem FirstZones.step (hfirst : p.FirstZones) (hok : p.settled a = true)
    (h : p.step a = some p') : p'.FirstZones := by
  have hframe := step_frame h
  by_cases hloader : a.task = .loader
  · exact hfirst.of_loader hok h hloader
  · by_cases hmaintainer : a.task = .maintainer
    · exact hfirst.of_maintainer h hmaintainer
    · constructor
      · exact next_of_step hfirst hok h
      · rw [hframe.unsignedZones hloader hmaintainer]
        exact hfirst.unsignedZones
      · rw [hframe.pendingZones hloader hmaintainer]
        exact hfirst.pendingZones
      · rw [hframe.loader hloader]
        exact hfirst.loader
      · rw [hframe.maintainer hmaintainer]
        exact hfirst.maintainer

-- The zone of a job for an approved version is under review until its records are collected.
theorem review_of_reading {job : SignJob} (hjob : p.signer.reading = some job)
    (hserial : job.zoneSerial.isSome) : ∃ s, p.UnsignedReview job.zoneName s := by
  obtain ⟨s, hs⟩ := Option.isSome_iff_exists.mp hserial
  exact ⟨s, Or.inr (Or.inr (Or.inr ⟨job, hjob, rfl, hs⟩))⟩

theorem job_of_step (hinv : p.Settled) (h : p.step a = some p') {job : SignJob}
    (hjob : p'.signer.reading = some job) (hserial : job.zoneSerial.isSome) : job.handle = 0 := by
  rcases reading_of_step h hjob with hjob | ⟨-, -, hlookup⟩
  · exact hinv.job job hjob hserial
  · obtain ⟨s, hs⟩ := Option.isSome_iff_exists.mp hserial
    rw [hs] at hlookup
    exact hinv.unsignedZones job.zoneName job.handle hlookup

-- The SOA record that the signer holds is the one of the zone.
theorem soa_of_step (hinv : p.Settled) (hok : p.settled a = true) (h : p.step a = some p')
    {job : SignJob} {soa : SignRead Soa} (hjob : p'.signer.reading = some job)
    (hsoa : p'.signer.soaRead = some soa) (hserial : job.zoneSerial.isSome) :
    ∃ zone, p'.unsignedHeap.get job.zoneName 0 = some zone ∧
      soa.version = zone.version ∧ zone.content.soa = some soa.value := by
  -- the zone of a job that goes on stays as it is
  have hkeep : p.signer.reading = some job → p.signer.soaRead = some soa →
      ∃ zone, p'.unsignedHeap.get job.zoneName 0 = some zone ∧
        soa.version = zone.version ∧ zone.content.soa = some soa.value := by
    intro hjob hsoa
    obtain ⟨zone, hzone, hread⟩ := hinv.soa job soa hjob hsoa hserial
    obtain ⟨s, hreview⟩ := review_of_reading hjob hserial
    exact ⟨zone, zone_of_step hok h hreview hzone, hread⟩
  by_cases ha : a.task = .signer
  · cases signerTurn_of_step h ha with
    | receive => cases hsoa
    | skip => exact hkeep hjob hsoa
    | read hsigner hread =>
      cases hjob
      cases hsoa
      obtain ⟨s, hs⟩ := Option.isSome_iff_exists.mp hserial
      have hhandle : job.handle = 0 := hinv.job job (by rw [hsigner]; rfl) hserial
      simp only [readZone, hs, hhandle, Option.map_eq_some_iff, Prod.mk.injEq] at hread
      obtain ⟨zone, hzone, hcontent, hversion⟩ := hread
      exact ⟨zone, hzone, hversion.symm, by rw [hcontent]⟩
    | choose hsigner | create hsigner | store hsigner | configure hsigner =>
      simp only [hsigner] at hkeep
      exact hkeep hjob hsoa
    | noSoa | panic | collect | commit | report | fail => cases hjob
  · have hframe := (step_frame h).signer ha
    rw [hframe] at hjob hsoa
    exact hkeep hjob hsoa

-- Collecting an approved version takes the records of the zone that the SOA record is from.
theorem collected_of_step (hinv : p.Settled) (h : p.step a = some p') : p'.OneSnapshot := by
  intro job soa handle policy records s hcollected hserial
  by_cases hold : p.signer = .collected job soa handle policy records
  · obtain ⟨v, content, hcommit, hrest⟩ :=
      hinv.collected job soa handle policy records s hold hserial
    exact ⟨v, content, commits_of_step h hcommit, hrest⟩
  · have ha : a.task = .signer := by
      by_contra ha
      rw [(step_frame h).signer ha] at hcollected
      exact hold hcollected
    cases signerTurn_of_step h ha with
    | collect hsigner hread =>
      cases hcollected
      have hjob : p.signer.reading = some job := by rw [hsigner]; rfl
      have hsoa : p.signer.soaRead = some soa := by rw [hsigner]; rfl
      have hisSome : job.zoneSerial.isSome := by rw [hserial]; rfl
      have hhandle := hinv.job job hjob hisSome
      obtain ⟨zone, hzone, hversion, hsoaValue⟩ := hinv.soa job soa hjob hsoa hisSome
      obtain ⟨zone', v, soa', hzone', hversion', hcommit, hsoa', hs⟩ :=
        hinv.review job.zoneName s (Or.inr (Or.inr (Or.inr ⟨job, hjob, rfl, hserial⟩)))
      rw [hzone] at hzone'
      cases hzone'
      simp only [readZone, hserial, hhandle, hzone, Option.map_some, Option.some.injEq,
        Prod.mk.injEq] at hread
      obtain ⟨rfl, rfl⟩ := hread
      rw [hsoaValue] at hsoa'
      cases hsoa'
      exact ⟨v, zone.content, hcommit, hversion.trans hversion', hversion', hsoaValue, rfl, hs⟩
    | skip => exact absurd hcollected hold
    | receive | read | noSoa | choose | create | store | panic | configure | commit | report
    | fail => cases hcollected

theorem Settled.step (hinv : p.Settled) (hok : p.settled a = true) (h : p.step a = some p') :
    p'.Settled where
  toFirstZones := hinv.toFirstZones.step hok h
  review := by
    intro n s hreview
    rcases unsignedReview_of_step hinv.toFirstZones hok h hreview with hreview | hcurrent
    · exact current_of_step hok h hreview (hinv.review n s hreview)
    · exact hcurrent
  job := fun _ hjob hserial ↦ job_of_step hinv h hjob hserial
  soa := fun _ _ hjob hsoa hserial ↦ soa_of_step hinv hok h hjob hsoa hserial
  collected := collected_of_step hinv h

end

/-- In every run in which no zone changes while a version of it is under review, what is signed for
an approved version is that version. -/
theorem signed_content_one_snapshot {p : Pipeline}
    (h : Reach Pipeline.step (fun p a ↦ p.settled a = true) Started p) : p.OneSnapshot :=
  (h.invariant (fun _ ↦ settled_started)
    (fun _ _ _ hinv hok hstep ↦ hinv.step hok hstep) : p.Settled).collected

namespace OneZone

/-- The signer collects the first version. -/
def collectFirst : List Action :=
  registration ++ firstTransfer ++ reviewUnsigned ++ [.signerReceive] ++
    List.replicate 5 (.signerNext [])

/-- A second version is committed after the signer has read the SOA record of the first one. -/
def commitBetween : List Action :=
  registration ++ firstTransfer ++ reviewUnsigned ++ [.signerReceive, .signerNext [],
    .transferCommit zone 0 (content 2)] ++ List.replicate 4 (.signerNext [])

/-- The serial that the signer works for, and the versions that it has read. -/
def collectedVersions (p : Pipeline) : Option (Option Serial × Option Nat × Option Nat) :=
  match p.signer with
  | .collected job soa _ _ records => some (job.zoneSerial, soa.version, records.version)
  | _ => none

end OneZone

theorem first_version_one_snapshot :
    ∃ p : Pipeline, p.OneSnapshot ∧
      OneZone.collectedVersions p = some (some ⟨1⟩, some 0, some 0) := by
  have hrun : (exec Pipeline.step OneZone.daemon OneZone.collectFirst).any (fun p ↦
      decide (OneZone.collectedVersions p = some (some ⟨1⟩, some 0, some 0))) = true := by decide
  have hok : execOk Pipeline.step settled OneZone.daemon OneZone.collectFirst = true := by decide
  obtain ⟨p, hreach, hp⟩ := Reach.of_exec OneZone.daemon_started OneZone.collectFirst hok hrun
  exact ⟨p, signed_content_one_snapshot hreach, of_decide_eq_true hp⟩

/-- The records of the second version are collected under the SOA record of the first one. -/
theorem two_versions_collected :
    ∃ p, Reach Pipeline.step anyStep Started p ∧ ¬p.OneSnapshot := by
  have hrun : (exec Pipeline.step OneZone.daemon OneZone.commitBetween).any (fun p ↦
      decide (OneZone.collectedVersions p = some (some ⟨1⟩, some 0, some 1))) = true := by decide
  obtain ⟨p, hreach, hp⟩ := Reach.of_exec_any OneZone.daemon_started OneZone.commitBetween hrun
  refine ⟨p, hreach, ?_⟩
  intro hsnapshot
  have hversions := of_decide_eq_true hp
  unfold OneZone.collectedVersions at hversions
  split at hversions
  next job soa handle policy records hsigner =>
    rw [Option.some.injEq, Prod.mk.injEq, Prod.mk.injEq] at hversions
    obtain ⟨hserial, hsoa, hrecords⟩ := hversions
    obtain ⟨v, content, -, hv, hv', -⟩ :=
      hsnapshot job soa handle policy records ⟨1⟩ hsigner hserial
    rw [hsoa] at hv
    rw [hrecords, ← hv] at hv'
    exact absurd hv' (by decide)
  · cases hversions

end Pipeline

end Cascade

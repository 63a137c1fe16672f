import Mathlib.Data.List.Sort
import Cascade.SignedTree
import Cascade.Lib.Survey

/-!
# Listing the zones

`zones_list` loads the tree of unsigned zones, then that of signed zones and then that of published
ones, and lists every zone with the furthest of the trees that it is in.  The units store new trees
between two of these loads.  A zone is put into the tree of published zones before it is taken out
of that of signed zones, so that the handler, which goes the same way, does not miss it.
-/

namespace Cascade

open Lib

namespace Name

instance : Std.Total canonicalLe :=
  ⟨fun a b ↦ List.le_total a.labels.reverse b.labels.reverse⟩

instance : IsTrans Name canonicalLe := ⟨fun _ _ _ hab hbc ↦ List.le_trans hab hbc⟩

end Name

inductive ZoneStage
  | Unsigned
  | Signed
  | Published
deriving DecidableEq

namespace ZoneStage

/-- How far a zone has come. -/
def rank : ZoneStage → Nat
  | .Unsigned => 0
  | .Signed => 1
  | .Published => 2

end ZoneStage

structure ZonesListEntry where
  name : Name
  stage : ZoneStage
deriving DecidableEq

/-- One loop of `zones_list`. -/
def insertZones (stage : ZoneStage) (zones : ZoneTree) (allZones : HashMap Name ZoneStage) :
    HashMap Name ZoneStage :=
  zones.keys.foldl (fun allZones name ↦ allZones.insert name stage) allZones

/-- The map that the loops fill. -/
def allZones (unsignedZones signedZones publishedZones : ZoneTree) : HashMap Name ZoneStage :=
  insertZones .Published publishedZones
    (insertZones .Signed signedZones (insertZones .Unsigned unsignedZones ∅))

/-- What `zones_list` makes of the trees that it has loaded, sorted by name. -/
def zonesList (unsignedZones signedZones publishedZones : ZoneTree) : List ZonesListEntry :=
  ((allZones unsignedZones signedZones publishedZones).entries.insertionSort
    (fun e f ↦ e.1.canonicalLe f.1)).map (fun e ↦ ⟨e.1, e.2⟩)

section

variable {unsignedZones signedZones publishedZones : ZoneTree} {n : Name}

theorem lookup_insertZones (stage : ZoneStage) (zones : ZoneTree)
    (allZones : HashMap Name ZoneStage) :
    (insertZones stage zones allZones).lookup n =
      if n ∈ zones then some stage else allZones.lookup n := by
  have hkeys : (insertZones stage zones allZones).lookup n =
      if n ∈ zones.keys then some stage else allZones.lookup n := by
    unfold insertZones
    induction zones.keys generalizing allZones with
    | nil => rfl
    | cons m names ih =>
      rw [List.foldl_cons, ih]
      by_cases hn : n = m
      · rw [hn, AList.lookup_insert]
        simp
      · simp [hn, AList.lookup_insert_ne hn]
  by_cases hmem : n ∈ zones
  · rw [hkeys, if_pos hmem, if_pos (AList.mem_keys.mp hmem)]
  · rw [hkeys, if_neg hmem, if_neg (fun h ↦ hmem (AList.mem_keys.mpr h))]

theorem lookup_allZones :
    (allZones unsignedZones signedZones publishedZones).lookup n =
      if n ∈ publishedZones then some .Published
      else if n ∈ signedZones then some .Signed
      else if n ∈ unsignedZones then some .Unsigned
      else none := by
  simp only [allZones, lookup_insertZones, AList.lookup_empty]

theorem mem_zonesList {entry : ZonesListEntry} :
    entry ∈ zonesList unsignedZones signedZones publishedZones ↔
      (allZones unsignedZones signedZones publishedZones).lookup entry.name = some entry.stage := by
  rw [HashMap.lookup_eq_some_iff]
  simp only [zonesList, List.mem_map, List.mem_insertionSort]
  constructor
  · intro h
    obtain ⟨e, hmem, he⟩ := h
    rw [← he]
    exact hmem
  · intro h
    exact ⟨_, h, rfl⟩

-- Every zone is listed once, in the order of the names.
theorem zonesList_sorted :
    (zonesList unsignedZones signedZones publishedZones).Pairwise
      (fun e f ↦ e.name.canonicalLe f.name ∧ e.name ≠ f.name) := by
  have htotal : Std.Total (fun e f : Sigma fun _ : Name ↦ ZoneStage ↦ e.1.canonicalLe f.1) :=
    ⟨fun e f ↦ Std.Total.total e.1 f.1⟩
  have htrans : IsTrans _ (fun e f : Sigma fun _ : Name ↦ ZoneStage ↦ e.1.canonicalLe f.1) :=
    ⟨fun _ _ _ hef hfg ↦ IsTrans.trans _ _ _ hef hfg⟩
  have hperm := List.perm_insertionSort (fun e f ↦ e.1.canonicalLe f.1)
    (allZones unsignedZones signedZones publishedZones).entries
  have hkeys := (List.perm_nodupKeys hperm).mpr
    (allZones unsignedZones signedZones publishedZones).nodupKeys
  have hsorted := List.pairwise_insertionSort (fun e f ↦ e.1.canonicalLe f.1)
    (allZones unsignedZones signedZones publishedZones).entries
  exact List.pairwise_map.mpr (hsorted.and (List.nodupKeys_iff_pairwise.mp hkeys))

end

/-! ## Requests -/

/-- The trees that a handler of `zones_list` has loaded. -/
inductive LoadedTrees
  | none
  | unsigned (unsignedZones : ZoneTree)
  | signed (unsignedZones signedZones : ZoneTree)
  | published (unsignedZones signedZones publishedZones : ZoneTree)

/-- A handler of `zones_list`, and how many requests had been answered before this one was made. -/
structure ListRequest where
  began : Nat
  loaded : LoadedTrees

structure ListAnswer where
  began : Nat
  unsignedZones : ZoneTree
  signedZones : ZoneTree
  publishedZones : ZoneTree

def ListAnswer.zones (answer : ListAnswer) : List ZonesListEntry :=
  zonesList answer.unsignedZones answer.signedZones answer.publishedZones

/-- The daemon with its handlers of `zones_list`, and the answers that they have given. -/
structure Listings where
  pipeline : Pipeline
  requests : List ListRequest
  answers : List ListAnswer

namespace Listings

inductive Action
  | pipeline (a : Pipeline.Action)
  | zonesList
  | zonesListNext (i : Nat)

def load (l : Listings) (i : Nat) (request : ListRequest) (loaded : LoadedTrees) : Listings :=
  { l with requests := l.requests.set i { request with loaded := loaded } }

/-- The next step of the `i`-th handler: a load, or the answer. -/
def zonesListNext (l : Listings) (i : Nat) : Option Listings :=
  match l.requests[i]? with
  | none => none
  | some request =>
    match request.loaded with
    | .none => some (l.load i request (.unsigned l.pipeline.unsignedZones))
    | .unsigned unsignedZones =>
      some (l.load i request (.signed unsignedZones l.pipeline.signedZones))
    | .signed unsignedZones signedZones =>
      some (l.load i request (.published unsignedZones signedZones l.pipeline.publishedZones))
    | .published unsignedZones signedZones publishedZones =>
      some { l with
        requests := l.requests.eraseIdx i
        answers := l.answers ++ [⟨request.began, unsignedZones, signedZones, publishedZones⟩] }

def step (l : Listings) : Action → Option Listings
  | .pipeline a => (l.pipeline.step a).map (fun p ↦ { l with pipeline := p })
  | .zonesList => some { l with requests := l.requests ++ [⟨l.answers.length, .none⟩] }
  | .zonesListNext i => l.zonesListNext i

def Started (l : Listings) : Prop := l.pipeline.Started ∧ l.requests = [] ∧ l.answers = []

end Listings

namespace Pipeline

/-- What the loader, or its maintainer, stores has every zone that is in the tree. -/
def keepsUnsigned (p : Pipeline) (task : LoaderTask) : Bool :=
  match task with
  | .storing newZones => p.unsignedZones.keys.all (fun m ↦ decide (m ∈ newZones))
  | _ => true

/-- No store of a tree drops a zone that was put in after the tree had been loaded. -/
def keepsTrees (p : Pipeline) (a : Action) : Bool :=
  match a with
  | .loaderStore => p.keepsUnsigned p.loader
  | .promoteStore => p.keepsUnsigned p.maintainer
  | _ => p.keepsSigned a

end Pipeline

namespace Listings

def keepsTrees (l : Listings) : Action → Bool
  | .pipeline a => l.pipeline.keepsTrees a
  | _ => true

end Listings

/-! ## The way of a zone through the trees -/

namespace Pipeline

/-- The trees in the order in which they are loaded. -/
def places : List (Pipeline → Set Name) :=
  [fun p ↦ {n | n ∈ p.unsignedZones}, fun p ↦ {n | n ∈ p.signedZones},
    fun p ↦ {n | n ∈ p.publishedZones}]

/-- The invariant: what is to be taken out of the tree of signed zones is in that of published
ones. -/
structure Handing (p : Pipeline) : Prop where
  nested : p.Nested
  removing : ∀ n zones, p.publisher = .removing n zones → n ∈ p.publishedZones

variable {p p' : Pipeline} {a : Action}

theorem handing_started (h : p.Started) : p.Handing := by
  refine ⟨nested_started h, ?_⟩
  obtain ⟨center, rsHooks, rs2Hooks, _, hp⟩ := h
  rw [hp]
  intro n zones hremoving
  cases hremoving

-- A published zone stays published.
theorem mem_publishedZones_of_step (hinv : p.Nested) (h : p.step a = some p') {n : Name}
    (hn : n ∈ p.publishedZones) : n ∈ p'.publishedZones := by
  by_cases ha : a.task = .publisher
  · cases publisherTurn_of_step h ha with
    | @add m handle signedZones publishedZones hadding =>
      have hsame := (hinv.adding m handle signedZones publishedZones hadding).2
      show n ∈ (publishedZones.erase m).insert m handle
      rw [hsame]
      by_cases hnm : n = m
      · exact (AList.mem_insert _).mpr (Or.inl hnm)
      · exact (AList.mem_insert _).mpr (Or.inr (AList.mem_erase.mpr ⟨hnm, hn⟩))
    | take | skip | remove => exact hn
  · rw [(step_frame h).publishedZones ha]
    exact hn

theorem Handing.step (hinv : p.Handing) (h : p.step a = some p') : p'.Handing := by
  refine ⟨hinv.nested.step h, ?_⟩
  intro n zones hremoving
  by_cases ha : a.task = .publisher
  · cases publisherTurn_of_step h ha with
    | add hadding =>
      cases hremoving
      exact (AList.mem_insert _).mpr (Or.inl rfl)
    | take => cases hremoving
    | skip hidle =>
      have hbefore : p.publisher = .removing n zones := hremoving
      rw [hidle] at hbefore
      cases hbefore
    | remove => cases hremoving
  · rw [(step_frame h).publisher ha] at hremoving
    exact mem_publishedZones_of_step hinv.nested h (hinv.removing n zones hremoving)

-- A signed zone stays in its tree until it is published.
theorem mem_signedZones_or_published (hinv : p.Handing) (hok : p.keepsSigned a = true)
    (h : p.step a = some p') {n : Name} (hn : n ∈ p.signedZones) :
    n ∈ p'.signedZones ∨ n ∈ p'.publishedZones := by
  cases signedStep_of_step h with
  | store hsigner hp' =>
    rw [hp']
    exact Or.inl (mem_signedZones_of_store hinv.nested hsigner hn)
  | @remove m zones hremoving hp' =>
    by_cases hnm : n = m
    · rw [hnm]
      exact Or.inr (mem_publishedZones_of_step hinv.nested h (hinv.removing m zones hremoving))
    · rw [hp']
      exact Or.inl (mem_signedZones_of_remove hok hremoving hn hnm)
  | keep hsame _ =>
    rw [hsame]
    exact Or.inl hn

-- The loader and its maintainer store the tree of unsigned zones, and keep what is in it.
theorem mem_unsignedZones_of_step (hok : p.keepsTrees a = true) (h : p.step a = some p')
    {n : Name} (hn : n ∈ p.unsignedZones) : n ∈ p'.unsignedZones := by
  have hstored : ∀ newZones, p.keepsUnsigned (.storing newZones) = true → n ∈ newZones :=
    fun newZones hkeeps ↦ of_decide_eq_true (List.all_eq_true.mp hkeeps n hn)
  cases a with
  | loaderStore =>
    simp only [step, loaderStore] at h
    split at h
    next newZones hloader =>
      have hkeeps : p.keepsUnsigned p.loader = true := hok
      rw [hloader] at hkeeps
      cases h
      exact hstored newZones hkeeps
    · cases h
  | promoteStore =>
    simp only [step, promoteStore] at h
    split at h
    next newZones hmaintainer =>
      have hkeeps : p.keepsUnsigned p.maintainer = true := hok
      rw [hmaintainer] at hkeeps
      cases h
      exact hstored newZones hkeeps
    · cases h
  | loaderReceive _ _ | loaderUpdated | loaderInsert | promote _ =>
    simp only [step, loaderReceive, register, loaderUpdated, loaderInsert, promote] at h
    repeat' split at h
    all_goals cases h
    all_goals exact hn
  | _ =>
    rw [(step_frame h).unsignedZones (by simp [Action.task]) (by simp [Action.task])]
    exact hn

theorem keepsSigned_of_keepsTrees (hok : p.keepsTrees a = true) : p.keepsSigned a = true := by
  cases a with
  | loaderStore | promoteStore => rfl
  | _ => exact hok

-- No zone goes back on its way.
theorem onward_of_step (hinv : p.Handing) (hok : p.keepsTrees a = true)
    (h : p.step a = some p') : Surveyed.Onward places p p' := by
  intro k n hreached
  obtain ⟨j, place, hkj, hplace, hn⟩ := hreached
  match j with
  | 0 =>
    cases hplace
    exact ⟨0, _, hkj, rfl, mem_unsignedZones_of_step hok h hn⟩
  | 1 =>
    cases hplace
    cases mem_signedZones_or_published hinv (keepsSigned_of_keepsTrees hok) h hn with
    | inl hsigned => exact ⟨1, _, hkj, rfl, hsigned⟩
    | inr hpublished => exact ⟨2, _, by omega, rfl, hpublished⟩
  | 2 =>
    cases hplace
    exact ⟨2, _, hkj, rfl, mem_publishedZones_of_step hinv.nested h hn⟩

end Pipeline

/-! ## Requests as surveys -/

def LoadedTrees.trees : LoadedTrees → List ZoneTree
  | .none => []
  | .unsigned unsignedZones => [unsignedZones]
  | .signed unsignedZones signedZones => [unsignedZones, signedZones]
  | .published unsignedZones signedZones publishedZones =>
    [unsignedZones, signedZones, publishedZones]

/-- The zones that are found in the trees. -/
def surveyOf (began : Nat) (trees : List ZoneTree) : Survey Name :=
  ⟨began, trees.map (fun zones ↦ {n | n ∈ zones})⟩

def ListRequest.survey (request : ListRequest) : Survey Name :=
  surveyOf request.began request.loaded.trees

namespace ListAnswer

def survey (answer : ListAnswer) : Survey Name :=
  surveyOf answer.began [answer.unsignedZones, answer.signedZones, answer.publishedZones]

variable {answer : ListAnswer}

-- A listed zone was found in the tree of its stage.
theorem sees_of_mem_zones {entry : ZonesListEntry} (h : entry ∈ answer.zones) :
    answer.survey.Sees entry.stage.rank entry.name := by
  have hlookup := mem_zonesList.mp h
  rw [lookup_allZones] at hlookup
  split at hlookup
  next hpublished =>
    rw [← Option.some.inj hlookup]
    exact ⟨_, rfl, hpublished⟩
  · split at hlookup
    next hsigned =>
      rw [← Option.some.inj hlookup]
      exact ⟨_, rfl, hsigned⟩
    · split at hlookup
      next hunsigned =>
        rw [← Option.some.inj hlookup]
        exact ⟨_, rfl, hunsigned⟩
      · cases hlookup

-- A zone is listed with the last tree that it was found in.
theorem mem_zones_of_sees {k : Nat} {n : Name} (h : answer.survey.Sees k n) :
    ∃ entry ∈ answer.zones, entry.name = n ∧ k ≤ entry.stage.rank := by
  obtain ⟨items, hitems, hn⟩ := h
  by_cases hpublished : n ∈ answer.publishedZones
  · refine ⟨⟨n, .Published⟩, ?_, rfl, ?_⟩
    · exact mem_zonesList.mpr (by rw [lookup_allZones, if_pos hpublished])
    · have hlt := (List.getElem?_eq_some_iff.mp hitems).1
      show k ≤ 2
      exact Nat.le_of_lt_succ hlt
  · by_cases hsigned : n ∈ answer.signedZones
    · refine ⟨⟨n, .Signed⟩, ?_, rfl, ?_⟩
      · exact mem_zonesList.mpr (by rw [lookup_allZones, if_neg hpublished, if_pos hsigned])
      · match k with
        | 0 | 1 => simp [ZoneStage.rank]
        | 2 =>
          cases hitems
          exact absurd hn hpublished
    · match k with
      | 0 =>
        cases hitems
        refine ⟨⟨n, .Unsigned⟩, mem_zonesList.mpr ?_, rfl, Nat.zero_le _⟩
        rw [lookup_allZones, if_neg hpublished, if_neg hsigned]
        exact if_pos hn
      | 1 =>
        cases hitems
        exact absurd hn hsigned
      | 2 =>
        cases hitems
        exact absurd hn hpublished

end ListAnswer

namespace Listings

/-- The daemon as a system that is surveyed. -/
def surveyed (l : Listings) : Surveyed Pipeline Name where
  state := l.pipeline
  underway := l.requests.map ListRequest.survey
  ended := l.answers.map ListAnswer.survey

variable {l l' : Listings} {a : Action}

theorem survey_next {i : Nat} {request : ListRequest} (h : l.requests[i]? = some request) :
    l.surveyed.underway[i]? = some request.survey := by
  show (l.requests.map ListRequest.survey)[i]? = some request.survey
  rw [List.getElem?_map, h]
  rfl

-- A load is a look at the next place.
theorem look_of_load {i : Nat} {request : ListRequest} (h : l.requests[i]? = some request)
    {loaded : LoadedTrees} {zones : ZoneTree} {place : Pipeline → Set Name}
    (htrees : loaded.trees = request.loaded.trees ++ [zones])
    (hplace : Pipeline.places[request.loaded.trees.length]? = some place)
    (hzones : place l.pipeline = {n | n ∈ zones}) :
    l.surveyed.look Pipeline.places i = some (l.load i request loaded).surveyed := by
  have hlength : request.survey.found.length = request.loaded.trees.length := by
    simp [ListRequest.survey, surveyOf]
  have hadd : ListRequest.survey { request with loaded := loaded } =
      request.survey.add (place l.pipeline) := by
    simp [ListRequest.survey, surveyOf, Survey.add, htrees, hzones]
  simp only [Surveyed.look, survey_next h, hlength, hplace, Option.map_some]
  simp [load, surveyed, List.map_set, hadd]

theorem finish_of_answer {i : Nat} {request : ListRequest} (h : l.requests[i]? = some request)
    {unsignedZones signedZones publishedZones : ZoneTree}
    (hloaded : request.loaded = .published unsignedZones signedZones publishedZones) :
    l.surveyed.finish Pipeline.places i = some (Listings.surveyed { l with
      requests := l.requests.eraseIdx i
      answers := l.answers ++ [⟨request.began, unsignedZones, signedZones, publishedZones⟩] }) := by
  have hsurvey : request.survey = ListAnswer.survey
      ⟨request.began, unsignedZones, signedZones, publishedZones⟩ := by
    rw [ListRequest.survey, hloaded]
    rfl
  have hall : request.survey.found.length = Pipeline.places.length := by
    rw [hsurvey]
    rfl
  simp only [Surveyed.finish, survey_next h, if_pos hall]
  simp [surveyed, List.eraseIdx_map, hsurvey]

theorem surveyed_step (h : l.step a = some l') (hok : l.keepsTrees a = true) :
    ∃ b, Surveyed.allows (fun p a ↦ p.keepsTrees a = true) l.surveyed b ∧
      l.surveyed.step Pipeline.step Pipeline.places b = some l'.surveyed := by
  cases a with
  | pipeline a =>
    obtain ⟨p', hp', hl'⟩ := Option.map_eq_some_iff.mp h
    refine ⟨.move a, hok, ?_⟩
    show (l.pipeline.step a).map _ = _
    rw [hp', ← hl']
    rfl
  | zonesList =>
    refine ⟨.begin, trivial, ?_⟩
    rw [← Option.some.inj h]
    simp [Surveyed.step, surveyed, ListRequest.survey, surveyOf, LoadedTrees.trees]
  | zonesListNext i =>
    simp only [step, zonesListNext] at h
    split at h
    · cases h
    next request hi =>
      split at h
      next hloaded =>
        rw [← Option.some.inj h]
        exact ⟨.look i, trivial, look_of_load hi (by rw [hloaded]; rfl) (by rw [hloaded]; rfl) rfl⟩
      next hloaded =>
        rw [← Option.some.inj h]
        exact ⟨.look i, trivial, look_of_load hi (by rw [hloaded]; rfl) (by rw [hloaded]; rfl) rfl⟩
      next hloaded =>
        rw [← Option.some.inj h]
        exact ⟨.look i, trivial, look_of_load hi (by rw [hloaded]; rfl) (by rw [hloaded]; rfl) rfl⟩
      next hloaded =>
        rw [← Option.some.inj h]
        exact ⟨.finish i, trivial, finish_of_answer hi hloaded⟩

theorem surveyed_of_reach (h : Reach step (fun l a ↦ l.keepsTrees a = true) Started l) :
    Reach (Surveyed.step Pipeline.step Pipeline.places)
      (Surveyed.allows (fun p a ↦ p.keepsTrees a = true)) (Surveyed.Started Pipeline.Started)
      l.surveyed := by
  have hstart : ∀ l : Listings, l.Started →
      True ∧ Surveyed.Started Pipeline.Started l.surveyed := by
    intro l hl
    refine ⟨trivial, hl.1, ?_, ?_⟩
    · simp [surveyed, hl.2.1]
    · simp [surveyed, hl.2.2]
  exact (h.simulates surveyed hstart
    (fun _ _ _ _ hok hl' ↦ ⟨trivial, Or.inr (surveyed_step hl' hok)⟩)).2

/-- Whatever the units do while the trees are loaded, as long as no store drops a zone: every
listing has each of its zones once, sorted by name, and every zone that a listing has whose answer
was given before the request was made, at the same stage or a later one. -/
theorem listings_move_forward (h : Reach step (fun l a ↦ l.keepsTrees a = true) Started l)
    {answer : ListAnswer} (hanswer : answer ∈ l.answers) :
    answer.zones.Pairwise (fun e f ↦ e.name.canonicalLe f.name ∧ e.name ≠ f.name) ∧
      ∀ earlier ∈ l.answers.take answer.began, ∀ entry ∈ earlier.zones,
        ∃ entry' ∈ answer.zones, entry'.name = entry.name ∧
          entry.stage.rank ≤ entry'.stage.rank := by
  refine ⟨zonesList_sorted, ?_⟩
  intro earlier hearlier entry hentry
  have hupTo : earlier.survey.UpTo answer.survey := by
    apply Surveyed.ended_upTo (fun _ ↦ Pipeline.handing_started)
      (fun _ _ _ hinv hok hp' ↦ ⟨Pipeline.Handing.step hinv hp',
        Pipeline.onward_of_step hinv hok hp'⟩) (surveyed_of_reach h)
    · exact List.mem_map_of_mem hanswer
    · show _ ∈ (l.answers.map ListAnswer.survey).take answer.began
      rw [← List.map_take]
      exact List.mem_map_of_mem hearlier
  obtain ⟨j, hj, hsees⟩ := hupTo _ _ (ListAnswer.sees_of_mem_zones hentry)
  obtain ⟨entry', hentry', hname, hrank⟩ := ListAnswer.mem_zones_of_sees hsees
  exact ⟨entry', hentry', hname, by omega⟩

/-! ## A listing during a publication -/

namespace DuringPublication

/-- The zone is listed once it is signed. -/
def signedListed : List Action :=
  Pipeline.TwoZones.firstSigned.map .pipeline ++
    [.zonesList, .zonesListNext 0, .zonesListNext 0, .zonesListNext 0, .zonesListNext 0]

/-- It is moved to the tree of published zones after another request has loaded the tree of unsigned
ones, and before this request loads that of signed ones. -/
def publishedMeanwhile : List Action :=
  signedListed ++
    [.zonesList, .zonesListNext 0, .pipeline .publisherReceive, .pipeline .publisherNext,
      .pipeline .publisherNext, .zonesListNext 0, .zonesListNext 0, .zonesListNext 0]

def daemon : Listings := ⟨Pipeline.TwoZones.daemon, [], []⟩

theorem daemon_started : daemon.Started := ⟨Pipeline.TwoZones.daemon_started, rfl, rfl⟩

/-- The zone was listed as signed, and then the tree of signed zones was loaded without it. -/
def movedOn (l : Listings) : Bool :=
  match l.answers with
  | [earlier, answer] =>
    decide (⟨Pipeline.TwoZones.first, .Signed⟩ ∈ earlier.zones ∧ answer.began = 1 ∧
      answer.signedZones.keys = [])
  | _ => false

end DuringPublication

open DuringPublication in
/-- The zone is not in the second tree that the second request loads, but in the third one. -/
theorem zone_listed_during_publication :
    ∃ answer : ListAnswer, answer.signedZones.keys = [] ∧
      ∃ entry' ∈ answer.zones, entry'.name = Pipeline.TwoZones.first ∧ 1 ≤ entry'.stage.rank := by
  have hok : execOk step (fun l a ↦ l.keepsTrees a) daemon publishedMeanwhile = true := by
    decide +kernel
  have hended : (exec step daemon publishedMeanwhile).any movedOn = true := by decide +kernel
  obtain ⟨l, hreach, hl⟩ := Reach.of_exec daemon_started publishedMeanwhile hok hended
  unfold movedOn at hl
  split at hl
  next earlier answer hanswers =>
    obtain ⟨hentry, hbegan, hkeys⟩ := of_decide_eq_true hl
    have hanswer : answer ∈ l.answers := by simp [hanswers]
    have hearlier : earlier ∈ l.answers.take answer.began := by simp [hanswers, hbegan]
    exact ⟨answer, hkeys, (listings_move_forward hreach hanswer).2 earlier hearlier _ hentry⟩
  · cases hl

end Listings

end Cascade

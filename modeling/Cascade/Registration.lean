import Cascade.Steps

/-!
# The registry and the zone trees

A zone is added to the registry and given to the loader by different messages, the errors of
`add_zone` and `change_policy` are dropped, and removing a zone changes the registry only.  The
signer looks a zone up in the trees first and in the registry afterwards, and does not expect it to
be missing there, or to be without a policy.
-/

namespace Cascade

open Lib

/-- The names that a task holds on to. -/
def LoaderTask.names : LoaderTask → List Name
  | .inserting name _ _ => [name]
  | .storing newZones => newZones.keys
  | .idle | .panicked => []

def ZoneSigner.names : ZoneSigner → List Name
  | .found job | .started job _ | .targeted job _ _ | .configured job _ _ _ => [job.zoneName]
  | .creating job _ loaded _ => job.zoneName :: loaded.keys
  | .idle | .collected _ _ _ _ _ | .committed _ _ | .panicked => []

def Publisher.names : Publisher → List Name
  | .adding name _ signedZones publishedZones => name :: (signedZones.keys ++ publishedZones.keys)
  | .removing _ signedZones => signedZones.keys
  | .idle => []

namespace Pipeline

/-- The signer has never failed in the registry, and would not fail there now. -/
def SigningSafe (p : Pipeline) : Prop :=
  p.signer ≠ .panicked ∧ p.poisoned = false ∧
    ∀ job, p.signer.reading = some job → ∃ zone policy,
      p.center.state.zones.lookup job.zoneName = some zone ∧ zone.policy = some policy

/-- The zones in the trees and in the hands of a task. -/
def names (p : Pipeline) : List Name :=
  p.unsignedZones.keys ++ p.pendingZones.keys ++ p.signedZones.keys ++ p.publishedZones.keys ++
    p.loader.names ++ p.maintainer.names ++ p.signer.names ++ p.publisher.names

/-- The zones on their way to the loader. -/
def Registering (p : Pipeline) (n : Name) : Prop :=
  ∃ zone : ZoneAdd, zone.name = n ∧
    (⟨zone, true⟩ ∈ p.requests ∨ .RegisterZone zone ∈ p.inFlight .ZL)

def Known (p : Pipeline) (n : Name) : Prop := n ∈ p.names ∨ p.Registering n

def registersName (n : Name) : ApplicationCommand → Bool
  | .RegisterZone zone => decide (zone.name = n)
  | _ => false

/-- The zone is known to some unit, or is just being added. -/
def inUse (p : Pipeline) (n : Name) : Bool :=
  decide (n ∈ p.names) || p.requests.any (fun r ↦ decide (r.register.name = n)) ||
    (p.inFlight .ZL).any (registersName n)

/-- A zone that is added gets a policy, or keeps one, and a zone that is in use is not removed. -/
def registryRespected (p : Pipeline) : Action → Bool
  | .zoneAddNext i =>
    match p.requests[i]? with
    | some ⟨zone, false⟩ =>
      (p.center.state.policies.lookup zone.policy).any (fun policy ↦ !policy.midDeletion) ||
        (p.center.state.policyName zone.name).isSome
    | _ => true
  | .zoneRemove name => !p.inUse name
  | _ => true

theorem inUse_of_known {p : Pipeline} {n : Name} (h : p.Known n) : p.inUse n = true := by
  unfold inUse
  rcases h with h | ⟨zone, rfl, h | h⟩
  · simp [h]
  · have hany : p.requests.any (fun r ↦ decide (r.register.name = zone.name)) = true :=
      List.any_eq_true.mpr ⟨_, h, by simp⟩
    simp [hany]
  · have hany : (p.inFlight .ZL).any (registersName zone.name) = true :=
      List.any_eq_true.mpr ⟨_, h, by simp [registersName]⟩
    simp [hany]

/-- The start of the daemon with a registry whose two sides agree. -/
def StartedLinked (p : Pipeline) : Prop :=
  p.Started ∧ p.center.state.Linked ∧ p.center.state.Keyed

structure Registered (p : Pipeline) : Prop where
  linked : p.center.state.Linked
  keyed : p.center.state.Keyed
  adding : ∀ zone, ⟨zone, false⟩ ∈ p.requests → zone.name ∈ p.center.state.zones
  known : ∀ n, p.Known n → p.center.state.policyName n ≠ none
  poisoned : p.poisoned = false
  signer : p.signer ≠ .panicked

/-! ## Where the names come from -/

section

variable {p p' : Pipeline} {a : Action} {n m : Name} {handle : Handle} {t : ZoneTree}

@[simp] theorem mem_names_inserting {b : Bool} :
    n ∈ (LoaderTask.inserting m handle b).names ↔ n = m := List.mem_singleton

@[simp] theorem mem_names_storing : n ∈ (LoaderTask.storing t).names ↔ n ∈ t := Iff.rfl

@[simp] theorem names_loader_idle : LoaderTask.idle.names = [] := rfl

@[simp] theorem mem_names_adding {t' : ZoneTree} :
    n ∈ (Publisher.adding m handle t t').names ↔ n = m ∨ n ∈ t ∨ n ∈ t' := by
  simp only [Publisher.names, List.mem_cons, List.mem_append]
  rfl

@[simp] theorem mem_names_removing : n ∈ (Publisher.removing m t).names ↔ n ∈ t := Iff.rfl

theorem mem_names : n ∈ p.names ↔
    n ∈ p.unsignedZones ∨ n ∈ p.pendingZones ∨ n ∈ p.signedZones ∨ n ∈ p.publishedZones ∨
      n ∈ p.loader.names ∨ n ∈ p.maintainer.names ∨ n ∈ p.signer.names ∨ n ∈ p.publisher.names := by
  simp only [names, List.mem_append, or_assoc]
  rfl

theorem known_of_mem (h : n ∈ p.unsignedZones ∨ n ∈ p.pendingZones ∨ n ∈ p.signedZones ∨
    n ∈ p.publishedZones ∨ n ∈ p.loader.names ∨ n ∈ p.maintainer.names ∨ n ∈ p.signer.names ∨
      n ∈ p.publisher.names) : p.Known n := Or.inl (mem_names.mpr h)

theorem known_of_signer_names (h : n ∈ p.signer.names) : p.Known n := known_of_mem (by tauto)

-- A name that is new after a step is in a part that the task of the step changes.
theorem names_of_frame {t : Task} (hframe : Frame p t p') (hn : n ∈ p'.names) :
    n ∈ p.names ∨
      t = .loader ∧ (n ∈ p'.unsignedZones ∨ n ∈ p'.pendingZones ∨ n ∈ p'.loader.names) ∨
      t = .maintainer ∧ (n ∈ p'.unsignedZones ∨ n ∈ p'.pendingZones ∨ n ∈ p'.maintainer.names) ∨
      t = .signer ∧ (n ∈ p'.signedZones ∨ n ∈ p'.signer.names) ∨
      t = .publisher ∧
        (n ∈ p'.signedZones ∨ n ∈ p'.publishedZones ∨ n ∈ p'.publisher.names) := by
  rw [mem_names] at hn ⊢
  cases t <;> grind [Frame]

-- The loader takes its names from the command it handles and from the trees.
theorem known_of_loader (h : p.step a = some p') (ha : a.task = .loader)
    (hn : n ∈ p'.unsignedZones ∨ n ∈ p'.pendingZones ∨ n ∈ p'.loader.names) : p.Known n := by
  have hnames : n ∈ p.unsignedZones ∨ n ∈ p.pendingZones ∨ n ∈ p.loader.names → p.Known n :=
    fun hold ↦ known_of_mem (by tauto)
  cases a with
  | loaderReceive loaded isSecondary =>
    obtain ⟨cmd, net, hidle, hreceive, rfl | ⟨zone, rfl, hregisters, rfl⟩⟩ := loaderReceive_spec h
    · exact hnames hn
    · have hnew : p.Known zone.name :=
        Or.inr ⟨zone, rfl, Or.inr (inFlight_receive hreceive).1⟩
      rcases register_of_registers (p.withNet net) hregisters with hp | ⟨soa, records, hp⟩
      · rw [hp, mem_names_inserting] at hn
        rcases hn with hn | hn | hn
        · exact hnames (Or.inl hn)
        · exact hnames (Or.inr (Or.inl hn))
        · exact hn ▸ hnew
      · rw [hp, mem_names_inserting] at hn
        rcases hn with hn | hn | hn
        · exact hnames (Or.inl hn)
        · exact hnames (Or.inr (Or.inl hn))
        · exact hn ▸ hnew
  | loaderUpdated =>
    simp only [step, loaderUpdated] at h
    split at h
    · cases h
      exact hnames hn
    · cases h
  | loaderInsert =>
    simp only [step, loaderInsert] at h
    split at h
    next hloader =>
      cases h
      rw [hloader] at hnames
      simp only [AList.mem_insert, mem_names_storing, mem_names_inserting] at hn hnames
      exact hnames (by tauto)
    next hloader =>
      rw [hloader] at hnames
      split at h
      · cases h
        simp only [names_loader_idle, List.not_mem_nil, or_false] at hn
        exact hnames (hn.imp_right Or.inl)
      · cases h
        simp only [AList.mem_insert, mem_names_storing, mem_names_inserting] at hn hnames
        exact hnames (by tauto)
    · cases h
  | loaderStore =>
    simp only [step, loaderStore] at h
    split at h
    next hloader =>
      cases h
      rw [hloader] at hnames
      simp only [names_loader_idle, List.not_mem_nil, or_false, mem_names_storing] at hn hnames
      exact hnames (by tauto)
    · cases h
  | _ => cases ha

-- The maintainer takes its names from the trees.
theorem known_of_maintainer (h : p.step a = some p') (ha : a.task = .maintainer)
    (hn : n ∈ p'.unsignedZones ∨ n ∈ p'.pendingZones ∨ n ∈ p'.maintainer.names) : p.Known n := by
  have hnames : n ∈ p.unsignedZones ∨ n ∈ p.pendingZones ∨ n ∈ p.maintainer.names →
      p.Known n := fun hold ↦ known_of_mem (by tauto)
  cases a with
  | promote name =>
    simp only [step, promote] at h
    split at h
    next hidle hlookup =>
      have hname : name ∈ p.pendingZones := HashMap.mem_iff_lookup.mpr ⟨_, hlookup⟩
      rw [hidle] at hnames
      split at h
      · cases h
        simp only [AList.mem_erase, LoaderTask.names, List.not_mem_nil, or_false] at hn
        exact hnames (hn.imp_right (fun hn ↦ Or.inl hn.2))
      · cases h
        simp only [AList.mem_insert, AList.mem_erase, mem_names_storing] at hn
        rcases hn with hn | hn | rfl | hn
        · exact hnames (Or.inl hn)
        · exact hnames (Or.inr (Or.inl hn.2))
        · exact hnames (Or.inr (Or.inl hname))
        · exact hnames (Or.inl hn)
    · cases h
  | promoteStore =>
    simp only [step, promoteStore] at h
    split at h
    next hmaintainer =>
      cases h
      rw [hmaintainer] at hnames
      simp only [names_loader_idle, List.not_mem_nil, or_false, mem_names_storing] at hn hnames
      exact hnames (by tauto)
    · cases h
  | _ => cases ha

-- The signer takes its names from the trees.
theorem known_of_signer (h : p.step a = some p') (ha : a.task = .signer)
    (hn : n ∈ p'.signedZones ∨ n ∈ p'.signer.names) : p.Known n := by
  have hnames : n ∈ p.unsignedZones ∨ n ∈ p.publishedZones ∨ n ∈ p.signedZones ∨
      n ∈ p.signer.names → p.Known n :=
    fun hold ↦ known_of_mem (by tauto)
  cases signerTurn_of_step h ha with
  | @receive job _ _ _ hlookup =>
    rcases hn with hn | hn
    · exact hnames (Or.inr (Or.inr (Or.inl hn)))
    · have hname := HashMap.mem_iff_lookup.mpr ⟨job.handle, hlookup⟩
      have heq : n = job.zoneName := List.mem_singleton.mp hn
      rw [← heq] at hname
      cases hserial : job.zoneSerial with
      | some _ =>
        rw [hserial] at hname
        exact hnames (Or.inl hname)
      | none =>
        rw [hserial] at hname
        exact hnames (Or.inr (Or.inl hname))
  | skip => exact hnames (Or.inr (Or.inr hn))
  | read hsigner | noSoa hsigner | choose hsigner | create hsigner | store hsigner | panic hsigner
  | configure hsigner | collect hsigner | commit hsigner | report hsigner | fail hsigner =>
    rw [hsigner] at hnames
    simp only [Pipeline.send, withNet, AList.mem_insert, ZoneSigner.names, List.mem_cons,
      ← AList.mem_keys, List.not_mem_nil, or_false] at hn hnames
    exact hnames (by tauto)

-- The publication server takes its names from the trees.
theorem known_of_publisher (h : p.step a = some p') (ha : a.task = .publisher)
    (hn : n ∈ p'.signedZones ∨ n ∈ p'.publishedZones ∨ n ∈ p'.publisher.names) : p.Known n := by
  have hnames : n ∈ p.signedZones ∨ n ∈ p.publishedZones ∨ n ∈ p.publisher.names →
      p.Known n := fun hold ↦ known_of_mem (by tauto)
  cases publisherTurn_of_step h ha with
  | take _ _ hlookup =>
    have hname := HashMap.mem_iff_lookup.mpr ⟨_, hlookup⟩
    simp only [mem_names_adding] at hn
    rcases hn with hn | hn | rfl | hn | hn
    · exact hnames (Or.inl hn)
    · exact hnames (Or.inr (Or.inl hn))
    · exact hnames (Or.inl hname)
    · exact hnames (Or.inl hn)
    · exact hnames (Or.inr (Or.inl hn))
  | skip => exact hnames hn
  | add hpublisher =>
    rw [hpublisher] at hnames
    simp only [AList.mem_insert, AList.mem_erase, mem_names_removing, mem_names_adding] at hn hnames
    exact hnames (by tauto)
  | remove hpublisher =>
    rw [hpublisher] at hnames
    simp only [AList.mem_erase, Publisher.names, List.not_mem_nil, or_false] at hn hnames
    exact hnames (by tauto)

-- A handler that has just been started, or has just changed the policy of its zone.
theorem requests_of_step {r : AddRequest} (h : p.step a = some p') (hr : r ∈ p'.requests) :
    r ∈ p.requests ∨ a = .zoneAdd r.register ∧ r.policyChanged = false ∨
      ∃ i, a = .zoneAddNext i ∧ p.requests[i]? = some ⟨r.register, false⟩ ∧
        r.policyChanged = true := by
  by_cases ha : a.task = .http
  · cases a with
    | zoneAdd zone =>
      simp only [step, zoneAdd] at h
      split at h
      · cases h
      · cases h
        rcases List.mem_append.mp hr with hr | hr
        · exact Or.inl hr
        · rw [List.mem_singleton.mp hr]
          exact Or.inr (Or.inl ⟨rfl, rfl⟩)
    | zoneAddNext i =>
      simp only [step, zoneAddNext] at h
      split at h
      · cases h
      next zone hi =>
        split at h
        · cases h
          exact Or.inl (List.mem_of_mem_eraseIdx hr)
        · split at h
          · cases h
            rcases List.mem_or_eq_of_mem_set hr with hr | rfl
            · exact Or.inl hr
            · exact Or.inr (Or.inr ⟨i, rfl, hi, rfl⟩)
          · cases h
            exact Or.inl (List.mem_of_mem_eraseIdx hr)
      · cases h
        exact Or.inl (List.mem_of_mem_eraseIdx hr)
    | zoneRemove name =>
      simp only [step, zoneRemove] at h
      repeat' split at h
      all_goals cases h
      all_goals exact Or.inl hr
    | _ => cases ha
  · rw [(step_frame h).requests ha] at hr
    exact Or.inl hr

-- A zone that becomes known is one whose handler has just changed its policy.
theorem known_of_step (h : p.step a = some p') (hn : p'.Known n) :
    p.Known n ∨
      ∃ i zone, a = .zoneAddNext i ∧ p.requests[i]? = some ⟨zone, false⟩ ∧ zone.name = n := by
  rcases hn with hn | ⟨zone, rfl, hn | hn⟩
  · rcases names_of_frame (step_frame h) hn with hn | ⟨ha, hn⟩ | ⟨ha, hn⟩ | ⟨ha, hn⟩ | ⟨ha, hn⟩
    · exact Or.inl (Or.inl hn)
    · exact Or.inl (known_of_loader h ha hn)
    · exact Or.inl (known_of_maintainer h ha hn)
    · exact Or.inl (known_of_signer h ha hn)
    · exact Or.inl (known_of_publisher h ha hn)
  · rcases requests_of_step h hn with hn | ⟨-, hn⟩ | ⟨i, rfl, hi, -⟩
    · exact Or.inl (Or.inr ⟨zone, rfl, Or.inl hn⟩)
    · cases hn
    · exact Or.inr ⟨i, zone, rfl, hi, rfl⟩
  · rcases step_inFlight h (by simp) hn with hn | hemits
    · exact Or.inl (Or.inr ⟨zone, rfl, Or.inr hn⟩)
    · cases hemits with
      | register hi => exact Or.inl (Or.inr ⟨zone, rfl, Or.inl (List.mem_of_getElem? hi)⟩)

end

/-! ## The registry -/

section

variable {p p' : Pipeline} {a : Action} {n : Name}

theorem keyed_of_header {s s' : State} (h : s'.header = s.header) (hs : s.Keyed) :
    s'.Keyed := by
  intro k q hq
  have hheader : s.header k = some (q.latest, q.midDeletion) := by
    rw [← h]
    simp [State.header, hq]
  obtain ⟨q', hq', heq⟩ := Option.map_eq_some_iff.mp hheader
  have hlatest : q'.latest = q.latest := congrArg Prod.fst heq
  rw [← hlatest]
  exact hs k q' hq'

-- What the registry promises to everyone who knows a zone.
theorem Registered.policy (hinv : p.Registered) (hn : p.Known n) : ∃ zone policy,
    p.center.state.zones.lookup n = some zone ∧ zone.policy = some policy := by
  obtain ⟨k, hk⟩ := Option.ne_none_iff_exists'.mp (hinv.known n hn)
  obtain ⟨zone, policy, hzone, hpolicy, -⟩ := State.policyName_eq_some.mp hk
  exact ⟨zone, policy, hzone, hpolicy⟩

theorem registered_of_started (h : p.StartedLinked) : p.Registered := by
  obtain ⟨hstarted, hlinked, hkeyed⟩ := h
  have hflight := hstarted.inFlight .ZL
  obtain ⟨center, rsHooks, rs2Hooks, -, rfl⟩ := hstarted
  refine ⟨hlinked, hkeyed, by simp [Pipeline.new], ?_, rfl, by simp [Pipeline.new]⟩
  intro n hn
  rcases hn with hn | ⟨zone, -, hn | hn⟩
  · rw [mem_names] at hn
    simp [Pipeline.new, Publisher.names, ZoneSigner.names] at hn
  · cases hn
  · rw [hflight] at hn
    cases hn

-- A zone whose handler waits has been added, so `add_zone` for another one leaves it there.
theorem registered_of_zoneAdd {zone : ZoneAdd} (hinv : p.Registered)
    (h : p.step (.zoneAdd zone) = some p') : p'.Registered := by
  have hknown : ∀ n, p'.Known n → p.Known n := by
    intro n hn
    rcases known_of_step h hn with hn | ⟨i, zone', heq, -⟩
    · exact hn
    · cases heq
  simp only [step, zoneAdd] at h
  split at h
  · cases h
  · cases h
    constructor
    · exact addZone_linked zone.name hinv.linked
    · exact keyed_of_header (State.header_congr (addZone_policies _ _)) hinv.keyed
    · intro zone' hmem
      show zone'.name ∈ (addZone p.center zone.name).2.state.zones
      rw [mem_zones_addZone]
      rcases List.mem_append.mp hmem with hmem | hmem
      · exact Or.inr (hinv.adding zone' hmem)
      · cases List.mem_singleton.mp hmem
        exact Or.inl rfl
    · intro n hn
      show (addZone p.center zone.name).2.state.policyName n ≠ none
      rw [policyName_addZone]
      exact hinv.known n (hknown n hn)
    · exact hinv.poisoned
    · exact hinv.signer

-- `remove_zone` takes the policy from a zone that nobody knows.
theorem registered_of_zoneRemove {name : Name} (hinv : p.Registered)
    (hok : p.registryRespected (.zoneRemove name) = true)
    (h : p.step (.zoneRemove name) = some p') : p'.Registered := by
  have hfree : p.inUse name = false := by simpa [registryRespected] using hok
  have hrequests : ∀ r ∈ p.requests, r.register.name ≠ name := by
    intro r hr heq
    have hany : p.requests.any (fun r ↦ decide (r.register.name = name)) = true :=
      List.any_eq_true.mpr ⟨r, hr, decide_eq_true heq⟩
    simp [inUse, hany] at hfree
  have hknown : ∀ n, p'.Known n → p.Known n := by
    intro n hn
    rcases known_of_step h hn with hn | ⟨i, zone', heq, -⟩
    · exact hn
    · cases heq
  have hne : ∀ n, p.Known n → n ≠ name := by
    intro n hn heq
    rw [heq] at hn
    rw [inUse_of_known hn] at hfree
    cases hfree
  obtain ⟨r, c', hremove, hzones, hheader, -⟩ := removeZone_spec p.center name hinv.linked
  simp only [step, zoneRemove, hremove, hinv.poisoned, Bool.false_eq_true, if_false] at h
  cases h
  constructor
  · exact removeZone_linked hinv.linked hremove
  · exact keyed_of_header hheader hinv.keyed
  · intro zone hmem
    obtain ⟨z, hz⟩ := HashMap.mem_iff_lookup.mp (hinv.adding zone hmem)
    have hlookup : c'.state.zones.lookup zone.name = some z := by
      rw [hzones, if_neg (hrequests _ hmem)]
      exact hz
    exact HashMap.mem_iff_lookup.mpr ⟨z, hlookup⟩
  · intro n hn
    show c'.state.policyName n ≠ none
    rw [removeZone_policyName hzones, if_neg (hne n (hknown n hn))]
    exact hinv.known n (hknown n hn)
  · rfl
  · exact hinv.signer

-- `change_policy` gives the zone of a handler a policy, or leaves it the one it has, and takes no
-- policy from another zone.
theorem changePolicy_registered {i : Nat} {zone : ZoneAdd} (hinv : p.Registered)
    (hi : p.requests[i]? = some ⟨zone, false⟩)
    (hok : p.registryRespected (.zoneAddNext i) = true) :
    ∃ r c', changePolicy p.center zone.name zone.policy = .ok (r, c') ∧ c'.state.Linked ∧
      c'.state.Keyed ∧ (∀ n, n ∈ p.center.state.zones → n ∈ c'.state.zones) ∧
      c'.state.policyName zone.name ≠ none ∧
      ∀ n, p.center.state.policyName n ≠ none → c'.state.policyName n ≠ none := by
  have hmem : zone.name ∈ p.center.state.zones := hinv.adding zone (List.mem_of_getElem? hi)
  obtain ⟨r, c', hchange, hcases⟩ := changePolicy_spec p.center zone.name zone.policy hinv.linked
  have hlinked : c'.state.Linked := changePolicy_linked hinv.linked hinv.keyed hchange
  rcases hcases with ⟨rfl, hfailed⟩ | ⟨rfl, -, q, hq, -, hzones, hname, hheader, -⟩
  · -- nothing has changed, so the zone has a policy already
    have hpolicy : p.center.state.policyName zone.name ≠ none := by
      simp only [registryRespected, hi, Bool.or_eq_true] at hok
      rcases hok with hfound | hfound
      · obtain ⟨q, hq, hmid⟩ := (Option.any_eq_true _ _).mp hfound
        rw [hfailed hmem q hq] at hmid
        cases hmid
      · exact Option.isSome_iff_ne_none.mp hfound
    exact ⟨r, p.center, hchange, hlinked, hinv.keyed, fun _ hn ↦ hn, hpolicy, fun _ hn ↦ hn⟩
  · have hkeep : ∀ n, p.center.state.policyName n ≠ none → c'.state.policyName n ≠ none := by
      intro n hn
      rw [hname]
      by_cases heq : n = zone.name
      · simp [heq]
      · rw [if_neg heq]
        exact hn
    have hnew : c'.state.policyName zone.name ≠ none := by
      rw [hname, if_pos rfl]
      simp
    exact ⟨_, c', hchange, hlinked, keyed_of_header hheader hinv.keyed,
      fun n hn ↦ (hzones n).mpr hn, hnew, hkeep⟩

theorem registered_of_zoneAddNext {i : Nat} (hinv : p.Registered)
    (hok : p.registryRespected (.zoneAddNext i) = true)
    (h : p.step (.zoneAddNext i) = some p') : p'.Registered := by
  have hknown : ∀ n, p'.Known n → p.Known n ∨ ∃ zone, p.requests[i]? = some ⟨zone, false⟩ ∧
      zone.name = n := by
    intro n hn
    rcases known_of_step h hn with hn | ⟨i', zone, heq, hi, hname⟩
    · exact Or.inl hn
    · cases heq
      exact Or.inr ⟨zone, hi, hname⟩
  have hadding : ∀ zone, ⟨zone, false⟩ ∈ p'.requests → zone.name ∈ p.center.state.zones := by
    intro zone hmem
    rcases requests_of_step h hmem with hmem | ⟨heq, -⟩ | ⟨i', -, -, heq⟩
    · exact hinv.adding zone hmem
    · cases heq
    · cases heq
  simp only [step, zoneAddNext, hinv.poisoned, Bool.false_eq_true, if_false] at h
  split at h
  · cases h
  next zone hi =>
    obtain ⟨r, c', hchange, hlinked, hkeyed, hzones, hpolicy, hkeep⟩ :=
      changePolicy_registered hinv hi hok
    rw [hchange] at h
    cases h
    constructor
    · exact hlinked
    · exact hkeyed
    · exact fun zone' hmem ↦ hzones zone'.name (hadding zone' hmem)
    · intro n hn
      rcases hknown n hn with hn | ⟨zone', hi', rfl⟩
      · exact hkeep n (hinv.known n hn)
      · rw [hi] at hi'
        cases hi'
        exact hpolicy
    · rfl
    · exact hinv.signer
  next zone hi =>
    cases h
    constructor
    · exact hinv.linked
    · exact hinv.keyed
    · exact hadding
    · intro n hn
      rcases hknown n hn with hn | ⟨zone', hi', -⟩
      · exact hinv.known n hn
      · rw [hi] at hi'
        cases hi'
    · rfl
    · exact hinv.signer

-- The signer finds the zones and policies that it needs.
theorem signer_safe (hinv : p.Registered) (h : p.step a = some p') (ha : a.task = .signer) :
    p'.poisoned = false ∧ p'.signer ≠ .panicked := by
  cases signerTurn_of_step h ha with
  | @panic _ job _ _ _ hsigner hmissing =>
    have hn : job.zoneName ∈ p.signer.names := by
      rw [hsigner]
      exact List.mem_singleton_self _
    have ⟨zone, policy, hzone, hpolicy⟩ := hinv.policy (known_of_signer_names hn)
    rw [hinv.poisoned, hzone, Option.bind_some, hpolicy] at hmissing
    simp at hmissing
  | skip => exact ⟨hinv.poisoned, hinv.signer⟩
  | receive | read | noSoa | choose | create | store | configure | collect | commit | report
  | fail => exact ⟨hinv.poisoned, by simp [Pipeline.send, withNet]⟩

-- The other tasks read the registry only.
theorem registered_of_task (hinv : p.Registered) (h : p.step a = some p') (ha : a.task ≠ .http) :
    p'.Registered := by
  have hframe := step_frame h
  have hstate := hframe.state ha
  have hrequests := hframe.requests ha
  have hsafe : p'.poisoned = false ∧ p'.signer ≠ .panicked := by
    by_cases hsigner : a.task = .signer
    · exact signer_safe hinv h hsigner
    · rw [hframe.poisoned ha hsigner, hframe.signer hsigner]
      exact ⟨hinv.poisoned, hinv.signer⟩
  constructor
  · exact hstate ▸ hinv.linked
  · exact hstate ▸ hinv.keyed
  · rw [hstate, hrequests]
    exact hinv.adding
  · intro n hn
    rw [hstate]
    rcases known_of_step h hn with hn | ⟨i, zone, rfl, -⟩
    · exact hinv.known n hn
    · exact absurd rfl ha
  · exact hsafe.1
  · exact hsafe.2

theorem registered_of_step (hinv : p.Registered) (hok : p.registryRespected a = true)
    (h : p.step a = some p') : p'.Registered := by
  cases a with
  | zoneAdd zone => exact registered_of_zoneAdd hinv h
  | zoneAddNext i => exact registered_of_zoneAddNext hinv hok h
  | zoneRemove name => exact registered_of_zoneRemove hinv hok h
  | _ => exact registered_of_task hinv h (by simp [Action.task])

-- The signer meets the registry with a zone that it knows.
theorem Registered.signingSafe (hinv : p.Registered) : p.SigningSafe := by
  refine ⟨hinv.signer, hinv.poisoned, ?_⟩
  intro job hjob
  have hn : job.zoneName ∈ p.signer.names := by
    cases hsigner : p.signer with
    | found | started | creating | targeted | configured =>
      rw [hsigner] at hjob
      cases hjob
      exact List.mem_cons_self
    | idle | panicked | collected | committed =>
      rw [hsigner] at hjob
      cases hjob
  exact hinv.policy (known_of_signer_names hn)

end

/-- As long as no zone is left without a policy, and none that is in use is removed, the signer
finds the policy of every zone that it signs. -/
theorem signer_finds_policy {p : Pipeline}
    (h : Reach Pipeline.step (fun p a ↦ p.registryRespected a = true) StartedLinked p) :
    p.SigningSafe :=
  (h.invariant (fun _ ↦ registered_of_started) (fun _ _ _ ↦ registered_of_step)).signingSafe

namespace OneZone

/-- Up to the signer's look into the registry. -/
def signFirst : List Action :=
  registration ++ firstTransfer ++ reviewUnsigned ++ [.signerReceive] ++
    List.replicate 4 (.signerNext [])

/-- The policy that the signer works with, and whether it has panicked. -/
def signerPolicy (p : Pipeline) : Option PolicyVersion :=
  match p.signer with
  | .configured _ _ _ policy => some policy
  | _ => none

def signerPanicked (p : Pipeline) : Bool :=
  match p.signer with
  | .panicked => true
  | _ => false

/-- A daemon that knows no zone and no policy. -/
def emptyDaemon : Pipeline := Pipeline.new ⟨State.new Config.default, [], 0⟩ [] []

theorem lookup_state_zones {n : Name} {z : ZoneState} (h : state.zones.lookup n = some z) :
    n = zone ∧ z = { policy := some version } := by
  by_cases hn : n = zone
  · subst hn
    rw [state, AList.lookup_insert] at h
    exact ⟨rfl, (Option.some.inj h).symm⟩
  · rw [state, AList.lookup_insert_ne hn] at h
    cases h

theorem lookup_state_policies {k : String} {q : Policy} (h : state.policies.lookup k = some q) :
    k = "default" ∧
      q = { latest := version, midDeletion := false, zones := AList.insert zone () ∅ } := by
  by_cases hk : k = "default"
  · subst hk
    rw [state, AList.lookup_insert] at h
    exact ⟨rfl, (Option.some.inj h).symm⟩
  · rw [state, AList.lookup_insert_ne hk] at h
    cases h

theorem daemon_linked : daemon.StartedLinked := by
  refine ⟨daemon_started, ⟨?_, ?_⟩, ?_⟩
  · intro n z p hz hp
    obtain ⟨rfl, rfl⟩ := lookup_state_zones hz
    cases hp
    exact ⟨_, AList.lookup_insert ∅, (AList.mem_insert ∅).mpr (Or.inl rfl)⟩
  · intro k q n hq hn
    obtain ⟨rfl, rfl⟩ := lookup_state_policies hq
    rcases (AList.mem_insert ∅).mp hn with rfl | hn
    · exact ⟨_, version, AList.lookup_insert ∅, rfl, rfl⟩
    · cases hn
  · intro k q hq
    obtain ⟨rfl, rfl⟩ := lookup_state_policies hq
    rfl

theorem emptyDaemon_linked : emptyDaemon.StartedLinked := by
  refine ⟨⟨_, [], [], rfl, rfl⟩, State.linked_new _, ?_⟩
  intro k q hq
  cases hq

end OneZone

theorem first_version_policy_found :
    ∃ p : Pipeline, p.SigningSafe ∧ OneZone.signerPolicy p = some OneZone.version := by
  have hrun : (exec Pipeline.step OneZone.daemon OneZone.signFirst).any (fun p ↦
      decide (OneZone.signerPolicy p = some OneZone.version)) = true := by decide
  have hok : execOk Pipeline.step registryRespected OneZone.daemon OneZone.signFirst = true := by
    decide
  obtain ⟨p, hreach, hp⟩ := Reach.of_exec OneZone.daemon_linked OneZone.signFirst hok hrun
  exact ⟨p, signer_finds_policy hreach, of_decide_eq_true hp⟩

/-- The zone is added with a policy that does not exist: the signer panics. -/
theorem unknown_policy_panics :
    ∃ p, Reach Pipeline.step anyStep StartedLinked p ∧ ¬p.SigningSafe := by
  have hrun : (exec Pipeline.step OneZone.emptyDaemon OneZone.signFirst).any
      OneZone.signerPanicked = true := by decide
  obtain ⟨p, hreach, hp⟩ := Reach.of_exec_any OneZone.emptyDaemon_linked OneZone.signFirst hrun
  refine ⟨p, hreach, ?_⟩
  intro hsafe
  unfold OneZone.signerPanicked at hp
  split at hp
  next hsigner => exact hsafe.1 hsigner
  · cases hp

end Pipeline

end Cascade

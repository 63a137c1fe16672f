import Cascade.Lib.Tasks
import Cascade.Snapshot
import Cascade.ZoneLoader

/-!
# The pipeline comes to rest

HTTP requests, transfers and zones that become active come into the pipeline from outside, and all
that its units do is done for one of these.  A unit that has done its part sends at most one update,
which is for a later unit of the pipeline, so that there is always less left to do.
-/

namespace Cascade

open Lib

/-! ## The work of the units -/

/-- How many steps a command of the unit can lead to, the steps of the later units included. -/
def UnitName.cost : UnitName → Nat
  | .ZL => 25
  | .RS => 19
  | .KM => 0
  | .ZS => 16
  | .RS2 => 6
  | .PS => 3

def units : List UnitName := [.ZL, .RS, .KM, .ZS, .RS2, .PS]

theorem units_nodup : units.Nodup := by decide

theorem mem_units (u : UnitName) : u ∈ units := by
  cases u with
  | _ => decide

namespace Pipeline

def AddRequest.work (request : AddRequest) : Nat := if request.policyChanged then 27 else 104

def LoaderTask.work : LoaderTask → Nat
  | .idle => 0
  | .inserting _ _ _ => 2
  | .storing _ => 1
  | .panicked => 0

def ZoneSigner.work : ZoneSigner → Nat
  | .idle => 0
  | .found _ => 15
  | .started _ _ => 14
  | .creating _ _ _ _ => 13
  | .targeted _ _ _ => 12
  | .configured _ _ _ _ => 11
  | .collected _ _ _ _ _ => 10
  | .committed _ _ => 9
  | .panicked => 0

def Publisher.work : Publisher → Nat
  | .idle => 0
  | .adding _ _ _ _ => 2
  | .removing _ _ => 1

def netWork (net : Net) : Nat := Router.work directUpdate UnitName.cost units net

/-- The steps that are left for what the units hold. -/
def localWork (p : Pipeline) : Nat :=
  (p.requests.map AddRequest.work).sum + 22 * p.zoneUpdated.length + LoaderTask.work p.loader +
    LoaderTask.work p.maintainer + ZoneSigner.work p.signer + Publisher.work p.publisher

/-- The steps that are left. -/
def work (p : Pipeline) : Nat := netWork p.net + p.localWork

/-! ## Announcing versions -/

/-- The version that a zone file brings. -/
def fileVersion (zone : ZoneAdd) (loaded : Option ZoneContent) : Option (Name × Serial) :=
  match zone.source, loaded with
  | .Zonefile _, some ⟨some soa, _⟩ => some (zone.name, soa.serial)
  | _, _ => none

/-- The versions that a step commits to an unsigned zone and announces. -/
def announced (p : Pipeline) : Action → List (Name × Serial)
  | .transferCommit name _ content =>
    (content.soa.map (fun soa ↦ (name, soa.serial))).toList
  | .loaderReceive loaded _ =>
    match p.net.receive .ZL with
    | some (.RegisterZone zone, _) => (fileVersion zone loaded).toList
    | _ => []
  | _ => []

/-- The channel that versions are announced on holds no more than ten, and only the loader empties
it, which waits forever when it finds it full itself. -/
def leavesRoom (p : Pipeline) (a : Action) : Bool :=
  decide (p.zoneUpdated.length + (p.announced a).length ≤ ZoneLoader.capacity)

/-- The steps that the units take without anything from outside. -/
def Action.isOwn : Action → Bool
  | .zoneAdd _ => false
  | .zoneRemove _ => false
  | .review _ _ _ _ _ => false
  | .resign _ => false
  | .promote _ => false
  | .transferWrite _ _ _ => false
  | .transferCommit _ _ _ => false
  | _ => true

def ownStep (p : Pipeline) (a : Action) : Option Pipeline :=
  if a.isOwn && p.leavesRoom a then p.step a else none

/-- Nothing is on its way, and no unit is in the middle of something. -/
structure AtRest (p : Pipeline) : Prop where
  updates : p.center.updateTx = []
  commands : p.appCmds = []
  requests : p.requests = []
  zoneUpdated : p.zoneUpdated = []
  loader : p.loader = .idle ∧ p.inbox .ZL = []
  maintainer : p.maintainer = .idle ∨ p.maintainer = .panicked
  reviews : p.inbox .RS = [] ∧ p.inbox .RS2 = []
  signer : (p.signer = .idle ∧ p.inbox .ZS = []) ∨ p.signer = .panicked
  publisher : p.publisher = .idle ∧ p.inbox .PS = []

variable {p p' : Pipeline}

-- A zone file is announced with the version that it holds.
theorem zoneUpdated_register (zone : ZoneAdd) (loaded : Option ZoneContent) (isSecondary : Bool) :
    (p.register zone loaded isSecondary).net = p.net ∧
      (p.register zone loaded isSecondary).zoneUpdated =
        p.zoneUpdated ++ (fileVersion zone loaded).toList := by
  unfold register fileVersion
  split
  next hsource =>
    rw [hsource]
    exact ⟨rfl, (List.append_nil _).symm⟩
  next hsource =>
    rw [hsource]
    exact ⟨rfl, rfl⟩
  next hserver hfile =>
    refine ⟨rfl, ?_⟩
    split
    next path soa records hsource => exact absurd rfl (hfile path soa records hsource)
    · exact (List.append_nil _).symm

theorem announced_none (isSecondary : Bool) : p.announced (.loaderReceive none isSecondary) = [] := by
  have hnone : ∀ zone, fileVersion zone none = none := by
    intro zone
    unfold fileVersion
    split
    next heq => cases heq
    · rfl
  unfold announced
  dsimp only
  split
  · rw [hnone]
    rfl
  · rfl

-- What a step announces is added to the channel, and the loader takes one version at a time.
theorem zoneUpdated_announced {a : Action} (h : p.step a = some p') :
    p'.zoneUpdated = p.zoneUpdated ++ p.announced a ∨
      ∃ version, p.zoneUpdated = version :: p'.zoneUpdated := by
  have hframe := step_frame h
  have hsame : a.task ≠ .loader → a.task ≠ .transfer → p.announced a = [] →
      p'.zoneUpdated = p.zoneUpdated ++ p.announced a := by
    intro hloader htransfer hnone
    rw [hframe.zoneUpdated hloader htransfer, hnone, List.append_nil]
  cases a with
  | loaderReceive loaded isSecondary =>
    apply Or.inl
    simp only [step, loaderReceive] at h
    split at h
    next zone net _ hreceive =>
      rw [← Option.some.inj h, (zoneUpdated_register zone loaded isSecondary).2]
      simp only [announced, hreceive]
      rfl
    next cmd net hother _ hreceive =>
      have hnone : p.announced (.loaderReceive loaded isSecondary) = [] := by
        simp only [announced, hreceive]
        split
        next zone _ heq =>
          cases heq
          exact absurd rfl (hother zone)
        · rfl
      rw [← Option.some.inj h, hnone, List.append_nil]
      rfl
    · cases h
  | loaderUpdated =>
    apply Or.inr
    simp only [step, loaderUpdated] at h
    split at h
    next name serial rest _ hupdated =>
      rw [← Option.some.inj h]
      exact ⟨(name, serial), hupdated⟩
    · cases h
  | loaderInsert | loaderStore =>
    simp only [step, loaderInsert, loaderStore] at h
    repeat' split at h
    all_goals cases h
    all_goals exact Or.inl (List.append_nil _).symm
  | transferWrite name handle content =>
    simp only [step, transferWrite] at h
    split at h
    · cases h
      exact Or.inl (List.append_nil _).symm
    · cases h
  | transferCommit name handle content =>
    simp only [step, transferCommit] at h
    split at h
    · cases h
      exact Or.inl rfl
    · cases h
  | _ => exact Or.inl (hsame (by intro heq; cases heq) (by intro heq; cases heq) rfl)

theorem room_of_step {a : Action} (hok : p.leavesRoom a = true) (h : p.step a = some p') :
    p'.zoneUpdated.length ≤ ZoneLoader.capacity := by
  have hroom : p.zoneUpdated.length + (p.announced a).length ≤ ZoneLoader.capacity :=
    of_decide_eq_true hok
  rcases zoneUpdated_announced h with hadded | ⟨version, htaken⟩
  · rw [hadded, List.length_append]
    exact hroom
  · rw [htaken, List.length_cons] at hroom
    omega

/-! ## Sending and receiving -/

theorem netWork_send (net : Net) (update : Update) :
    netWork (net.sendAll [update]) =
      netWork net + (1 + Router.commandsWork UnitName.cost (directUpdate update)) := by
  rw [netWork, Router.work_sendAll]
  simp [netWork, Router.updatesWork]

theorem netWork_receive {net net' : Net} {u : UnitName} {c : ApplicationCommand}
    (h : net.receive u = some (c, net')) : netWork net' + u.cost = netWork net :=
  Router.work_receive units_nodup (mem_units u) h

theorem netWork_changes (net : Net) (changes : List Change) :
    netWork (net.sendAll (changes.map .Changed)) = netWork net + 76 * changes.length := by
  have hwork : Router.updatesWork directUpdate UnitName.cost (changes.map Update.Changed) =
      76 * changes.length := by
    induction changes with
    | nil => rfl
    | cons change changes ih =>
      show 76 + Router.updatesWork directUpdate UnitName.cost (changes.map Update.Changed) = _
      rw [ih, List.length_cons]
      omega
  rw [netWork, Router.work_sendAll, hwork]
  rfl

/-! ## The HTTP handlers -/

-- A call of `change_policy` announces its one change, or nothing.
theorem linkPolicy_sends (c : Center) (n : Name) (z : ZoneState) (k : String) :
    ∃ changes : List Change, changes.length ≤ 1 ∧
      (linkPolicy c n z k).2.updateTx = c.updateTx ++ changes.map Update.Changed := by
  unfold linkPolicy
  cases c.state.policies.lookup k with
  | none => exact ⟨[], by simp, by simp⟩
  | some policy =>
    by_cases hdeleted : policy.midDeletion = true
    · exact ⟨[], by simp, by simp [hdeleted]⟩
    · refine ⟨[.ZonePolicyChanged n policy.latest], by simp, ?_⟩
      simp only [if_neg hdeleted]
      exact Center.markZoneDirty_updateTx _ _ _

theorem changePolicy_sends {c c' : Center} {n : Name} {k : String}
    {r : Except ChangePolicyError Unit} (h : changePolicy c n k = .ok (r, c')) :
    ∃ changes : List Change, changes.length ≤ 1 ∧
      c'.updateTx = c.updateTx ++ changes.map Update.Changed := by
  have hsame : c' = c → ∃ changes : List Change, changes.length ≤ 1 ∧
      c'.updateTx = c.updateTx ++ changes.map Update.Changed :=
    fun heq ↦ ⟨[], by simp, by simp [heq]⟩
  unfold changePolicy at h
  split at h
  · cases h
    exact hsame rfl
  · cases h
    exact hsame rfl
  next zoneState policy _ _ =>
    split at h
    · cases h
      exact hsame rfl
    · obtain ⟨c1, hunlink, h⟩ := except_bind_ok h
      have heq : linkPolicy (c1.setZone n { zoneState with policy := none }) n
          { zoneState with policy := none } k = (r, c') := Except.ok.inj h
      have hlink := linkPolicy_sends (c1.setZone n { zoneState with policy := none }) n
        { zoneState with policy := none } k
      rw [heq] at hlink
      obtain ⟨changes, hlength, hchanges⟩ := hlink
      have htx : c1.updateTx = c.updateTx := unlinkPolicy_updateTx hunlink
      exact ⟨changes, hlength, hchanges.trans (congrArg (· ++ changes.map Update.Changed) htx)⟩

theorem work_zoneAddNext {i : Nat} (h : p.zoneAddNext i = some p') : p'.work < p.work := by
  unfold zoneAddNext at h
  cases hi : p.requests[i]? with
  | none => simp [hi] at h
  | some request =>
    have herase := sum_map_eraseIdx (μ := AddRequest.work) hi
    simp only [hi] at h
    obtain ⟨register, policyChanged⟩ := request
    cases policyChanged with
    | true =>
      have hp' := Option.some.inj h
      have hpost : netWork (p.net.post .ZL (.RegisterZone register)) = netWork p.net + 1 + 25 :=
        Router.work_post _ _ _
      have hnet : netWork p'.net = netWork p.net + 26 := hp' ▸ hpost
      have hrequest : AddRequest.work ⟨register, true⟩ = 27 := rfl
      have hlocal : p'.localWork + 27 = p.localWork := by
        rw [← hp']
        simp only [localWork, withNet]
        omega
      simp only [work]
      omega
    | false =>
      have hrequest : AddRequest.work ⟨register, false⟩ = 104 := rfl
      have hdrop : ∀ poisoned, p' = { p with
          poisoned := poisoned, requests := p.requests.eraseIdx i } → p'.work < p.work := by
        intro poisoned hp'
        have hnet : netWork p'.net = netWork p.net := by rw [hp']; rfl
        have hlocal : p'.localWork + 104 = p.localWork := by
          rw [hp']
          simp only [localWork]
          omega
        simp only [work]
        omega
      by_cases hpoisoned : p.poisoned = true
      · simp only [if_pos hpoisoned] at h
        exact hdrop p.poisoned (Option.some.inj h).symm
      · simp only [if_neg hpoisoned] at h
        cases hchange : changePolicy p.center register.name register.policy with
        | error message =>
          simp only [hchange] at h
          exact hdrop true (Option.some.inj h).symm
        | ok result =>
          simp only [hchange] at h
          have hp' := Option.some.inj h
          obtain ⟨changes, hlength, htx⟩ := changePolicy_sends hchange
          have hnet : netWork p'.net = netWork p.net + 76 * changes.length := by
            rw [← hp', ← netWork_changes]
            show netWork ⟨result.2.updateTx, p.appCmds, p.inbox⟩ = _
            rw [htx]
            rfl
          have hset := sum_map_set (μ := AddRequest.work) (b := ⟨register, true⟩) hi
          have hrequest' : AddRequest.work ⟨register, true⟩ = 27 := rfl
          have hlocal : p'.localWork + 77 = p.localWork := by
            rw [← hp']
            simp only [localWork]
            omega
          simp only [work]
          omega

/-! ## The units -/

theorem work_loaderReceive {loaded : Option ZoneContent} {isSecondary : Bool}
    (h : p.loaderReceive loaded isSecondary = some p') : p'.work < p.work := by
  obtain ⟨cmd, net, hidle, hreceive, hp'⟩ := loaderReceive_spec h
  have hbefore : netWork net + 25 = netWork p.net := netWork_receive hreceive
  have hloader : LoaderTask.work p.loader = 0 := by rw [hidle]; rfl
  have hlocal : netWork p'.net = netWork net ∧ p'.localWork ≤ p.localWork + 24 := by
    cases hp' with
    | inl hsame =>
      rw [hsame]
      exact ⟨rfl, Nat.le_add_right _ _⟩
    | inr hregistered =>
      obtain ⟨zone, _, hregisters, hp'⟩ := hregistered
      rw [hp']
      cases @register_of_registers (p.withNet net) zone loaded isSecondary hregisters with
      | inl hempty =>
        rw [hempty]
        refine ⟨rfl, ?_⟩
        simp only [localWork, withNet, LoaderTask.work]
        omega
      | inr hfile =>
        obtain ⟨soa, records, hfile⟩ := hfile
        rw [hfile]
        refine ⟨rfl, ?_⟩
        simp only [localWork, withNet, LoaderTask.work, List.length_append, List.length_singleton]
        omega
  simp only [work]
  omega

theorem work_loaderUpdated (h : p.loaderUpdated = some p') : p'.work < p.work := by
  unfold loaderUpdated at h
  split at h
  next name serial rest hidle hupdated =>
    have hp' := Option.some.inj h
    have hsend : netWork (p.net.sendAll [.UnsignedZoneUpdatedEvent name serial]) =
        netWork p.net + 21 := netWork_send _ _
    have hnet : netWork p'.net = netWork p.net + 21 := hp' ▸ hsend
    have hlocal : p'.localWork + 22 = p.localWork := by
      rw [← hp']
      simp only [localWork, send, withNet, hupdated, List.length_cons]
      omega
    simp only [work]
    omega
  · cases h

-- What is done without a message takes a step less.
theorem work_local {a : Action} (hquiet : isLocal a = true)
    (h : p.step a = some p') (hlocal : p'.localWork < p.localWork) : p'.work < p.work := by
  have hnet : p'.net = p.net := net_of_isLocal h hquiet
  simp only [work, hnet]
  omega

theorem work_loaderInsert (h : p.loaderInsert = some p') : p'.localWork < p.localWork := by
  unfold loaderInsert at h
  split at h
  next name handle hloader =>
    rw [← Option.some.inj h]
    simp only [localWork, hloader, LoaderTask.work]
    omega
  next name handle hloader =>
    split at h
    · rw [← Option.some.inj h]
      simp only [localWork, hloader, LoaderTask.work]
      omega
    · rw [← Option.some.inj h]
      simp only [localWork, hloader, LoaderTask.work]
      omega
  · cases h

theorem work_loaderStore (h : p.loaderStore = some p') : p'.localWork < p.localWork := by
  unfold loaderStore at h
  split at h
  next zones hloader =>
    rw [← Option.some.inj h]
    simp only [localWork, hloader, LoaderTask.work]
    omega
  · cases h

theorem work_promoteStore (h : p.promoteStore = some p') : p'.localWork < p.localWork := by
  unfold promoteStore at h
  split at h
  next zones hmaintainer =>
    rw [← Option.some.inj h]
    simp only [localWork, hmaintainer, LoaderTask.work]
    omega
  · cases h

-- A review server answers a command with one approval at most.
theorem netWork_review {source : Source} (zs : ZoneServer source) (rounds : Nat → Uuid × Bool)
    (cmd : ApplicationCommand) (net : Net) (bound : Nat)
    (hbound : ∀ n s, 1 + Router.commandsWork UnitName.cost (directUpdate (source.approvedEvent n s)) ≤
      bound) :
    netWork (net.sendAll (zs.handleCommand rounds cmd).2) ≤ netWork net + bound := by
  cases (zs.handleCommand_spec rounds cmd).2 with
  | inl hnone =>
    rw [hnone, netWork, Router.work_sendAll]
    show netWork net + 0 ≤ _
    omega
  | inr happroved =>
    obtain ⟨key, happroved, _⟩ := happroved
    rw [happroved, netWork_send]
    have := hbound key.1 key.2
    omega

theorem work_rsReceive {rounds : Nat → Uuid × Bool} (h : p.rsReceive rounds = some p') :
    p'.work < p.work := by
  obtain ⟨cmd, net, hreceive, hp'⟩ := rsReceive_spec h
  have hbefore : netWork net + 19 = netWork p.net := netWork_receive hreceive
  have hreview := netWork_review p.rs rounds cmd net 18 (fun _ _ ↦ Nat.le_refl _)
  have hnet : netWork p'.net ≤ netWork net + 18 := hp' ▸ hreview
  have hlocal : p'.localWork = p.localWork := by rw [hp']; rfl
  simp only [work]
  omega

theorem work_rs2Receive {rounds : Nat → Uuid × Bool} (h : p.rs2Receive rounds = some p') :
    p'.work < p.work := by
  obtain ⟨cmd, net, hreceive, hp'⟩ := rs2Receive_spec h
  have hbefore : netWork net + 6 = netWork p.net := netWork_receive hreceive
  have hreview := netWork_review p.rs2 rounds cmd net 5 (fun _ _ ↦ Nat.le_refl _)
  have hnet : netWork p'.net ≤ netWork net + 5 := hp' ▸ hreview
  have hlocal : p'.localWork = p.localWork := by rw [hp']; rfl
  simp only [work]
  omega

-- A turn of the signer or the publication server without a message.
theorem work_quiet (hnet : p'.net = p.net) (hlocal : p'.localWork < p.localWork) :
    p'.work < p.work := by
  simp only [work, hnet]
  omega

theorem work_signer {a : Action} (h : SignerTurn p a p') : p'.work < p.work := by
  cases h with
  | @receive job net hidle hreceive hlookup =>
    have hbefore : netWork net + 16 = netWork p.net := netWork_receive hreceive
    show netWork net + localWork { p.withNet net with signer := .found job } < _
    simp only [work, localWork, withNet, hidle, ZoneSigner.work]
    omega
  | @skip cmd net hidle hreceive =>
    have hbefore : netWork net + 16 = netWork p.net := netWork_receive hreceive
    show netWork net + localWork p < _
    simp only [work]
    omega
  | @report records name serial hsigner =>
    have hsend : netWork (p.net.sendAll [.ZoneSignedEvent name serial]) = netWork p.net + 8 :=
      netWork_send _ _
    show netWork (p.net.sendAll [.ZoneSignedEvent name serial]) +
      localWork { p with signer := .idle } < _
    simp only [work, localWork, hsigner, ZoneSigner.work]
    omega
  | read hsigner _ | choose hsigner _ | create hsigner _ | panic hsigner _ | collect hsigner _ =>
    refine work_quiet rfl ?_
    simp only [localWork, hsigner, ZoneSigner.work]
    omega
  | noSoa hsigner | store hsigner | configure hsigner | commit hsigner | fail hsigner =>
    refine work_quiet rfl ?_
    simp only [localWork, hsigner, ZoneSigner.work]
    omega

theorem work_publisher {a : Action} (h : PublisherTurn p a p') : p'.work < p.work := by
  cases h with
  | @take name serial net handle hidle hreceive hlookup =>
    have hbefore : netWork net + 3 = netWork p.net := netWork_receive hreceive
    show netWork net + localWork { p.withNet net with
      publisher := .adding name handle p.signedZones p.publishedZones } < _
    simp only [work, localWork, withNet, hidle, Publisher.work]
    omega
  | @skip cmd net hidle hreceive =>
    have hbefore : netWork net + 3 = netWork p.net := netWork_receive hreceive
    show netWork net + localWork p < _
    simp only [work]
    omega
  | add hpublisher | remove hpublisher =>
    refine work_quiet rfl ?_
    simp only [localWork, hpublisher, Publisher.work]
    omega

theorem of_ownStep {a : Action} (h : p.ownStep a = some p') :
    a.isOwn = true ∧ p.leavesRoom a = true ∧ p.step a = some p' := by
  unfold ownStep at h
  split at h
  next hown =>
    rw [Bool.and_eq_true] at hown
    exact ⟨hown.1, hown.2, h⟩
  · cases h

-- Each step of the units leaves less to do.
theorem work_ownStep {a : Action} (h : p.ownStep a = some p') : p'.work < p.work := by
  obtain ⟨hown, _, hstep⟩ := of_ownStep h
  cases a with
  | zoneAddNext i => exact work_zoneAddNext hstep
  | direct =>
    cases hdirect : p.net.direct directUpdate with
    | none => simp [step, hdirect] at hstep
    | some net =>
      have hp' : p.withNet net = p' := by simpa [step, hdirect] using hstep
      have hwork : netWork net + 1 = netWork p.net := Router.work_direct hdirect
      rw [← hp']
      show netWork net + localWork p < netWork p.net + localWork p
      omega
  | forward =>
    cases hforward : p.net.forward with
    | none => simp [step, hforward] at hstep
    | some net =>
      have hp' : p.withNet net = p' := by simpa [step, hforward] using hstep
      have hwork : netWork net + 1 = netWork p.net :=
        Router.work_forward units_nodup mem_units hforward
      rw [← hp']
      show netWork net + localWork p < netWork p.net + localWork p
      omega
  | loaderReceive loaded isSecondary => exact work_loaderReceive hstep
  | loaderUpdated => exact work_loaderUpdated hstep
  | loaderInsert => exact work_local rfl hstep (work_loaderInsert hstep)
  | loaderStore => exact work_local rfl hstep (work_loaderStore hstep)
  | promoteStore => exact work_local rfl hstep (work_promoteStore hstep)
  | rsReceive rounds => exact work_rsReceive hstep
  | rs2Receive rounds => exact work_rs2Receive hstep
  | signerReceive => exact work_signer (signerTurn_of_step hstep rfl)
  | signerNext records => exact work_signer (signerTurn_of_step hstep rfl)
  | signerFail => exact work_signer (signerTurn_of_step hstep rfl)
  | publisherReceive => exact work_publisher (publisherTurn_of_step hstep rfl)
  | publisherNext => exact work_publisher (publisherTurn_of_step hstep rfl)
  | zoneAdd register => cases hown
  | zoneRemove name => cases hown
  | review server name serial token operation => cases hown
  | resign name => cases hown
  | promote name => cases hown
  | transferWrite name handle content => cases hown
  | transferCommit name handle content => cases hown

/-! ## The end -/

/-- What keeps a unit from being stuck with something: a zone that the signer has read once can be
read again. -/
structure Steady (p : Pipeline) : Prop where
  loader : p.loader ≠ .panicked
  maintainer : ∀ name handle isSecondary, p.maintainer ≠ .inserting name handle isSecondary
  readable : ∀ job, p.signer.reading = some job →
    p.signer = .found job ∨ (p.readZone job).isSome = true

theorem steady_started (h : p.Started) : p.Steady := by
  obtain ⟨center, rsHooks, rs2Hooks, _, hp⟩ := h
  rw [hp]
  exact ⟨nofun, nofun, nofun⟩

-- Zones are never taken from the heaps.
theorem unsignedHeap_of_step {a : Action} (h : p.step a = some p') {n : Name} {handle : Handle}
    (hget : (p.unsignedHeap.get n handle).isSome = true) :
    (p'.unsignedHeap.get n handle).isSome = true := by
  cases zoneStep_of_step h with
  | keeps hheap _ _ => exact hheap ▸ hget
  | empty _ hheap _ _ => exact hheap ▸ Heap.isSome_get_alloc hget
  | file _ hheap _ _ => exact hheap ▸ Heap.isSome_get_alloc hget
  | write hheap _ _ => exact hheap ▸ Heap.isSome_get_set hget
  | commit _ hheap _ _ => exact hheap ▸ Heap.isSome_get_set hget

theorem signedHeap_of_step {a : Action} (h : p.step a = some p') {n : Name} {handle : Handle}
    (hget : (p.signedHeap.get n handle).isSome = true) :
    (p'.signedHeap.get n handle).isSome = true := by
  by_cases ha : a.task = .signer
  · cases signerTurn_of_step h ha with
    | create _ _ => exact Heap.isSome_get_alloc hget
    | commit _ => exact Heap.isSome_get_set hget
    | _ => exact hget
  · rw [(step_frame h).signedHeap ha]
    exact hget

theorem readZone_of_step {a : Action} (h : p.step a = some p') {job : SignJob}
    (hread : (p.readZone job).isSome = true) : (p'.readZone job).isSome = true := by
  unfold readZone at hread ⊢
  cases hserial : job.zoneSerial with
  | none =>
    simp only [hserial, Option.isSome_map] at hread ⊢
    exact signedHeap_of_step h hread
  | some serial =>
    simp only [hserial, Option.isSome_map] at hread ⊢
    exact unsignedHeap_of_step h hread

theorem Steady.past {job : SignJob} (hinv : p.Steady) (hjob : p.signer.reading = some job)
    (hpast : p.signer ≠ .found job) : (p.readZone job).isSome = true :=
  (hinv.readable job hjob).resolve_left hpast

theorem Steady.of_signer {a : Action} (hinv : p.Steady) (h : SignerTurn p a p') {job : SignJob}
    (hjob : p'.signer.reading = some job) :
    p'.signer = .found job ∨ (p.readZone job).isSome = true := by
  cases h with
  | receive _ _ _ => exact Or.inl (congrArg ZoneSigner.found (Option.some.inj hjob))
  | skip _ _ => exact hinv.readable job hjob
  | read hsigner hread =>
    have hsame := Option.some.inj hjob
    rw [← hsame, hread]
    exact Or.inr rfl
  | choose hsigner _ | create hsigner _ =>
    rw [← Option.some.inj hjob]
    exact Or.inr (hinv.past (by rw [hsigner]; rfl) (by simp [hsigner]))
  | store hsigner | configure hsigner =>
    rw [← Option.some.inj hjob]
    exact Or.inr (hinv.past (by rw [hsigner]; rfl) (by simp [hsigner]))
  | noSoa _ | commit _ | report _ | fail _ => cases hjob
  | panic _ _ | collect _ _ => cases hjob

theorem loader_of_step {a : Action} (h : p.step a = some p') (hloader : p.loader ≠ .panicked) :
    p'.loader ≠ .panicked := by
  by_cases ha : a.task = .loader
  · cases a with
    | loaderReceive loaded isSecondary =>
      obtain ⟨cmd, net, hidle, hreceive, hp'⟩ := loaderReceive_spec h
      cases hp' with
      | inl hsame =>
        rw [hsame]
        exact hloader
      | inr hregistered =>
        obtain ⟨zone, _, hregisters, hp'⟩ := hregistered
        rw [hp']
        cases @register_of_registers (p.withNet net) zone loaded isSecondary hregisters with
        | inl hempty =>
          rw [hempty]
          intro hpanicked
          cases hpanicked
        | inr hfile =>
          obtain ⟨soa, records, hfile⟩ := hfile
          rw [hfile]
          intro hpanicked
          cases hpanicked
    | loaderUpdated =>
      simp only [Pipeline.step, loaderUpdated] at h
      split at h
      · rw [← Option.some.inj h]
        exact hloader
      · cases h
    | loaderInsert | loaderStore =>
      simp only [Pipeline.step, loaderInsert, loaderStore] at h
      repeat' split at h
      all_goals cases h
      all_goals intro hpanicked
      all_goals cases hpanicked
    | _ => cases ha
  · rw [(step_frame h).loader ha]
    exact hloader

theorem maintainer_of_step {a : Action} (h : p.step a = some p')
    (hmaintainer : ∀ name handle isSecondary, p.maintainer ≠ .inserting name handle isSecondary) :
    ∀ name handle isSecondary, p'.maintainer ≠ .inserting name handle isSecondary := by
  by_cases ha : a.task = .maintainer
  · cases a with
    | promote _ | promoteStore =>
      simp only [Pipeline.step, promote, promoteStore] at h
      repeat' split at h
      all_goals cases h
      all_goals intro name handle isSecondary hinserting
      all_goals cases hinserting
    | _ => cases ha
  · rw [(step_frame h).maintainer ha]
    exact hmaintainer

theorem Steady.step {a : Action} (hinv : p.Steady) (h : p.step a = some p') : p'.Steady where
  loader := loader_of_step h hinv.loader
  maintainer := maintainer_of_step h hinv.maintainer
  readable job hjob := by
    have hbefore : p'.signer = .found job ∨ (p.readZone job).isSome = true := by
      by_cases ha : a.task = .signer
      · exact hinv.of_signer (signerTurn_of_step h ha) hjob
      · have hsame := (step_frame h).signer ha
        rw [hsame] at hjob ⊢
        exact hinv.readable job hjob
    exact hbefore.imp id (readZone_of_step h)

/-! ## Rest -/

section

variable (hroom : p.zoneUpdated.length ≤ ZoneLoader.capacity) (hstuck : ∀ a, p.ownStep a = none)

include hroom hstuck

-- A step that announces nothing finds room.
theorem step_of_stuck {a : Action} (hown : a.isOwn = true) (hnone : p.announced a = []) :
    p.step a = none := by
  have h := hstuck a
  have hleaves : p.leavesRoom a = true := by
    unfold leavesRoom
    rw [hnone]
    exact decide_eq_true hroom
  rwa [ownStep, hown, hleaves, Bool.and_self, if_pos rfl] at h

theorem queues_empty : p.center.updateTx = [] ∧ p.appCmds = [] := by
  have hdirect := step_of_stuck hroom hstuck (a := .direct) rfl rfl
  have hforward := step_of_stuck hroom hstuck (a := .forward) rfl rfl
  refine ⟨?_, ?_⟩
  · apply @Router.updates_of_direct _ _ _ directUpdate p.net
    cases hnet : p.net.direct directUpdate with
    | none => rfl
    | some net => simp [step, hnet] at hdirect
  · apply @Router.commands_of_forward _ _ _ _ p.net
    cases hnet : p.net.forward with
    | none => rfl
    | some net => simp [step, hnet] at hforward

theorem requests_empty : p.requests = [] := by
  have hnext : p.zoneAddNext 0 = none := step_of_stuck hroom hstuck (a := .zoneAddNext 0) rfl rfl
  cases hrequests : p.requests with
  | nil => rfl
  | cons request requests =>
    obtain ⟨register, policyChanged⟩ := request
    unfold zoneAddNext at hnext
    cases policyChanged with
    | true => simp [hrequests] at hnext
    | false =>
      by_cases hpoisoned : p.poisoned = true
      · simp [hrequests, hpoisoned] at hnext
      · cases hchange : changePolicy p.center register.name register.policy with
        | ok result => simp [hrequests, hpoisoned, hchange] at hnext
        | error message => simp [hrequests, hpoisoned, hchange] at hnext

theorem loader_rests (hloader : p.loader ≠ .panicked) :
    (p.loader = .idle ∧ p.inbox .ZL = []) ∧ p.zoneUpdated = [] := by
  have hidle : p.loader = .idle := by
    cases hp : p.loader with
    | idle => rfl
    | inserting name handle isSecondary =>
      have hnext : p.loaderInsert = none := step_of_stuck hroom hstuck (a := .loaderInsert) rfl rfl
      unfold loaderInsert at hnext
      cases isSecondary with
      | true => simp [hp] at hnext
      | false =>
        simp only [hp] at hnext
        split at hnext
        · cases hnext
        · cases hnext
    | storing zones =>
      have hnext : p.loaderStore = none := step_of_stuck hroom hstuck (a := .loaderStore) rfl rfl
      simp [loaderStore, hp] at hnext
    | panicked => exact absurd hp hloader
  have hreceive : p.loaderReceive none false = none :=
    step_of_stuck hroom hstuck (a := .loaderReceive none false) rfl (announced_none false)
  have hupdated : p.loaderUpdated = none := step_of_stuck hroom hstuck (a := .loaderUpdated) rfl rfl
  refine ⟨⟨hidle, ?_⟩, ?_⟩
  · apply @Router.inbox_of_receive _ _ _ _ p.net
    cases hnet : p.net.receive .ZL with
    | none => rfl
    | some received =>
      obtain ⟨cmd, net⟩ := received
      unfold loaderReceive at hreceive
      cases cmd with
      | _ => simp [hidle, hnet] at hreceive
  · cases hzone : p.zoneUpdated with
    | nil => rfl
    | cons zone rest => simp [loaderUpdated, hidle, hzone] at hupdated

theorem maintainer_rests (hmaintainer : ∀ name handle isSecondary,
      p.maintainer ≠ .inserting name handle isSecondary) :
    p.maintainer = .idle ∨ p.maintainer = .panicked := by
  cases hp : p.maintainer with
  | idle => exact Or.inl rfl
  | inserting name handle isSecondary => exact absurd hp (hmaintainer name handle isSecondary)
  | storing zones =>
    have hnext : p.promoteStore = none := step_of_stuck hroom hstuck (a := .promoteStore) rfl rfl
    simp [promoteStore, hp] at hnext
  | panicked => exact Or.inr rfl

theorem reviews_rest : p.inbox .RS = [] ∧ p.inbox .RS2 = [] := by
  have hrs : p.rsReceive (fun _ ↦ (0, true)) = none :=
    step_of_stuck hroom hstuck (a := .rsReceive (fun _ ↦ (0, true))) rfl rfl
  have hrs2 : p.rs2Receive (fun _ ↦ (0, true)) = none :=
    step_of_stuck hroom hstuck (a := .rs2Receive (fun _ ↦ (0, true))) rfl rfl
  refine ⟨?_, ?_⟩
  · apply @Router.inbox_of_receive _ _ _ _ p.net
    cases hnet : p.net.receive .RS with
    | none => rfl
    | some received => simp [rsReceive, hnet] at hrs
  · apply @Router.inbox_of_receive _ _ _ _ p.net
    cases hnet : p.net.receive .RS2 with
    | none => rfl
    | some received => simp [rs2Receive, hnet] at hrs2

theorem signer_rests (hreadable : ∀ job, p.signer.reading = some job →
      p.signer = .found job ∨ (p.readZone job).isSome = true) :
    (p.signer = .idle ∧ p.inbox .ZS = []) ∨ p.signer = .panicked := by
  have hnext : p.signerNext [] = none := step_of_stuck hroom hstuck (a := .signerNext []) rfl rfl
  have hreceive : p.signerReceive = none := step_of_stuck hroom hstuck (a := .signerReceive) rfl rfl
  unfold signerNext at hnext
  cases hp : p.signer with
  | idle =>
    refine Or.inl ⟨rfl, ?_⟩
    apply @Router.inbox_of_receive _ _ _ _ p.net
    cases hnet : p.net.receive .ZS with
    | none => rfl
    | some received =>
      obtain ⟨cmd, net⟩ := received
      unfold signerReceive at hreceive
      cases cmd with
      | SignZone name serial =>
        simp only [hp, hnet] at hreceive
        split at hreceive
        · cases hreceive
        · cases hreceive
      | _ => simp [hp, hnet] at hreceive
  | found job =>
    simp only [hp] at hnext
    split at hnext
    · cases hnext
    · cases hnext
  | started job soa =>
    simp only [hp] at hnext
    split at hnext
    · cases hnext
    · cases hnext
  | creating job soa loaded handle => simp [hp] at hnext
  | targeted job soa handle =>
    simp only [hp] at hnext
    repeat' split at hnext
    all_goals cases hnext
  | configured job soa handle policy =>
    have hread := (hreadable job (by rw [hp]; rfl)).resolve_left (by simp [hp])
    obtain ⟨content, hcontent⟩ := Option.isSome_iff_exists.mp hread
    simp [hp, hcontent] at hnext
  | collected job soa handle policy records => simp [hp] at hnext
  | committed name serial => simp [hp] at hnext
  | panicked => exact Or.inr rfl

theorem publisher_rests : p.publisher = .idle ∧ p.inbox .PS = [] := by
  have hnext : p.publisherNext = none := step_of_stuck hroom hstuck (a := .publisherNext) rfl rfl
  have hreceive : p.publisherReceive = none :=
    step_of_stuck hroom hstuck (a := .publisherReceive) rfl rfl
  have hidle : p.publisher = .idle := by
    cases hp : p.publisher with
    | idle => rfl
    | adding name handle signedZones publishedZones => simp [publisherNext, hp] at hnext
    | removing name signedZones => simp [publisherNext, hp] at hnext
  refine ⟨hidle, ?_⟩
  apply @Router.inbox_of_receive _ _ _ _ p.net
  cases hnet : p.net.receive .PS with
  | none => rfl
  | some received =>
    obtain ⟨cmd, net⟩ := received
    unfold publisherReceive at hreceive
    cases cmd with
    | PublishSignedZone name serial =>
      simp only [hidle, hnet] at hreceive
      split at hreceive
      · cases hreceive
      · cases hreceive
    | _ => simp [hidle, hnet] at hreceive

theorem Steady.atRest (hinv : p.Steady) : p.AtRest where
  updates := (queues_empty hroom hstuck).1
  commands := (queues_empty hroom hstuck).2
  requests := requests_empty hroom hstuck
  zoneUpdated := (loader_rests hroom hstuck hinv.loader).2
  loader := (loader_rests hroom hstuck hinv.loader).1
  maintainer := maintainer_rests hroom hstuck hinv.maintainer
  reviews := reviews_rest hroom hstuck
  signer := signer_rests hroom hstuck hinv.readable
  publisher := publisher_rests hroom hstuck

end

/-- The runs in which nothing is announced on a full channel. -/
abbrev Roomy (p : Pipeline) : Prop := Reach step (fun p a ↦ p.leavesRoom a = true) Started p

theorem Roomy.room (h : p.Roomy) : p.zoneUpdated.length ≤ ZoneLoader.capacity := by
  apply h.invariant (I := fun p ↦ p.zoneUpdated.length ≤ ZoneLoader.capacity)
  · intro p hp
    obtain ⟨center, rsHooks, rs2Hooks, _, hp⟩ := hp
    rw [hp]
    exact Nat.zero_le _
  · intro p a p' _ hok hstep
    exact room_of_step hok hstep

theorem Roomy.exec_own {as : List Action} (h : p.Roomy) (hrun : exec ownStep p as = some p') :
    p'.Roomy := by
  induction as generalizing p with
  | nil =>
    cases hrun
    exact h
  | cons a as ih =>
    obtain ⟨p1, h1, h2⟩ := Option.bind_eq_some_iff.mp hrun
    obtain ⟨_, hok, hstep⟩ := of_ownStep h1
    exact ih (.next h hok hstep) h2

theorem Roomy.atRest (h : p.Roomy) (hstuck : ∀ a, p.ownStep a = none) : p.AtRest := by
  have hsteady := h.invariant (I := Steady) (fun _ hs ↦ steady_started hs)
    (fun _ _ _ hs _ hstep ↦ hs.step hstep)
  exact hsteady.atRest h.room hstuck

theorem Roomy.exists_exec_atRest (h : p.Roomy) :
    ∃ as p', exec ownStep p as = some p' ∧ p'.AtRest := by
  obtain ⟨as, p', hrun, hstuck⟩ := exists_exec_stuck (fun _ _ _ hstep ↦ work_ownStep hstep) p
  exact ⟨as, p', hrun, (h.exec_own hrun).atRest hstuck⟩

/-- In whatever state the pipeline is left alone, when nobody has found the channel of announced
versions full: its units do not take more steps than the work that is left, in whatever order they
take those that find room on the channel, and where there are none any more, nothing is left on its
way and no unit is in the middle of something, unless the signer or the maintainer has panicked.  So
every change is worked off at some time. -/
theorem pipeline_settles (h : Reach step (fun p a ↦ p.leavesRoom a = true) Started p) :
    (∀ as p', exec ownStep p as = some p' →
      as.length ≤ p.work ∧ p'.zoneUpdated.length ≤ ZoneLoader.capacity) ∧
      (∀ as p', exec ownStep p as = some p' → (∀ a, p'.ownStep a = none) → p'.AtRest) ∧
      ∃ as p', exec ownStep p as = some p' ∧ p'.AtRest := by
  have hroomy : p.Roomy := h
  refine ⟨?_, fun as p' hrun ↦ (hroomy.exec_own hrun).atRest, hroomy.exists_exec_atRest⟩
  intro as p' hrun
  have hlength := exec_length_le (fun _ _ _ hstep ↦ work_ownStep hstep) hrun
  exact ⟨by omega, (hroomy.exec_own hrun).room⟩

namespace OneZone

/-- A version has been committed, and the loader is about to be told. -/
theorem first_version_settles :
    ∃ p, p.zoneUpdated = [(zone, ⟨1⟩)] ∧ ∃ as p', exec ownStep p as = some p' ∧ p'.AtRest := by
  have hcommitted : (exec step daemon (registration ++ firstTransfer)).any
      (fun p ↦ decide (p.zoneUpdated = [(zone, ⟨1⟩)])) = true := by decide +kernel
  have hreach : ∃ p, Reach step (fun p a ↦ p.leavesRoom a = true) Started p ∧
      decide (p.zoneUpdated = [(zone, ⟨1⟩)]) = true :=
    Reach.of_exec daemon_started (registration ++ firstTransfer) (by decide +kernel) hcommitted
  obtain ⟨p, hp, hupdated⟩ := hreach
  have hsettles := pipeline_settles hp
  exact ⟨p, of_decide_eq_true hupdated, hsettles.2.2⟩

end OneZone

end Pipeline

end Cascade

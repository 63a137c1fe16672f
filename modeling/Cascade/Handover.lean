import Cascade.Settling

/-!
# Handing versions over

A new version of a zone is announced by the loader, approved by a review server and handed to the
signer, and what the signer makes of it is approved by another review server and handed to the
publication server.  With review servers that have no hooks nothing is asked twice and nothing is
refused, so that a version is handed on as often as it was announced, once it is no longer underway.
-/

namespace Cascade

open Lib

namespace ZoneServer

variable {source : Source}

/-- A server without hooks never has anything to remember. -/
structure Plain (zs : ZoneServer source) : Prop where
  hooks : zs.hooks = []
  pending : zs.pendingApprovals = ∅
  last : zs.lastApprovals = ∅

-- It approves what it is asked for, and that is all that it does.
theorem Plain.handleCommand {zs : ZoneServer source} (h : zs.Plain) (rounds : Nat → Uuid × Bool)
    (cmd : ApplicationCommand) :
    zs.handleCommand rounds cmd =
      (zs, (asksFor cmd).toList.map (fun k ↦ source.approvedEvent k.1 k.2)) := by
  have hseek : ∀ n s, zs.onSeekApproval n s rounds = (zs, [source.approvedEvent n s]) := by
    intro n s
    have hnot : ¬(n, s) ∈ zs.lastApprovals := by
      rw [h.last]
      exact AList.notMem_empty _
    have hempty : zs.hooks.isEmpty = true := by rw [h.hooks]; rfl
    have hrounds : (List.range zs.hooks.length).map rounds = [] := by rw [h.hooks]; rfl
    rw [onSeekApproval, if_neg hnot]
    simp only [hempty, hrounds, List.foldl_nil, if_true]
  cases cmd with
  | SeekApprovalForUnsignedZone n s => exact hseek n s
  | SeekApprovalForSignedZone n s => exact hseek n s
  | HandleZoneReviewApi n s token operation =>
    have hnone : zs.pendingApprovals.lookup (n, s) = none := by
      rw [h.pending]
      exact AList.lookup_empty _
    simp [ZoneServer.handleCommand, processRequest, hnone, asksFor]
  | _ => rfl

end ZoneServer

namespace Pipeline

/-- The unit that approved versions are handed to. -/
def nextUnit : Source → UnitName
  | .UnsignedZones => .ZS
  | .SignedZones => .PS

/-- The version that a command hands over. -/
def handsOver : Source → ApplicationCommand → Option (Name × Serial)
  | .UnsignedZones, .SignZone name (some serial) => some (name, serial)
  | .SignedZones, .PublishSignedZone name serial => some (name, serial)
  | _, _ => none

def asks (k : Name × Serial) (cmd : ApplicationCommand) : Bool :=
  decide (ZoneServer.asksFor cmd = some k)

def hands (source : Source) (k : Name × Serial) (cmd : ApplicationCommand) : Bool :=
  decide (handsOver source cmd = some k)

/-- How often the version is on its way between the units. -/
def flying (source : Source) (k : Name × Serial) (net : Net) : Nat :=
  Router.flights directUpdate (asks k) net (reviewUnit source) +
    Router.flights directUpdate (hands source k) net (nextUnit source)

/-- How often the version has been announced, or signed, and not been handed over yet. -/
def underway (source : Source) (k : Name × Serial) (p : Pipeline) : Nat :=
  flying source k p.net +
    match source with
    | .UnsignedZones => p.zoneUpdated.count k
    | .SignedZones => 0

/-- The signed versions that a step of the signer reports. -/
def reported (p : Pipeline) : Action → List (Name × Serial)
  | .signerNext _ =>
    match p.signer with
    | .committed name serial => [(name, serial)]
    | _ => []
  | _ => []

/-- How often a step brings the version in. -/
def brought (source : Source) (k : Name × Serial) (p : Pipeline) (a : Action) : Nat :=
  match source with
  | .UnsignedZones => (p.announced a).count k
  | .SignedZones => (p.reported a).count k

/-- What the signer or the publication server is handed by a step. -/
def received (source : Source) (p : Pipeline) (a : Action) : List (Name × Serial) :=
  match source, a with
  | .UnsignedZones, .signerReceive =>
    ((p.net.receive .ZS).bind (fun received ↦ handsOver .UnsignedZones received.1)).toList
  | .SignedZones, .publisherReceive =>
    ((p.net.receive .PS).bind (fun received ↦ handsOver .SignedZones received.1)).toList
  | _, _ => []

def handed (source : Source) (k : Name × Serial) (p : Pipeline) (a : Action) : Nat :=
  (p.received source a).count k

/-! ## What is on its way -/

variable {p p' : Pipeline} {source : Source} {k : Name × Serial} {net net' : Net}

theorem flying_direct (h : net.direct directUpdate = some net') :
    flying source k net' = flying source k net := by
  rw [flying, Router.flights_direct h, Router.flights_direct h]
  rfl

theorem flying_forward (h : net.forward = some net') :
    flying source k net' = flying source k net := by
  rw [flying, Router.flights_forward h, Router.flights_forward h]
  rfl

/-- How often a command to the unit is about the version. -/
def about (source : Source) (k : Name × Serial) (u : UnitName) (cmd : ApplicationCommand) : Nat :=
  (if u = reviewUnit source ∧ asks k cmd = true then 1 else 0) +
    if u = nextUnit source ∧ hands source k cmd = true then 1 else 0

theorem flying_post (u : UnitName) (cmd : ApplicationCommand) :
    flying source k (net.post u cmd) = flying source k net + about source k u cmd := by
  simp only [flying, Router.flights_post, about]
  omega

theorem flying_receive {u : UnitName} {cmd : ApplicationCommand}
    (h : net.receive u = some (cmd, net')) :
    flying source k net = flying source k net' + about source k u cmd := by
  simp only [flying, Router.flights_receive h, about]
  omega

/-- How often the commands for an update are about the version. -/
def brings (source : Source) (k : Name × Serial) (update : Update) : Nat :=
  ((directUpdate update).map (fun command ↦ about source k command.1 command.2)).sum

theorem countP_addressed_cons (kind : ApplicationCommand → Bool) (u v : UnitName)
    (cmd : ApplicationCommand) (commands : List (UnitName × ApplicationCommand)) :
    (Router.addressed u ((v, cmd) :: commands)).countP kind =
      (Router.addressed u commands).countP kind + if v = u ∧ kind cmd = true then 1 else 0 := by
  by_cases hv : v = u
  · rw [hv, Router.addressed_cons_self, List.countP_cons]
    simp only [true_and]
  · rw [Router.addressed_cons_of_ne _ _ hv, if_neg (fun hboth ↦ hv hboth.1)]
    rfl

theorem sum_about (commands : List (UnitName × ApplicationCommand)) :
    (commands.map (fun command ↦ about source k command.1 command.2)).sum =
      (Router.addressed (reviewUnit source) commands).countP (asks k) +
        (Router.addressed (nextUnit source) commands).countP (hands source k) := by
  induction commands with
  | nil => rfl
  | cons command commands ih =>
    obtain ⟨u, cmd⟩ := command
    rw [List.map_cons, List.sum_cons, ih, countP_addressed_cons, countP_addressed_cons]
    show about source k u cmd + _ = _
    rw [about]
    omega

theorem flying_send (update : Update) :
    flying source k (net.sendAll [update]) = flying source k net + brings source k update := by
  rw [brings, sum_about]
  simp only [flying, Router.flights_sendAll, List.flatMap_singleton]
  omega

-- A change is about no version.
theorem flying_changes (changes : List Change) :
    flying source k (net.sendAll (changes.map .Changed)) = flying source k net := by
  induction changes generalizing net with
  | nil => simp [Router.sendAll]
  | cons change changes ih =>
    have hcons : net.sendAll ((change :: changes).map .Changed) =
        Router.sendAll (net.sendAll [.Changed change]) (changes.map .Changed) := by
      simp [Router.sendAll]
    have hnone : brings source k (.Changed change) = 0 := by
      cases source with
      | _ => rfl
    rw [hcons, ih, flying_send, hnone]
    rfl

/-! ## What a step changes -/

/-- The review servers have no hooks. -/
structure Plain (p : Pipeline) : Prop where
  rs : p.rs.Plain
  rs2 : p.rs2.Plain

/-- What a step brings in is underway after it, and what it hands over is no longer underway. -/
def Balanced (source : Source) (k : Name × Serial) (p : Pipeline) (a : Action) (p' : Pipeline) :
    Prop :=
  p'.underway source k + p.handed source k a = p.underway source k + p.brought source k a

-- A step that is about nothing leaves all as it is.
theorem balanced_of_eq {a : Action} (hflying : flying source k p'.net = flying source k p.net)
    (hzones : p'.zoneUpdated = p.zoneUpdated) (hbrought : p.brought source k a = 0)
    (hhanded : p.handed source k a = 0) : Balanced source k p a p' := by
  simp only [Balanced, hbrought, hhanded, underway, hflying, hzones]

theorem flying_announces {center : Center} (h : Announces p.center center) :
    flying source k ⟨center.updateTx, p.appCmds, p.inbox⟩ = flying source k p.net := by
  obtain ⟨changes, hchanges⟩ := h
  rw [hchanges]
  exact @flying_changes source k p.net changes

theorem flying_http {a : Action} (h : p.step a = some p') (ha : a.task = .http) :
    flying source k p'.net = flying source k p.net := by
  cases a with
  | zoneAdd register =>
    simp only [step, zoneAdd] at h
    split at h
    · cases h
    · cases h
      exact flying_announces (announces_addZone p.center register.name)
  | zoneRemove name =>
    simp only [step, zoneRemove] at h
    split at h
    · cases h
    · split at h
      next hremove =>
        cases h
        exact flying_announces (announces_removeZone hremove)
      · cases h
        rfl
  | zoneAddNext i =>
    simp only [step, zoneAddNext] at h
    split at h
    · cases h
    · split at h
      · cases h
        rfl
      · split at h
        next hchange =>
          cases h
          exact flying_announces (announces_changePolicy hchange)
        · cases h
          rfl
    next register hi =>
      cases h
      have hpost := @flying_post source k p.net .ZL (.RegisterZone register)
      have hnone : about source k .ZL (.RegisterZone register) = 0 := by
        cases source with
        | _ => rfl
      rw [hnone] at hpost
      exact hpost
  | _ => cases ha

theorem balanced_http {a : Action} (h : p.step a = some p') (ha : a.task = .http) :
    Balanced source k p a p' := by
  have hquiet : p.brought source k a = 0 ∧ p.handed source k a = 0 := by
    cases a with
    | zoneAdd _ | zoneAddNext _ | zoneRemove _ =>
      cases source with
      | _ => exact ⟨rfl, rfl⟩
    | _ => cases ha
  have hzones : p'.zoneUpdated = p.zoneUpdated :=
    (step_frame h).zoneUpdated (by simp [ha]) (by simp [ha])
  exact balanced_of_eq (flying_http h ha) hzones hquiet.1 hquiet.2

theorem balanced_centralCommand {a : Action} (h : p.step a = some p')
    (ha : a.task = .centralCommand) : Balanced source k p a p' := by
  have hquiet : p.brought source k a = 0 ∧ p.handed source k a = 0 := by
    cases a with
    | review _ _ _ _ _ | resign _ | direct | forward =>
      cases source with
      | _ => exact ⟨rfl, rfl⟩
    | _ => cases ha
  have hzones : p'.zoneUpdated = p.zoneUpdated :=
    (step_frame h).zoneUpdated (by simp [ha]) (by simp [ha])
  refine balanced_of_eq ?_ hzones hquiet.1 hquiet.2
  cases a with
  | review server name serial token operation =>
    rw [← Option.some.inj h]
    have hnone : about source k (reviewUnit server)
        (.HandleZoneReviewApi name serial token operation) = 0 := by
      cases source with
      | UnsignedZones => simp [about, asks, hands, handsOver, ZoneServer.asksFor]
      | SignedZones => simp [about, asks, hands, handsOver, ZoneServer.asksFor]
    have hpost := @flying_post source k p.net (reviewUnit server)
      (.HandleZoneReviewApi name serial token operation)
    rw [hnone] at hpost
    exact hpost
  | resign name =>
    rw [← Option.some.inj h]
    have hnone : brings source k (.ResignZoneEvent name) = 0 := by
      cases source with
      | _ => rfl
    have hsend := @flying_send source k p.net (.ResignZoneEvent name)
    rw [hnone] at hsend
    exact hsend
  | direct =>
    cases hdirect : p.net.direct directUpdate with
    | none => simp [step, hdirect] at h
    | some net =>
      have hp' : p.withNet net = p' := by simpa [step, hdirect] using h
      rw [← hp']
      exact flying_direct hdirect
  | forward =>
    cases hforward : p.net.forward with
    | none => simp [step, hforward] at h
    | some net =>
      have hp' : p.withNet net = p' := by simpa [step, hforward] using h
      rw [← hp']
      exact flying_forward hforward
  | _ => cases ha

theorem count_singleton_toList (x : Name × Serial) :
    [x].count k = if x = k then 1 else 0 := by
  rw [List.count_singleton]
  simp only [beq_iff_eq]

-- The loader tells of a version what a transfer or a zone file announced.
theorem brings_updated (name : Name) (serial : Serial) :
    brings source k (.UnsignedZoneUpdatedEvent name serial) =
      match source with
      | .UnsignedZones => [(name, serial)].count k
      | .SignedZones => 0 := by
  cases source with
  | UnsignedZones =>
    rw [count_singleton_toList]
    simp [brings, directUpdate, about, asks, hands, handsOver, ZoneServer.asksFor, reviewUnit,
      nextUnit]
  | SignedZones =>
    simp [brings, directUpdate, about, reviewUnit, nextUnit]

theorem brings_signed (name : Name) (serial : Serial) :
    brings source k (.ZoneSignedEvent name serial) =
      match source with
      | .UnsignedZones => 0
      | .SignedZones => [(name, serial)].count k := by
  cases source with
  | UnsignedZones => simp [brings, directUpdate, about, reviewUnit, nextUnit]
  | SignedZones =>
    rw [count_singleton_toList]
    simp [brings, directUpdate, about, asks, hands, handsOver, ZoneServer.asksFor, reviewUnit,
      nextUnit]

theorem balanced_loaderUpdated (h : p.loaderUpdated = some p') :
    Balanced source k p .loaderUpdated p' := by
  unfold loaderUpdated at h
  split at h
  next name serial rest hidle hzone =>
    rw [← Option.some.inj h]
    have hsend := @flying_send source k p.net (.UnsignedZoneUpdatedEvent name serial)
    rw [brings_updated] at hsend
    cases source with
    | UnsignedZones =>
      have hcount : p.zoneUpdated.count k = [(name, serial)].count k + rest.count k := by
        rw [hzone, ← List.count_append]
        rfl
      show flying .UnsignedZones k (p.net.sendAll [.UnsignedZoneUpdatedEvent name serial]) +
        rest.count k + 0 = flying .UnsignedZones k p.net + p.zoneUpdated.count k + 0
      rw [hsend, hcount]
      simp only
      omega
    | SignedZones => exact congrArg (· + 0 + 0) hsend
  · cases h

theorem balanced_transferCommit {name : Name} {handle : Handle} {content : ZoneContent}
    (h : p.transferCommit name handle content = some p') :
    Balanced source k p (.transferCommit name handle content) p' := by
  unfold transferCommit at h
  split at h
  · rw [← Option.some.inj h]
    cases source with
    | UnsignedZones =>
      show flying .UnsignedZones k p.net +
        (p.zoneUpdated ++ (content.soa.map (fun soa ↦ (name, soa.serial))).toList).count k + 0 =
          flying .UnsignedZones k p.net + p.zoneUpdated.count k +
            ((content.soa.map (fun soa ↦ (name, soa.serial))).toList).count k
      rw [List.count_append]
      omega
    | SignedZones => rfl
  · cases h

theorem balanced_loaderReceive {loaded : Option ZoneContent} {isSecondary : Bool}
    (h : p.loaderReceive loaded isSecondary = some p') :
    Balanced source k p (.loaderReceive loaded isSecondary) p' := by
  unfold loaderReceive at h
  split at h
  next zone net hidle hreceive =>
    rw [← Option.some.inj h]
    obtain ⟨hnet, hzones⟩ := @zoneUpdated_register (p.withNet net) zone loaded isSecondary
    have hflying := @flying_receive source k _ _ _ _ hreceive
    have hnone : about source k .ZL (.RegisterZone zone) = 0 := by
      cases source with
      | _ => rfl
    rw [hnone] at hflying
    have hannounced : p.announced (.loaderReceive loaded isSecondary) =
        (fileVersion zone loaded).toList := by
      simp only [announced, hreceive]
    cases source with
    | UnsignedZones =>
      simp only [Balanced, underway, brought, handed, received, hnet, hzones, hannounced,
        List.count_append, List.count_nil]
      show flying _ k net + (p.zoneUpdated.count k + _) + 0 = flying _ k p.net + _ + _
      omega
    | SignedZones =>
      simp only [Balanced, underway, brought, handed, received, reported, hnet, List.count_nil]
      show flying _ k net + 0 + 0 = flying _ k p.net + 0 + 0
      omega
  next cmd net hother hidle hreceive =>
    rw [← Option.some.inj h]
    have hflying := @flying_receive source k _ _ _ _ hreceive
    have hnone : about source k .ZL cmd = 0 := by
      cases source with
      | _ => simp [about, reviewUnit, nextUnit]
    rw [hnone] at hflying
    have hannounced : p.announced (.loaderReceive loaded isSecondary) = [] := by
      simp only [announced, hreceive]
      split
      next zone _ heq =>
        cases heq
        exact absurd rfl (hother zone)
      · rfl
    refine balanced_of_eq hflying.symm rfl ?_ ?_
    · cases source with
      | UnsignedZones => simp [brought, hannounced]
      | SignedZones => rfl
    · cases source with
      | _ => rfl
  · cases h

/-! ## Reviewing, signing and publishing -/

-- An approval hands the version over.
theorem brings_approved (server : Source) (v : Name × Serial) :
    brings source k (server.approvedEvent v.1 v.2) =
      if server = source then [v].count k else 0 := by
  cases source with
  | UnsignedZones =>
    cases server with
    | UnsignedZones =>
      rw [count_singleton_toList]
      simp [brings, Source.approvedEvent, directUpdate, about, asks, hands, handsOver,
        ZoneServer.asksFor, reviewUnit, nextUnit]
    | SignedZones =>
      simp [brings, Source.approvedEvent, directUpdate, about, reviewUnit, nextUnit]
  | SignedZones =>
    cases server with
    | UnsignedZones =>
      simp [brings, Source.approvedEvent, directUpdate, about, reviewUnit, nextUnit]
    | SignedZones =>
      rw [count_singleton_toList]
      simp [brings, Source.approvedEvent, directUpdate, about, asks, hands, handsOver,
        ZoneServer.asksFor, reviewUnit, nextUnit]

-- For a review server, a command is about the version that it asks for.
theorem about_review (server : Source) (cmd : ApplicationCommand) :
    about source k (reviewUnit server) cmd =
      if server = source then (ZoneServer.asksFor cmd).toList.count k else 0 := by
  have hcount : (if asks k cmd = true then 1 else 0) =
      (ZoneServer.asksFor cmd).toList.count k := by
    unfold asks
    cases ZoneServer.asksFor cmd with
    | none => simp
    | some v =>
      rw [Option.toList_some, count_singleton_toList]
      simp
  cases source with
  | _ =>
    cases server with
    | _ => simp [about, reviewUnit, nextUnit, ← hcount]

-- A server without hooks answers at once, so as much is on its way as before.
theorem flying_review {server : Source} {zs : ZoneServer server} (hplain : zs.Plain)
    {rounds : Nat → Uuid × Bool} {cmd : ApplicationCommand}
    (hreceive : net.receive (reviewUnit server) = some (cmd, net')) :
    flying source k (net'.sendAll (zs.handleCommand rounds cmd).2) = flying source k net := by
  have hbefore := @flying_receive source k _ _ _ _ hreceive
  rw [about_review] at hbefore
  rw [hplain.handleCommand, hbefore]
  cases ZoneServer.asksFor cmd with
  | none => simp [Router.sendAll]
  | some v =>
    have hsend := @flying_send source k net' (server.approvedEvent v.1 v.2)
    rw [brings_approved] at hsend
    exact hsend

theorem balanced_review {a : Action} (hplain : p.Plain) (h : p.step a = some p')
    (ha : a.task = .rs ∨ a.task = .rs2) : Balanced source k p a p' := by
  have hquiet : p.brought source k a = 0 ∧ p.handed source k a = 0 := by
    cases a with
    | rsReceive _ | rs2Receive _ =>
      cases source with
      | _ => exact ⟨rfl, rfl⟩
    | _ => cases ha with | inl ha | inr ha => cases ha
  have hzones : p'.zoneUpdated = p.zoneUpdated := by
    apply (step_frame h).zoneUpdated
    · intro hloader
      simp [hloader] at ha
    · intro htransfer
      simp [htransfer] at ha
  refine balanced_of_eq ?_ hzones hquiet.1 hquiet.2
  cases a with
  | rsReceive rounds =>
    obtain ⟨cmd, net, hreceive, hp'⟩ := rsReceive_spec h
    rw [hp']
    exact @flying_review source k _ _ .UnsignedZones _ hplain.rs rounds cmd hreceive
  | rs2Receive rounds =>
    obtain ⟨cmd, net, hreceive, hp'⟩ := rs2Receive_spec h
    rw [hp']
    exact @flying_review source k _ _ .SignedZones _ hplain.rs2 rounds cmd hreceive
  | _ => cases ha with | inl ha | inr ha => cases ha

-- For the signer and the publication server, a command is about the version that it hands over.
theorem about_next (next : Source) (cmd : ApplicationCommand) :
    about source k (nextUnit next) cmd =
      if next = source then (handsOver source cmd).toList.count k else 0 := by
  have hcount : (if hands source k cmd = true then 1 else 0) =
      (handsOver source cmd).toList.count k := by
    unfold hands
    cases handsOver source cmd with
    | none => simp
    | some v =>
      rw [Option.toList_some, count_singleton_toList]
      simp
  cases source with
  | _ =>
    cases next with
    | _ => simp [about, reviewUnit, nextUnit, ← hcount]

-- What the signer takes from its inbox is handed over by that.
theorem balanced_signerReceive {cmd : ApplicationCommand}
    (hreceive : p.net.receive .ZS = some (cmd, net)) (hnet : p'.net = net)
    (hzones : p'.zoneUpdated = p.zoneUpdated) : Balanced source k p .signerReceive p' := by
  have hflying := @flying_receive source k _ _ _ _ hreceive
  have hhanded : p.handed source k .signerReceive = about source k .ZS cmd := by
    have habout := @about_next source k .UnsignedZones cmd
    rw [show UnitName.ZS = nextUnit .UnsignedZones from rfl, habout]
    cases source with
    | UnsignedZones =>
      simp [handed, received, hreceive]
    | SignedZones => rfl
  have hbrought : p.brought source k .signerReceive = 0 := by
    cases source with
    | _ => rfl
  simp only [Balanced, underway, hnet, hzones, hhanded, hbrought]
  omega

theorem balanced_publisherReceive {cmd : ApplicationCommand}
    (hreceive : p.net.receive .PS = some (cmd, net)) (hnet : p'.net = net)
    (hzones : p'.zoneUpdated = p.zoneUpdated) : Balanced source k p .publisherReceive p' := by
  have hflying := @flying_receive source k _ _ _ _ hreceive
  have hhanded : p.handed source k .publisherReceive = about source k .PS cmd := by
    have habout := @about_next source k .SignedZones cmd
    rw [show UnitName.PS = nextUnit .SignedZones from rfl, habout]
    cases source with
    | UnsignedZones => rfl
    | SignedZones =>
      simp [handed, received, hreceive]
  have hbrought : p.brought source k .publisherReceive = 0 := by
    cases source with
    | _ => rfl
  simp only [Balanced, underway, hnet, hzones, hhanded, hbrought]
  omega

-- The signer reports what it has committed, and nothing else.
theorem brought_signerNext (records : List StoredRecord)
    (h : ∀ name serial, p.signer ≠ .committed name serial) :
    p.brought source k (.signerNext records) = 0 := by
  cases source with
  | UnsignedZones => rfl
  | SignedZones =>
    cases hsigner : p.signer with
    | committed name serial => exact absurd hsigner (h name serial)
    | _ => simp [brought, reported, hsigner]

theorem balanced_report {records : List StoredRecord} {name : Name} {serial : Serial}
    (hsigner : p.signer = .committed name serial) :
    Balanced source k p (.signerNext records)
      (({ p with signer := .idle } : Pipeline).send [.ZoneSignedEvent name serial]) := by
  have hsend := @flying_send source k p.net (.ZoneSignedEvent name serial)
  rw [brings_signed] at hsend
  have hhanded : p.handed source k (.signerNext records) = 0 := by
    cases source with
    | _ => rfl
  have hreported : p.reported (.signerNext records) = [(name, serial)] := by
    simp only [reported, hsigner]
  rw [Balanced, hhanded]
  cases source with
  | UnsignedZones =>
    exact congrArg (· + p.zoneUpdated.count k) hsend
  | SignedZones =>
    show flying .SignedZones k (p.net.sendAll [.ZoneSignedEvent name serial]) + 0 + 0 =
      flying .SignedZones k p.net + 0 + (p.reported (.signerNext records)).count k
    rw [hsend, hreported]
    simp only
    omega

theorem balanced_signer {a : Action} (h : p.step a = some p') (ha : a.task = .signer) :
    Balanced source k p a p' := by
  have hhanded : ∀ records, p.handed source k (.signerNext records) = 0 := by
    intro records
    cases source with
    | _ => rfl
  cases signerTurn_of_step h ha with
  | receive hidle hreceive hlookup => exact balanced_signerReceive hreceive rfl rfl
  | skip hidle hreceive => exact balanced_signerReceive hreceive rfl rfl
  | report hsigner => exact balanced_report hsigner
  | fail hsigner =>
    apply balanced_of_eq rfl rfl
    · cases source with
      | _ => rfl
    · cases source with
      | _ => rfl
  | read hsigner _ | choose hsigner _ | create hsigner _ | panic hsigner _ | collect hsigner _ =>
    exact balanced_of_eq rfl rfl (brought_signerNext _ (by simp [hsigner])) (hhanded _)
  | noSoa hsigner | store hsigner | configure hsigner | commit hsigner =>
    exact balanced_of_eq rfl rfl (brought_signerNext _ (by simp [hsigner])) (hhanded _)

theorem balanced_publisher {a : Action} (h : p.step a = some p') (ha : a.task = .publisher) :
    Balanced source k p a p' := by
  cases publisherTurn_of_step h ha with
  | take hidle hreceive hlookup => exact balanced_publisherReceive hreceive rfl rfl
  | skip hidle hreceive => exact balanced_publisherReceive hreceive rfl rfl
  | add _ | remove _ =>
    apply balanced_of_eq rfl rfl
    · cases source with
      | _ => rfl
    · cases source with
      | _ => rfl

-- The other steps of the loader, the maintainer and the transfers change nothing of this.
theorem balanced_quiet {a : Action} (h : p.step a = some p') (hlocal : isLocal a = true)
    (hzones : p'.zoneUpdated = p.zoneUpdated)
    (hcommit : ∀ name handle content, a ≠ .transferCommit name handle content) :
    Balanced source k p a p' := by
  have hflying : flying source k p'.net = flying source k p.net := by rw [net_of_isLocal h hlocal]
  cases a with
  | transferCommit name handle content => exact absurd rfl (hcommit name handle content)
  | loaderInsert | loaderStore | promote _ | promoteStore | transferWrite _ _ _ | signerFail
  | publisherNext =>
    apply balanced_of_eq hflying hzones
    · cases source with
      | _ => rfl
    · cases source with
      | _ => rfl
  | _ => cases hlocal

theorem balanced_of_step {a : Action} (hplain : p.Plain) (h : p.step a = some p') :
    Balanced source k p a p' := by
  cases a with
  | zoneAdd _ | zoneAddNext _ | zoneRemove _ => exact balanced_http h rfl
  | review _ _ _ _ _ | resign _ | direct | forward => exact balanced_centralCommand h rfl
  | loaderReceive loaded isSecondary => exact balanced_loaderReceive h
  | loaderUpdated => exact balanced_loaderUpdated h
  | loaderInsert | loaderStore | transferWrite _ _ _ =>
    refine balanced_quiet h rfl ?_ (by simp)
    simp only [step, loaderInsert, loaderStore, transferWrite] at h
    repeat' split at h
    all_goals cases h
    all_goals rfl
  | promote _ | promoteStore =>
    exact balanced_quiet h rfl ((step_frame h).zoneUpdated (by simp [Action.task])
      (by simp [Action.task])) (by simp)
  | transferCommit name handle content => exact balanced_transferCommit h
  | rsReceive _ => exact balanced_review hplain h (Or.inl rfl)
  | rs2Receive _ => exact balanced_review hplain h (Or.inr rfl)
  | signerReceive | signerNext _ | signerFail => exact balanced_signer h rfl
  | publisherReceive | publisherNext => exact balanced_publisher h rfl

/-! ## Whole runs -/

theorem Plain.step {a : Action} (hplain : p.Plain) (h : p.step a = some p') : p'.Plain := by
  have hframe := step_frame h
  cases a with
  | rsReceive rounds =>
    obtain ⟨cmd, net, hreceive, hp'⟩ := rsReceive_spec h
    have hsame : (p.rs.handleCommand rounds cmd).1.Plain := by
      rw [hplain.rs.handleCommand]
      exact hplain.rs
    refine ⟨?_, (hframe.rs2 (by simp [Action.task])) ▸ hplain.rs2⟩
    rw [hp']
    exact hsame
  | rs2Receive rounds =>
    obtain ⟨cmd, net, hreceive, hp'⟩ := rs2Receive_spec h
    have hsame : (p.rs2.handleCommand rounds cmd).1.Plain := by
      rw [hplain.rs2.handleCommand]
      exact hplain.rs2
    refine ⟨(hframe.rs (by simp [Action.task])) ▸ hplain.rs, ?_⟩
    rw [hp']
    exact hsame
  | _ =>
    exact ⟨(hframe.rs (by simp [Action.task])) ▸ hplain.rs,
      (hframe.rs2 (by simp [Action.task])) ▸ hplain.rs2⟩

theorem plain_new (center : Center) : (Pipeline.new center [] []).Plain :=
  ⟨⟨rfl, rfl, rfl⟩, ⟨rfl, rfl, rfl⟩⟩

theorem underway_new {center : Center} (h : center.updateTx = []) :
    (Pipeline.new center [] []).underway source k = 0 := by
  have hnet : (Pipeline.new center [] []).net = ⟨[], [], fun _ ↦ []⟩ := by
    rw [← h]
    rfl
  cases source with
  | _ =>
    rw [underway, hnet]
    rfl

-- At rest nothing is underway, unless the signer has panicked and reads its inbox no more.
theorem AtRest.underway (h : p.AtRest) (hsigner : source = .UnsignedZones → p.signer ≠ .panicked) :
    p.underway source k = 0 := by
  have hinbox : p.inbox (reviewUnit source) = [] ∧ p.inbox (nextUnit source) = [] := by
    cases source with
    | UnsignedZones =>
      refine ⟨h.reviews.1, ?_⟩
      cases h.signer with
      | inl hidle => exact hidle.2
      | inr hpanicked => exact absurd hpanicked (hsigner rfl)
    | SignedZones => exact ⟨h.reviews.2, h.publisher.2⟩
  have hflying : flying source k p.net = 0 := by
    simp [flying, Router.flights, Router.inFlight, net, h.updates, h.commands, hinbox]
  cases source with
  | UnsignedZones =>
    show flying .UnsignedZones k p.net + p.zoneUpdated.count k = 0
    rw [hflying, h.zoneUpdated]
    rfl
  | SignedZones => exact hflying

/-- Without hooks, every version that the loader announces is handed to the signer, and every
version that the signer reports to the publication server, as often as that: in any run the
versions that have not been handed over yet are still underway, and none are once the units are at
rest.  Only a signer that has panicked is handed nothing any more. -/
theorem versions_handed_over {center : Center} (hcenter : center.updateTx = []) {as : List Action}
    (hrun : exec step (Pipeline.new center [] []) as = some p) (source : Source)
    (k : Name × Serial) :
    tally step (handed source k) (Pipeline.new center [] []) as + p.underway source k =
        tally step (brought source k) (Pipeline.new center [] []) as ∧
      (p.AtRest → (source = .UnsignedZones → p.signer ≠ .panicked) →
        tally step (handed source k) (Pipeline.new center [] []) as =
          tally step (brought source k) (Pipeline.new center [] []) as) := by
  have hstep : ∀ (p : Pipeline) a p', p.Plain → p.step a = some p' →
      p'.Plain ∧ Balanced source k p a p' :=
    fun _ _ _ hplain h ↦ ⟨hplain.step h, balanced_of_step hplain h⟩
  have hbalance := tally_balance hstep (plain_new center) hrun
  have hnew := @underway_new source k center hcenter
  refine ⟨by omega, ?_⟩
  intro hrest hsigner
  have hend := hrest.underway (k := k) hsigner
  omega

namespace OneZone

/-- From the transfer of a version until the signer has taken it, once. -/
theorem first_version_handed_over :
    ∃ p, exec step daemon (registration ++ firstTransfer ++ reviewUnsigned ++ [.signerReceive]) =
        some p ∧
      tally step (handed .UnsignedZones (zone, ⟨1⟩)) daemon
        (registration ++ firstTransfer ++ reviewUnsigned ++ [.signerReceive]) = 1 := by
  have hruns : ((exec step daemon
      (registration ++ firstTransfer ++ reviewUnsigned ++ [.signerReceive])).map
        (underway .UnsignedZones (zone, ⟨1⟩))) = some 0 := by
    decide +kernel
  obtain ⟨p, hp, hunderway⟩ := Option.map_eq_some_iff.mp hruns
  have hbrought : tally step (brought .UnsignedZones (zone, ⟨1⟩)) daemon
      (registration ++ firstTransfer ++ reviewUnsigned ++ [.signerReceive]) = 1 := by
    decide +kernel
  have hbalance := (versions_handed_over rfl hp .UnsignedZones (zone, ⟨1⟩)).1
  rw [hunderway] at hbalance
  exact ⟨p, hp, hbalance.trans hbrought⟩

end OneZone

end Pipeline

end Cascade

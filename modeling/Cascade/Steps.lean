import Cascade.Link
import Cascade.Pipeline

/-!
# What a step of the pipeline does

`step_inFlight` says where the commands in flight come from: the operations on the registry send
changes only, which no unit acts on, and every other command is sent for something that an earlier
stage holds.  `step_frame` says which parts of the state the step of one task leaves as they are.
-/

namespace Cascade

open Lib

/-! ## The registry -/

/-- What an operation on the registry sends. -/
def Announces (c c' : Center) : Prop :=
  ∃ changes : List Change, c'.updateTx = c.updateTx ++ changes.map Update.Changed

namespace Announces

theorem refl {c c' : Center} (h : c'.updateTx = c.updateTx) : Announces c c' :=
  ⟨[], by simp [h]⟩

theorem send {c c' : Center} (change : Change)
    (h : c'.updateTx = c.updateTx ++ [.Changed change]) : Announces c c' :=
  ⟨[change], h⟩

end Announces

namespace Center

@[simp] theorem markDirty_updateTx (c : Center) : c.markDirty.updateTx = c.updateTx := by
  unfold markDirty
  split <;> rfl

@[simp] theorem markZoneDirty_updateTx (c : Center) (n : Name) (z : ZoneState) :
    (c.markZoneDirty n z).updateTx = c.updateTx := by
  unfold markZoneDirty
  split <;> rfl

end Center

theorem announces_addZone (c : Center) (n : Name) : Announces c (addZone c n).2 := by
  unfold addZone
  split
  · exact .refl rfl
  · exact .send (.ZoneAdded n) (by simp [Center.send, Center.setZone])

theorem announces_removeZone {c c' : Center} {n : Name} {r : Except ZoneRemoveError Unit}
    (h : removeZone c n = .ok (r, c')) : Announces c c' := by
  unfold removeZone at h
  have hsend : (c.send (.Changed (.ZoneRemoved n))).updateTx =
      c.updateTx ++ [.Changed (.ZoneRemoved n)] := rfl
  simp only at h
  split at h
  · cases h
    exact .send _ hsend
  · split at h
    · cases h
      exact .send _ hsend
    · obtain ⟨policy, -, h⟩ := except_bind_ok h
      obtain ⟨-, -, h⟩ := except_bind_ok h
      cases h
      exact .send _ ((Center.markDirty_updateTx _).trans hsend)

theorem unlinkPolicy_updateTx {c c' : Center} {n : Name} {z : ZoneState}
    (h : unlinkPolicy c n z = .ok c') : c'.updateTx = c.updateTx := by
  unfold unlinkPolicy at h
  split at h
  · cases h
    rfl
  · obtain ⟨policy, -, h⟩ := except_bind_ok h
    obtain ⟨-, -, h⟩ := except_bind_ok h
    cases h
    rfl

theorem announces_linkPolicy (c : Center) (n : Name) (z : ZoneState) (k : String) :
    Announces c (linkPolicy c n z k).2 := by
  unfold linkPolicy
  split
  · exact .refl rfl
  · split
    · exact .refl rfl
    · exact .send _ (Center.markZoneDirty_updateTx _ _ _)

theorem announces_changePolicy {c c' : Center} {n : Name} {k : String}
    {r : Except ChangePolicyError Unit} (h : changePolicy c n k = .ok (r, c')) :
    Announces c c' := by
  unfold changePolicy at h
  split at h
  · cases h
    exact .refl rfl
  · cases h
    exact .refl rfl
  next zoneState policy _ _ =>
    split at h
    · cases h
      exact .refl rfl
    · obtain ⟨c1, hunlink, h⟩ := except_bind_ok h
      have hlink := announces_linkPolicy (c1.setZone n { zoneState with policy := none }) n
        { zoneState with policy := none } k
      have heq : linkPolicy (c1.setZone n { zoneState with policy := none }) n
          { zoneState with policy := none } k = (r, c') := Except.ok.inj h
      rw [heq] at hlink
      obtain ⟨changes, hchanges⟩ := hlink
      have hsame : c1.updateTx = c.updateTx := unlinkPolicy_updateTx hunlink
      exact ⟨changes, hchanges.trans (congrArg (· ++ changes.map Update.Changed) hsame)⟩

namespace ZoneSigner

/-- The job of a signer that has not collected the records yet. -/
def reading : ZoneSigner → Option SignJob
  | .found job => some job
  | .started job _ => some job
  | .creating job _ _ _ => some job
  | .targeted job _ _ => some job
  | .configured job _ _ _ => some job
  | _ => none

/-- The SOA record that such a signer has read. -/
def soaRead : ZoneSigner → Option (SignRead Soa)
  | .started _ soa => some soa
  | .creating _ soa _ _ => some soa
  | .targeted _ soa _ => some soa
  | .configured _ soa _ _ => some soa
  | _ => none

end ZoneSigner

/-! ## The queues -/

namespace Pipeline

/-- The commands that a unit has not received yet. -/
def inFlight (p : Pipeline) (u : UnitName) : List ApplicationCommand := p.net.inFlight u

theorem Started.inFlight {p : Pipeline} (h : p.Started) (u : UnitName) : p.inFlight u = [] := by
  obtain ⟨center, rsHooks, rs2Hooks, hupdates, rfl⟩ := h
  simp [Pipeline.inFlight, net, Net.inFlight, Router.inFlight, Pipeline.new, hupdates]

theorem mem_inFlight_send {p : Pipeline} {updates : List Update} {u : UnitName}
    {c : ApplicationCommand} :
    c ∈ (p.send updates).inFlight u ↔
      c ∈ p.inFlight u ∨ (u, c) ∈ updates.flatMap directUpdate := by
  show c ∈ Router.inFlight directUpdate (p.net.sendAll updates) u ↔ _
  rw [Router.inFlight_sendAll, List.mem_append, Router.mem_addressed]
  rfl

theorem mem_inFlight_post {p : Pipeline} {u v : UnitName} {c d : ApplicationCommand} :
    d ∈ (p.withNet (p.net.post v c)).inFlight u ↔ d ∈ p.inFlight u ∨ u = v ∧ d = c :=
  @Router.mem_inFlight_post _ _ _ _ directUpdate p.net u v c d

theorem inFlight_direct {p : Pipeline} {net : Net} (h : p.net.direct directUpdate = some net)
    (u : UnitName) : (p.withNet net).inFlight u = p.inFlight u :=
  Router.inFlight_direct h u

theorem inFlight_forward {p : Pipeline} {net : Net} (h : p.net.forward = some net)
    (u : UnitName) : (p.withNet net).inFlight u = p.inFlight u :=
  Router.inFlight_forward h u

-- Receiving a command takes it out of the queue.
theorem inFlight_receive {p : Pipeline} {net : Net} {u : UnitName} {c : ApplicationCommand}
    (h : p.net.receive u = some (c, net)) :
    c ∈ p.inFlight u ∧ ∀ v d, d ∈ (p.withNet net).inFlight v → d ∈ p.inFlight v := by
  have hflight : ∀ v, p.inFlight v =
      if v = u then c :: (p.withNet net).inFlight v else (p.withNet net).inFlight v :=
    fun v ↦ Router.inFlight_receive h v
  constructor
  · rw [hflight u, if_pos rfl]
    exact List.mem_cons_self
  · intro v d hd
    rw [hflight v]
    split
    · exact List.mem_cons_of_mem c hd
    · exact hd

-- Only the units that act on notices are told anything by an operation on the registry.
theorem mem_inFlight_center {p : Pipeline} {center : Center} {u : UnitName}
    {c : ApplicationCommand} (h : Announces p.center center) (hc : ∀ change, c ≠ .Changed change) :
    c ∈ ({ p with center := center } : Pipeline).inFlight u ↔ c ∈ p.inFlight u := by
  obtain ⟨changes, hchanges⟩ := h
  have hnet : ({ p with center := center } : Pipeline).net =
      p.net.sendAll (changes.map .Changed) := by
    simp [net, Router.sendAll, hchanges]
  show c ∈ Net.inFlight _ u ↔ _
  rw [hnet]
  exact Net.mem_inFlight_sendAll_changed hc

/-! ## Who sends what -/

/-- A version that a review server is asked an approval for, or already waits for one. -/
def Reviews {source : Source} (p : Pipeline) (u : UnitName) (zs : ZoneServer source)
    (k : Name × Serial) : Prop :=
  (∃ cmd ∈ p.inFlight u, ZoneServer.asksFor cmd = some k) ∨ k ∈ zs.pendingApprovals

/-- Some version of the zone is reviewed. -/
def reviewsZone {source : Source} (p : Pipeline) (u : UnitName) (zs : ZoneServer source)
    (n : Name) : Bool :=
  (p.inFlight u).any (fun cmd ↦ (ZoneServer.asksFor cmd).any (fun k ↦ decide (k.1 = n))) ||
    zs.pendingApprovals.keys.any (fun k ↦ decide (k.1 = n))

theorem reviewsZone_of_reviews {source : Source} {p : Pipeline} {u : UnitName}
    {zs : ZoneServer source} {n : Name} {s : Serial} (h : p.Reviews u zs (n, s)) :
    p.reviewsZone u zs n = true := by
  unfold reviewsZone
  rw [Bool.or_eq_true]
  rcases h with ⟨cmd, hmem, hasks⟩ | h
  · exact Or.inl (List.any_eq_true.mpr ⟨cmd, hmem, by simp [hasks]⟩)
  · exact Or.inr (List.any_eq_true.mpr ⟨_, h, by simp⟩)

/-- The commands that a step in the state `p` may put into the queues, apart from notices. -/
inductive Emits (p : Pipeline) : Action → UnitName → ApplicationCommand → Prop
  | register {i : Nat} {zone : ZoneAdd} : p.requests[i]? = some ⟨zone, true⟩ →
      Emits p (.zoneAddNext i) .ZL (.RegisterZone zone)
  | review {server : Source} {u : UnitName} {n : Name} {s : Serial} {token : Option Uuid}
      {operation : ReviewOperation} : u = reviewUnit server →
        Emits p (.review server n s token operation) u (.HandleZoneReviewApi n s token operation)
  | resign (n : Name) : Emits p (.resign n) .ZS (.SignZone n none)
  | updated {n : Name} {s : Serial} : (n, s) ∈ p.zoneUpdated →
      Emits p .loaderUpdated .RS (.SeekApprovalForUnsignedZone n s)
  | approvedUnsigned {rounds : Nat → Uuid × Bool} {n : Name} {s : Serial} :
      p.Reviews .RS p.rs (n, s) → Emits p (.rsReceive rounds) .ZS (.SignZone n (some s))
  | approvedSigned {rounds : Nat → Uuid × Bool} {n : Name} {s : Serial} :
      p.Reviews .RS2 p.rs2 (n, s) → Emits p (.rs2Receive rounds) .PS (.PublishSignedZone n s)
  | signed {records : List StoredRecord} {n : Name} {s : Serial} : p.signer = .committed n s →
      Emits p (.signerNext records) .RS2 (.SeekApprovalForSignedZone n s)

/-! ## What the signer and the publication server do -/

/-- The steps of the signer. -/
inductive SignerTurn (p : Pipeline) : Action → Pipeline → Prop
  | receive {job : SignJob} {net : Net} : p.signer = .idle →
      p.net.receive .ZS = some (.SignZone job.zoneName job.zoneSerial, net) →
      (p.zonesToSign job.zoneSerial).lookup job.zoneName = some job.handle →
      SignerTurn p .signerReceive { p.withNet net with signer := .found job }
  | skip {cmd : ApplicationCommand} {net : Net} : p.signer = .idle →
      p.net.receive .ZS = some (cmd, net) → SignerTurn p .signerReceive (p.withNet net)
  | read {records : List StoredRecord} {job : SignJob} {soa : Soa}
      {content : List StoredRecord} {version : Option Nat} : p.signer = .found job →
      p.readZone job = some (⟨some soa, content⟩, version) →
      SignerTurn p (.signerNext records) { p with signer := .started job ⟨soa, version⟩ }
  | noSoa {records : List StoredRecord} {job : SignJob} : p.signer = .found job →
      SignerTurn p (.signerNext records) { p with signer := .idle }
  | choose {records : List StoredRecord} {job : SignJob} {soa : SignRead Soa} {handle : Handle} :
      p.signer = .started job soa → p.signedZones.lookup job.zoneName = some handle →
      SignerTurn p (.signerNext records) { p with signer := .targeted job soa handle }
  | create {records : List StoredRecord} {job : SignJob} {soa : SignRead Soa} :
      p.signer = .started job soa → p.signedZones.lookup job.zoneName = none →
      SignerTurn p (.signerNext records) { p with
        signedHeap := p.signedHeap.alloc job.zoneName ⟨none, []⟩
        signer := .creating job soa p.signedZones (p.signedHeap.next job.zoneName) }
  | store {records : List StoredRecord} {job : SignJob} {soa : SignRead Soa} {zones : ZoneTree}
      {handle : Handle} : p.signer = .creating job soa zones handle →
      SignerTurn p (.signerNext records) { p with
        signedZones := zones.insert job.zoneName handle
        signer := .targeted job soa handle }
  | panic {records : List StoredRecord} {job : SignJob} {soa : SignRead Soa} {handle : Handle}
      {poisoned : Bool} : p.signer = .targeted job soa handle →
      (p.poisoned = true ∨
        ((p.center.state.zones.lookup job.zoneName).bind ZoneState.policy) = none) →
      SignerTurn p (.signerNext records) { p with poisoned := poisoned, signer := .panicked }
  | configure {records : List StoredRecord} {job : SignJob} {soa : SignRead Soa} {handle : Handle}
      {policy : PolicyVersion} : p.signer = .targeted job soa handle →
      SignerTurn p (.signerNext records) { p with signer := .configured job soa handle policy }
  | collect {records : List StoredRecord} {job : SignJob} {soa : SignRead Soa} {handle : Handle}
      {policy : PolicyVersion} {content : ZoneContent} {version : Option Nat} :
      p.signer = .configured job soa handle policy → p.readZone job = some (content, version) →
      SignerTurn p (.signerNext records) { p with
        signer := .collected job soa handle policy ⟨collectZone content, version⟩ }
  | commit {records : List StoredRecord} {job : SignJob} {soa : SignRead Soa} {handle : Handle}
      {policy : PolicyVersion} {collected : SignRead (List StoredRecord)} :
      p.signer = .collected job soa handle policy collected →
      SignerTurn p (.signerNext records) { p with
        signedHeap := p.signedHeap.set job.zoneName handle ⟨some soa.value, records⟩
        signer := .committed job.zoneName soa.value.serial }
  | report {records : List StoredRecord} {name : Name} {serial : Serial} :
      p.signer = .committed name serial →
      SignerTurn p (.signerNext records)
        (({ p with signer := .idle } : Pipeline).send [.ZoneSignedEvent name serial])
  | fail {job : SignJob} {soa : SignRead Soa} {handle : Handle} {policy : PolicyVersion}
      {collected : SignRead (List StoredRecord)} :
      p.signer = .collected job soa handle policy collected →
      SignerTurn p .signerFail { p with signer := .idle }

/-- The steps of the publication server. -/
inductive PublisherTurn (p : Pipeline) : Action → Pipeline → Prop
  | take {name : Name} {serial : Serial} {net : Net} {handle : Handle} : p.publisher = .idle →
      p.net.receive .PS = some (.PublishSignedZone name serial, net) →
      p.signedZones.lookup name = some handle →
      PublisherTurn p .publisherReceive { p.withNet net with
        publisher := .adding name handle p.signedZones p.publishedZones }
  | skip {cmd : ApplicationCommand} {net : Net} : p.publisher = .idle →
      p.net.receive .PS = some (cmd, net) → PublisherTurn p .publisherReceive (p.withNet net)
  | add {name : Name} {handle : Handle} {signedZones publishedZones : ZoneTree} :
      p.publisher = .adding name handle signedZones publishedZones →
      PublisherTurn p .publisherNext { p with
        publishedZones := (publishedZones.erase name).insert name handle
        publisher := .removing name signedZones }
  | remove {name : Name} {signedZones : ZoneTree} : p.publisher = .removing name signedZones →
      PublisherTurn p .publisherNext { p with
        signedZones := signedZones.erase name
        publisher := .idle }

theorem signerNext_cases {p p' : Pipeline} {records : List StoredRecord}
    (h : p.signerNext records = some p') : SignerTurn p (.signerNext records) p' := by
  cases hsigner : p.signer with
  | found job =>
    simp only [signerNext, hsigner] at h
    split at h
    next hread =>
      cases h
      exact .read hsigner hread
    · cases h
      exact .noSoa hsigner
  | started job soa =>
    simp only [signerNext, hsigner] at h
    split at h
    next hlookup =>
      cases h
      exact .choose hsigner hlookup
    next hlookup =>
      cases h
      exact .create hsigner hlookup
  | creating job soa zones handle =>
    simp only [signerNext, hsigner] at h
    cases h
    exact .store hsigner
  | targeted job soa handle =>
    simp only [signerNext, hsigner] at h
    split at h
    next hpoisoned =>
      cases h
      exact .panic hsigner (Or.inl hpoisoned)
    · split at h
      next hlookup =>
        cases h
        exact .panic hsigner (Or.inr (by rw [hlookup]; rfl))
      next hlookup =>
        cases h
        exact .panic hsigner (Or.inr (by rw [hlookup]; rfl))
      · cases h
        exact .configure hsigner
  | configured job soa handle policy =>
    simp only [signerNext, hsigner] at h
    split at h
    next hread =>
      cases h
      exact .collect hsigner hread
    · cases h
  | collected job soa handle policy collected =>
    simp only [signerNext, hsigner] at h
    cases h
    exact .commit hsigner
  | committed name serial =>
    simp only [signerNext, hsigner] at h
    cases h
    exact .report hsigner
  | idle | panicked =>
    simp only [signerNext, hsigner] at h
    cases h

/-! ## Steps and queues -/

theorem mem_inFlight_send_one {p : Pipeline} {update : Update} {u : UnitName}
    {c : ApplicationCommand} :
    c ∈ (p.send [update]).inFlight u ↔ c ∈ p.inFlight u ∨ (u, c) ∈ directUpdate update := by
  rw [mem_inFlight_send, List.flatMap_singleton]

theorem rsReceive_spec {p p' : Pipeline} {rounds : Nat → Uuid × Bool}
    (h : p.rsReceive rounds = some p') :
    ∃ cmd net, p.net.receive .RS = some (cmd, net) ∧
      p' = { p.withNet net with rs := (p.rs.handleCommand rounds cmd).1 }.send
        (p.rs.handleCommand rounds cmd).2 := by
  unfold rsReceive at h
  split at h
  next cmd net hreceive => exact ⟨cmd, net, hreceive, (Option.some.inj h).symm⟩
  · cases h

theorem rs2Receive_spec {p p' : Pipeline} {rounds : Nat → Uuid × Bool}
    (h : p.rs2Receive rounds = some p') :
    ∃ cmd net, p.net.receive .RS2 = some (cmd, net) ∧
      p' = { p.withNet net with
        rs2 := (p.rs2.handleCommand rounds cmd).1
        approvals :=
          p.approvals ++ (p.rs2.handleCommand rounds cmd).2.filterMap p.approvalOf }.send
        (p.rs2.handleCommand rounds cmd).2 := by
  unfold rs2Receive at h
  split at h
  next cmd net hreceive => exact ⟨cmd, net, hreceive, (Option.some.inj h).symm⟩
  · cases h

-- A review server sends nothing, or the approval of a version that it reviews.
theorem sent_of_review {source : Source} {p : Pipeline} (zs : ZoneServer source) {u : UnitName}
    {cmd : ApplicationCommand} (hcmd : cmd ∈ p.inFlight u) (rounds : Nat → Uuid × Bool) :
    (zs.handleCommand rounds cmd).2 = [] ∨
      ∃ n s, (zs.handleCommand rounds cmd).2 = [source.approvedEvent n s] ∧
        p.Reviews u zs (n, s) := by
  rcases (zs.handleCommand_spec rounds cmd).2 with hsent | ⟨⟨n, s⟩, hsent, hpending | hasks⟩
  · exact Or.inl hsent
  · exact Or.inr ⟨n, s, hsent, Or.inr hpending⟩
  · exact Or.inr ⟨n, s, hsent, Or.inl ⟨cmd, hcmd, hasks⟩⟩

/-- The steps that touch no queue. -/
def isLocal : Action → Bool
  | .loaderInsert | .loaderStore | .promote _ | .promoteStore | .transferWrite _ _ _
  | .transferCommit _ _ _ | .signerFail | .publisherNext => true
  | _ => false

theorem net_of_isLocal {p p' : Pipeline} {a : Action} (h : p.step a = some p')
    (ha : isLocal a = true) : p'.net = p.net := by
  cases a with
  | loaderInsert | loaderStore | promote | promoteStore | transferWrite | transferCommit
  | signerFail | publisherNext =>
    simp only [step, loaderInsert, loaderStore, promote, promoteStore, transferWrite,
      transferCommit, signerFail, publisherNext] at h
    repeat' split at h
    all_goals cases h
    all_goals rfl
  | _ => cases ha

theorem inFlight_congr {p p' : Pipeline} (h : p'.net = p.net) (u : UnitName) :
    p'.inFlight u = p.inFlight u :=
  congrArg (fun net ↦ Net.inFlight net u) h

section

variable {p p' : Pipeline} {u : UnitName} {c : ApplicationCommand}

-- The handlers of the HTTP server.
theorem http_inFlight {a : Action} (h : p.step a = some p') (hc : ∀ change, c ≠ .Changed change)
    (hmem : c ∈ p'.inFlight u)
    (ha : (∃ zone, a = .zoneAdd zone) ∨ (∃ i, a = .zoneAddNext i) ∨ ∃ n, a = .zoneRemove n) :
    c ∈ p.inFlight u ∨ p.Emits a u c := by
  rcases ha with ⟨zone, rfl⟩ | ⟨i, rfl⟩ | ⟨n, rfl⟩
  · simp only [step, zoneAdd] at h
    split at h
    · cases h
    · cases h
      exact Or.inl ((mem_inFlight_center (announces_addZone _ _) hc).mp hmem)
  · simp only [step, zoneAddNext] at h
    split at h
    · cases h
    · split at h
      · cases h
        exact Or.inl hmem
      · split at h
        next hchange =>
          cases h
          exact Or.inl ((mem_inFlight_center (announces_changePolicy hchange) hc).mp hmem)
        · cases h
          exact Or.inl hmem
    next hi =>
      cases h
      rcases mem_inFlight_post.mp hmem with hmem | ⟨rfl, rfl⟩
      · exact Or.inl hmem
      · exact Or.inr (.register hi)
  · simp only [step, zoneRemove] at h
    split at h
    · cases h
    · split at h
      next hremove =>
        cases h
        exact Or.inl ((mem_inFlight_center (announces_removeZone hremove) hc).mp hmem)
      · cases h
        exact Or.inl hmem

-- Tasks that receive a command and then work on their own.
theorem receive_inFlight {a : Action} (h : p.step a = some p') (hmem : c ∈ p'.inFlight u)
    (ha : (∃ loaded isSecondary, a = .loaderReceive loaded isSecondary) ∨
      a = .signerReceive ∨ a = .publisherReceive) :
    c ∈ p.inFlight u := by
  rcases ha with ⟨loaded, isSecondary, rfl⟩ | rfl | rfl
  · simp only [step, loaderReceive] at h
    split at h
    next hreceive =>
      cases h
      refine (inFlight_receive hreceive).2 u c ?_
      unfold register at hmem
      split at hmem <;> exact hmem
    next hreceive =>
      cases h
      exact (inFlight_receive hreceive).2 u c hmem
    · cases h
  · simp only [step, signerReceive] at h
    split at h
    next hreceive =>
      split at h
      · cases h
        exact (inFlight_receive hreceive).2 u c hmem
      · cases h
        exact (inFlight_receive hreceive).2 u c hmem
    next hreceive =>
      cases h
      exact (inFlight_receive hreceive).2 u c hmem
    · cases h
  · simp only [step, publisherReceive] at h
    split at h
    next hreceive =>
      split at h
      · cases h
        exact (inFlight_receive hreceive).2 u c hmem
      · cases h
        exact (inFlight_receive hreceive).2 u c hmem
    next hreceive =>
      cases h
      exact (inFlight_receive hreceive).2 u c hmem
    · cases h

-- What a review server has sent is the approval of a version that it reviews.
theorem review_inFlight {source : Source} (zs : ZoneServer source) {v : UnitName}
    {cmd : ApplicationCommand} {net : Net} (rounds : Nat → Uuid × Bool)
    (hreceive : p.net.receive v = some (cmd, net))
    (hmem : c ∈ ((p.withNet net).send (zs.handleCommand rounds cmd).2).inFlight u) :
    c ∈ p.inFlight u ∨
      ∃ n s, p.Reviews v zs (n, s) ∧ (u, c) ∈ directUpdate (source.approvedEvent n s) := by
  obtain ⟨hcmd, hold⟩ := inFlight_receive hreceive
  rcases sent_of_review zs hcmd rounds with hsent | ⟨n, s, hsent, hreviews⟩
  · rw [hsent] at hmem
    rcases mem_inFlight_send.mp hmem with hmem | hmem
    · exact Or.inl (hold u c hmem)
    · cases hmem
  · rw [hsent] at hmem
    rcases mem_inFlight_send_one.mp hmem with hmem | hmem
    · exact Or.inl (hold u c hmem)
    · exact Or.inr ⟨n, s, hreviews, hmem⟩

theorem rsReceive_inFlight {rounds : Nat → Uuid × Bool} (h : p.rsReceive rounds = some p')
    (hmem : c ∈ p'.inFlight u) : c ∈ p.inFlight u ∨ p.Emits (.rsReceive rounds) u c := by
  obtain ⟨cmd, net, hreceive, rfl⟩ := rsReceive_spec h
  rcases review_inFlight p.rs rounds hreceive hmem with hmem | ⟨n, s, hreviews, hsent⟩
  · exact Or.inl hmem
  · simp only [Source.approvedEvent, directUpdate, List.mem_singleton, Prod.mk.injEq] at hsent
    obtain ⟨rfl, rfl⟩ := hsent
    exact Or.inr (.approvedUnsigned hreviews)

theorem rs2Receive_inFlight {rounds : Nat → Uuid × Bool} (h : p.rs2Receive rounds = some p')
    (hmem : c ∈ p'.inFlight u) : c ∈ p.inFlight u ∨ p.Emits (.rs2Receive rounds) u c := by
  obtain ⟨cmd, net, hreceive, rfl⟩ := rs2Receive_spec h
  rcases review_inFlight p.rs2 rounds hreceive hmem with hmem | ⟨n, s, hreviews, hsent⟩
  · exact Or.inl hmem
  · simp only [Source.approvedEvent, directUpdate, List.mem_singleton, Prod.mk.injEq] at hsent
    obtain ⟨rfl, rfl⟩ := hsent
    exact Or.inr (.approvedSigned hreviews)

theorem signerNext_inFlight {records : List StoredRecord} (h : p.signerNext records = some p')
    (hmem : c ∈ p'.inFlight u) : c ∈ p.inFlight u ∨ p.Emits (.signerNext records) u c := by
  cases signerNext_cases h with
  | report hsigner =>
    rcases mem_inFlight_send_one.mp hmem with hmem | hmem
    · exact Or.inl hmem
    · simp only [directUpdate, List.mem_singleton, Prod.mk.injEq] at hmem
      obtain ⟨rfl, rfl⟩ := hmem
      exact Or.inr (.signed hsigner)
  | read | noSoa | choose | create | store | panic | configure | collect | commit =>
    -- the places before the last one send nothing
    exact Or.inl hmem

-- Whatever is in flight after a step was in flight before it, or the step has sent it.
theorem step_inFlight {a : Action} (h : p.step a = some p') (hc : ∀ change, c ≠ .Changed change)
    (hmem : c ∈ p'.inFlight u) : c ∈ p.inFlight u ∨ p.Emits a u c := by
  cases a with
  | zoneAdd zone => exact http_inFlight h hc hmem (Or.inl ⟨zone, rfl⟩)
  | zoneAddNext i => exact http_inFlight h hc hmem (Or.inr (Or.inl ⟨i, rfl⟩))
  | zoneRemove n => exact http_inFlight h hc hmem (Or.inr (Or.inr ⟨n, rfl⟩))
  | review server n s token operation =>
    cases h
    rcases mem_inFlight_post.mp hmem with hmem | ⟨rfl, rfl⟩
    · exact Or.inl hmem
    · exact Or.inr (.review rfl)
  | resign n =>
    cases h
    rcases mem_inFlight_send_one.mp hmem with hmem | hmem
    · exact Or.inl hmem
    · simp only [directUpdate, List.mem_singleton, Prod.mk.injEq] at hmem
      obtain ⟨rfl, rfl⟩ := hmem
      exact Or.inr (.resign n)
  | direct =>
    simp only [step] at h
    split at h
    next hnet =>
      cases h
      rw [inFlight_direct hnet] at hmem
      exact Or.inl hmem
    · cases h
  | forward =>
    simp only [step] at h
    split at h
    next hnet =>
      cases h
      rw [inFlight_forward hnet] at hmem
      exact Or.inl hmem
    · cases h
  | loaderUpdated =>
    simp only [step, loaderUpdated] at h
    split at h
    next n s rest _ hupdated =>
      cases h
      rcases mem_inFlight_send_one.mp hmem with hmem | hmem
      · exact Or.inl hmem
      · simp only [directUpdate, List.mem_singleton, Prod.mk.injEq] at hmem
        obtain ⟨rfl, rfl⟩ := hmem
        exact Or.inr (.updated (hupdated ▸ List.mem_cons_self))
    · cases h
  | loaderReceive loaded isSecondary =>
    exact Or.inl (receive_inFlight h hmem (Or.inl ⟨loaded, isSecondary, rfl⟩))
  | signerReceive => exact Or.inl (receive_inFlight h hmem (Or.inr (Or.inl rfl)))
  | publisherReceive => exact Or.inl (receive_inFlight h hmem (Or.inr (Or.inr rfl)))
  | rsReceive rounds => exact rsReceive_inFlight h hmem
  | rs2Receive rounds => exact rs2Receive_inFlight h hmem
  | signerNext records => exact signerNext_inFlight h hmem
  | loaderInsert | loaderStore | promote | promoteStore | transferWrite | transferCommit
  | signerFail | publisherNext =>
    rw [inFlight_congr (net_of_isLocal h rfl)] at hmem
    exact Or.inl hmem

end

/-! ## What the other tasks leave alone -/

inductive Task
  | http
  | centralCommand
  | loader
  | maintainer
  | transfer
  | rs
  | rs2
  | signer
  | publisher
deriving DecidableEq

/-- The task that takes a step.  Messages are moved, and re-signing is asked for, on behalf of the
central command. -/
def Action.task : Action → Task
  | .zoneAdd _ | .zoneAddNext _ | .zoneRemove _ => .http
  | .review _ _ _ _ _ | .resign _ | .direct | .forward => .centralCommand
  | .loaderReceive _ _ | .loaderUpdated | .loaderInsert | .loaderStore => .loader
  | .promote _ | .promoteStore => .maintainer
  | .transferWrite _ _ _ | .transferCommit _ _ _ => .transfer
  | .rsReceive _ => .rs
  | .rs2Receive _ => .rs2
  | .signerReceive | .signerNext _ | .signerFail => .signer
  | .publisherReceive | .publisherNext => .publisher

structure Frame (p : Pipeline) (t : Task) (p' : Pipeline) : Prop where
  state : t ≠ .http → p'.center.state = p.center.state
  poisoned : t ≠ .http → t ≠ .signer → p'.poisoned = p.poisoned
  requests : t ≠ .http → p'.requests = p.requests
  loader : t ≠ .loader → p'.loader = p.loader
  maintainer : t ≠ .maintainer → p'.maintainer = p.maintainer
  unsignedZones : t ≠ .loader → t ≠ .maintainer → p'.unsignedZones = p.unsignedZones
  pendingZones : t ≠ .loader → t ≠ .maintainer → p'.pendingZones = p.pendingZones
  unsignedHeap : t ≠ .loader → t ≠ .transfer → p'.unsignedHeap = p.unsignedHeap
  commits : t ≠ .loader → t ≠ .transfer → p'.commits = p.commits
  zoneUpdated : t ≠ .loader → t ≠ .transfer → p'.zoneUpdated = p.zoneUpdated
  rs : t ≠ .rs → p'.rs = p.rs
  rs2 : t ≠ .rs2 → p'.rs2 = p.rs2
  approvals : t ≠ .rs2 → p'.approvals = p.approvals
  signer : t ≠ .signer → p'.signer = p.signer
  signedHeap : t ≠ .signer → p'.signedHeap = p.signedHeap
  signedZones : t ≠ .signer → t ≠ .publisher → p'.signedZones = p.signedZones
  publisher : t ≠ .publisher → p'.publisher = p.publisher
  publishedZones : t ≠ .publisher → p'.publishedZones = p.publishedZones

theorem step_frame {p p' : Pipeline} {a : Action} (h : p.step a = some p') :
    Frame p a.task p' := by
  cases a
  all_goals
    simp only [step, zoneAdd, zoneAddNext, zoneRemove, loaderReceive, register, loaderUpdated,
      loaderInsert, loaderStore, promote, promoteStore, transferWrite, transferCommit, rsReceive,
      rs2Receive, signerReceive, signerNext, signerFail, publisherReceive, publisherNext] at h
    repeat' split at h
  all_goals cases h
  all_goals constructor
  all_goals intros
  all_goals first
    | rfl
    | exact absurd rfl ‹_›

theorem signerTurn_of_step {p p' : Pipeline} {a : Action} (h : p.step a = some p')
    (ha : a.task = .signer) : SignerTurn p a p' := by
  cases a with
  | signerNext records => exact signerNext_cases h
  | signerReceive =>
    simp only [step, signerReceive] at h
    split at h
    next hidle hreceive =>
      split at h
      next hlookup =>
        cases h
        exact .receive hidle hreceive hlookup
      · cases h
        exact .skip hidle hreceive
    next hidle hreceive =>
      cases h
      exact .skip hidle hreceive
    · cases h
  | signerFail =>
    simp only [step, signerFail] at h
    split at h
    next hcollected =>
      cases h
      exact .fail hcollected
    · cases h
  | _ => cases ha

theorem publisherTurn_of_step {p p' : Pipeline} {a : Action} (h : p.step a = some p')
    (ha : a.task = .publisher) : PublisherTurn p a p' := by
  cases a with
  | publisherReceive =>
    simp only [step, publisherReceive] at h
    split at h
    next hidle hreceive =>
      split at h
      next hlookup =>
        cases h
        exact .take hidle hreceive hlookup
      · cases h
        exact .skip hidle hreceive
    next hidle hreceive =>
      cases h
      exact .skip hidle hreceive
    · cases h
  | publisherNext =>
    simp only [step, publisherNext] at h
    split at h
    · cases h
    next hadding =>
      cases h
      exact .add hadding
    next hremoving =>
      cases h
      exact .remove hremoving
  | _ => cases ha

/-! ## Where the reviewed versions come from -/

theorem ne_changed_of_asks {cmd : ApplicationCommand} {k : Name × Serial}
    (h : ZoneServer.asksFor cmd = some k) (change : Change) : cmd ≠ .Changed change := by
  intro heq
  rw [heq] at h
  cases h

-- A review that a command has started was asked for by it.
theorem reviews_of_receive {source : Source} {p : Pipeline} {zs : ZoneServer source} {v : UnitName}
    {cmd : ApplicationCommand} {net : Net} {rounds : Nat → Uuid × Bool} {k : Name × Serial}
    (hreceive : p.net.receive v = some (cmd, net))
    (hpending : k ∈ (zs.handleCommand rounds cmd).1.pendingApprovals) : p.Reviews v zs k := by
  rcases (zs.handleCommand_spec rounds cmd).1 k hpending with hold | hasks
  · exact Or.inr hold
  · exact Or.inl ⟨cmd, (inFlight_receive hreceive).1, hasks⟩

theorem rs_reviews_of_step {p p' : Pipeline} {a : Action} (h : p.step a = some p') {n : Name}
    {s : Serial} (hreviews : p'.Reviews .RS p'.rs (n, s)) :
    p.Reviews .RS p.rs (n, s) ∨ (n, s) ∈ p.zoneUpdated := by
  rcases hreviews with ⟨cmd, hmem, hasks⟩ | hpending
  · rcases step_inFlight h (ne_changed_of_asks hasks) hmem with hmem | hemits
    · exact Or.inl (Or.inl ⟨cmd, hmem, hasks⟩)
    · cases hemits with
      | updated hupdated =>
        cases hasks
        exact Or.inr hupdated
      | review => cases hasks
  · by_cases ha : a.task = .rs
    · cases a with
      | rsReceive rounds =>
        obtain ⟨cmd, net, hreceive, rfl⟩ := rsReceive_spec h
        exact Or.inl (reviews_of_receive hreceive hpending)
      | _ => cases ha
    · rw [(step_frame h).rs ha] at hpending
      exact Or.inl (Or.inr hpending)

theorem rs2_reviews_of_step {p p' : Pipeline} {a : Action} (h : p.step a = some p') {n : Name}
    {s : Serial} (hreviews : p'.Reviews .RS2 p'.rs2 (n, s)) :
    p.Reviews .RS2 p.rs2 (n, s) ∨ p.signer = .committed n s := by
  rcases hreviews with ⟨cmd, hmem, hasks⟩ | hpending
  · rcases step_inFlight h (ne_changed_of_asks hasks) hmem with hmem | hemits
    · exact Or.inl (Or.inl ⟨cmd, hmem, hasks⟩)
    · cases hemits with
      | signed hsigner =>
        cases hasks
        exact Or.inr hsigner
      | review => cases hasks
  · by_cases ha : a.task = .rs2
    · cases a with
      | rs2Receive rounds =>
        obtain ⟨cmd, net, hreceive, rfl⟩ := rs2Receive_spec h
        exact Or.inl (reviews_of_receive hreceive hpending)
      | _ => cases ha
    · rw [(step_frame h).rs2 ha] at hpending
      exact Or.inl (Or.inr hpending)

/-! ## Registering and reading zones -/

/-- The registration creates a zone. -/
def registers (zone : ZoneAdd) : Option ZoneContent → Bool
  | some content =>
    match zone.source with
    | .Server _ => true
    | .Zonefile _ => content.soa.isSome
  | none => false

theorem register_of_not_registers (p : Pipeline) {zone : ZoneAdd} {loaded : Option ZoneContent}
    {isSecondary : Bool}
    (h : registers zone loaded = false) : p.register zone loaded isSecondary = p := by
  unfold register
  split
  next hsource => simp [registers, hsource] at h
  next hsource => simp [registers, hsource] at h
  · rfl

-- A registered zone is new; a primary one is announced with its content.
theorem register_of_registers (p : Pipeline) {zone : ZoneAdd} {loaded : Option ZoneContent}
    {isSecondary : Bool}
    (h : registers zone loaded = true) :
    (p.register zone loaded isSecondary = { p with
        unsignedHeap := p.unsignedHeap.alloc zone.name ⟨⟨none, []⟩, none, isSecondary⟩
        loader := .inserting zone.name (p.unsignedHeap.next zone.name) isSecondary }) ∨
      ∃ soa records, p.register zone loaded isSecondary = { p with
        unsignedHeap :=
          p.unsignedHeap.alloc zone.name ⟨⟨some soa, records⟩, some p.commits.length, false⟩
        commits := p.commits ++ [(zone.name, ⟨some soa, records⟩)]
        zoneUpdated := p.zoneUpdated ++ [(zone.name, soa.serial)]
        loader := .inserting zone.name (p.unsignedHeap.next zone.name) false } := by
  unfold registers at h
  unfold register
  split at h
  next content =>
    split at h
    next addr hsource =>
      rw [hsource]
      exact Or.inl rfl
    next path hsource =>
      rcases content with ⟨soa, records⟩
      cases soa with
      | none => cases h
      | some soa =>
        rw [hsource]
        exact Or.inr ⟨soa, records, rfl⟩
  · cases h

theorem loaderReceive_spec {p p' : Pipeline} {loaded : Option ZoneContent}
    {isSecondary : Bool}
    (h : p.loaderReceive loaded isSecondary = some p') :
    ∃ cmd net, p.loader = .idle ∧ p.net.receive .ZL = some (cmd, net) ∧
      (p' = p.withNet net ∨ ∃ zone, cmd = .RegisterZone zone ∧ registers zone loaded = true ∧
        p' = (p.withNet net).register zone loaded isSecondary) := by
  unfold loaderReceive at h
  split at h
  next zone net hidle hreceive =>
    cases h
    refine ⟨_, net, hidle, hreceive, ?_⟩
    cases hregisters : registers zone loaded with
    | false => exact Or.inl (register_of_not_registers _ hregisters)
    | true => exact Or.inr ⟨zone, rfl, hregisters, rfl⟩
  next cmd net _ hidle hreceive =>
    cases h
    exact ⟨cmd, net, hidle, hreceive, Or.inl rfl⟩
  · cases h

-- A signer reads what it read before, or has just looked the zone up for its command.
theorem reading_of_step {p p' : Pipeline} {a : Action} (h : p.step a = some p') {job : SignJob}
    (hjob : p'.signer.reading = some job) :
    p.signer.reading = some job ∨ p'.signer = .found job ∧
      .SignZone job.zoneName job.zoneSerial ∈ p.inFlight .ZS ∧
      (p.zonesToSign job.zoneSerial).lookup job.zoneName = some job.handle := by
  by_cases ha : a.task = .signer
  · cases signerTurn_of_step h ha with
    | receive _ hreceive hlookup =>
      cases hjob
      exact Or.inr ⟨rfl, (inFlight_receive hreceive).1, hlookup⟩
    | skip => exact Or.inl hjob
    | read hsigner | choose hsigner | create hsigner | store hsigner | configure hsigner =>
      -- a job goes on with the same zone
      rw [hsigner]
      exact Or.inl hjob
    | noSoa | panic | collect | commit | report | fail => cases hjob
  · rw [(step_frame h).signer ha] at hjob
    exact Or.inl hjob

end Pipeline

end Cascade

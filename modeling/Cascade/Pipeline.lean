import Cascade.ZoneServer
import Cascade.Lib.Heap
import Cascade.Lib.Runs

/-!
# The pipeline

The units of the daemon as tasks over the registry and the three zone trees: the handlers of the
HTTP server, the central command, the zone loader with its maintainer, the signer, the two review
servers and the publication server.  A step is one access of one task to what the tasks share.  The
trees are replaced as a whole, so storing a changed copy is a step of its own, and the zones in
them are shared by reference.

The loader's copy of the tree of unsigned zones is refreshed after every store and is not kept apart
from it, and a pending secondary zone may become active at any time.  Senders find room: the only
channels with a bound are those of announced versions and of the maintainer's events, with ten places
each, on which the loader of `ZoneLoader` may come to wait.
-/

namespace Cascade

open Lib

/-- The apex SOA record of a zone, if it has one, and its other records. -/
structure ZoneContent where
  soa : Option Soa
  records : List StoredRecord
deriving DecidableEq

abbrev ZoneTree := HashMap Name Handle

/-- A zone of the loader.  `version` is the number of the commit its content is from; a transfer
writes through, so while one is under way (or failed) the content is of no version. -/
structure UnsignedZone where
  content : ZoneContent
  version : Option Nat
  isSecondary : Bool

/-- A handler of `zone_add` after `add_zone`. -/
structure AddRequest where
  register : ZoneAdd
  policyChanged : Bool

/-- The zone loader handling `RegisterZone`, and the maintainer making a pending zone active. -/
inductive LoaderTask
  | idle
  | inserting (zoneName : Name) (handle : Handle) (isSecondary : Bool)
  | storing (newZones : ZoneTree)
  | panicked

/-- The zone that the signer reads: an unsigned zone for a new version, and a published one, which
is named by the serial `none`, for re-signing. -/
structure SignJob where
  zoneName : Name
  zoneSerial : Option Serial
  handle : Handle

/-- What the signer has read from the zone, and from which version. -/
structure SignRead (α : Type) where
  value : α
  version : Option Nat

/-- The places in `sign_zone` between two accesses to what the tasks share. -/
inductive ZoneSigner
  | idle
  | found (job : SignJob)
  | started (job : SignJob) (soa : SignRead Soa)
  | creating (job : SignJob) (soa : SignRead Soa) (loaded : ZoneTree) (handle : Handle)
  | targeted (job : SignJob) (soa : SignRead Soa) (handle : Handle)
  | configured (job : SignJob) (soa : SignRead Soa) (handle : Handle) (policy : PolicyVersion)
  | collected (job : SignJob) (soa : SignRead Soa) (handle : Handle) (policy : PolicyVersion)
      (records : SignRead (List StoredRecord))
  | committed (zoneName : Name) (zoneSerial : Serial)
  | panicked

/-- The publication server moving a zone from one tree to the other. -/
inductive Publisher
  | idle
  | adding (zoneName : Name) (handle : Handle) (signedZones publishedZones : ZoneTree)
  | removing (zoneName : Name) (signedZones : ZoneTree)

/-- The content that a zone had in the tree of signed zones when its approval was sent. -/
structure Approval where
  zoneName : Name
  zoneSerial : Serial
  content : Option ZoneContent
deriving DecidableEq

/-- `poisoned`: a thread panicked while it held the lock of the global state.  The last two fields
record the commits to unsigned zones and the approvals of signed ones. -/
structure Pipeline where
  center : Center
  poisoned : Bool
  appCmds : List (UnitName × ApplicationCommand)
  inbox : UnitName → List ApplicationCommand
  requests : List AddRequest
  unsignedZones : ZoneTree
  signedZones : ZoneTree
  publishedZones : ZoneTree
  unsignedHeap : Heap Name UnsignedZone
  signedHeap : Heap Name ZoneContent
  pendingZones : ZoneTree
  zoneUpdated : List (Name × Serial)
  loader : LoaderTask
  maintainer : LoaderTask
  rs : ZoneServer .UnsignedZones
  rs2 : ZoneServer .SignedZones
  signer : ZoneSigner
  publisher : Publisher
  commits : List (Name × ZoneContent)
  approvals : List Approval

namespace Pipeline

/-- The daemon right after its start, with the registry in `center`. -/
def new (center : Center) (rsHooks rs2Hooks : List String) : Pipeline where
  center := center
  poisoned := false
  appCmds := []
  inbox := fun _ ↦ []
  requests := []
  unsignedZones := ∅
  signedZones := ∅
  publishedZones := ∅
  unsignedHeap := Heap.empty
  signedHeap := Heap.empty
  pendingZones := ∅
  zoneUpdated := []
  loader := .idle
  maintainer := .idle
  rs := ZoneServer.new rsHooks
  rs2 := ZoneServer.new rs2Hooks
  signer := .idle
  publisher := .idle
  commits := []
  approvals := []

/-- Right after the start of the daemon. -/
def Started (p : Pipeline) : Prop :=
  ∃ center rsHooks rs2Hooks, center.updateTx = [] ∧ p = Pipeline.new center rsHooks rs2Hooks

/-! ## Messages -/

def net (p : Pipeline) : Net := ⟨p.center.updateTx, p.appCmds, p.inbox⟩

def withNet (p : Pipeline) (net : Net) : Pipeline :=
  { p with center := { p.center with updateTx := net.updates }
           appCmds := net.commands
           inbox := net.inbox }

def send (p : Pipeline) (updates : List Update) : Pipeline := p.withNet (p.net.sendAll updates)

/-! ## The HTTP server -/

def zoneAdd (p : Pipeline) (register : ZoneAdd) : Option Pipeline :=
  if p.poisoned then none
  else
    some { p with center := (addZone p.center register.name).2
                  requests := p.requests ++ [⟨register, false⟩] }

/-- The next step of the `i`-th handler: `change_policy`, or sending `RegisterZone`.  A handler that
panics sends nothing. -/
def zoneAddNext (p : Pipeline) (i : Nat) : Option Pipeline :=
  match p.requests[i]? with
  | none => none
  | some ⟨register, false⟩ =>
    if p.poisoned then some { p with requests := p.requests.eraseIdx i }
    else
      match changePolicy p.center register.name register.policy with
      | .ok (_, center) =>
        some { p with center := center, requests := p.requests.set i ⟨register, true⟩ }
      | .error _ => some { p with poisoned := true, requests := p.requests.eraseIdx i }
  | some ⟨register, true⟩ =>
    some ({ p with requests := p.requests.eraseIdx i }.withNet
      (p.net.post .ZL (.RegisterZone register)))

def zoneRemove (p : Pipeline) (name : Name) : Option Pipeline :=
  if p.poisoned then none
  else
    match removeZone p.center name with
    | .ok (_, center) => some { p with center := center }
    | .error _ => some { p with poisoned := true }

/-! ## The zone loader and its maintainer -/

/-- Registers a zone.  `loaded` is what the zone file holds, which is announced on a channel that is
taken to have room.  A zone from a server starts empty, and
for it `loaded` says no more than that its settings could be parsed; it is a secondary zone if they
name a server to request transfers from. -/
def register (p : Pipeline) (zone : ZoneAdd) (loaded : Option ZoneContent) (isSecondary : Bool) :
    Pipeline :=
  match zone.source, loaded with
  | .Server _, some _ =>
    { p with
      unsignedHeap := p.unsignedHeap.alloc zone.name ⟨⟨none, []⟩, none, isSecondary⟩
      loader := .inserting zone.name (p.unsignedHeap.next zone.name) isSecondary }
  | .Zonefile _, some ⟨some soa, records⟩ =>
    { p with
      unsignedHeap :=
        p.unsignedHeap.alloc zone.name ⟨⟨some soa, records⟩, some p.commits.length, false⟩
      commits := p.commits ++ [(zone.name, ⟨some soa, records⟩)]
      zoneUpdated := p.zoneUpdated ++ [(zone.name, soa.serial)]
      loader := .inserting zone.name (p.unsignedHeap.next zone.name) false }
  | _, _ => p

/-- `on_command` -/
def loaderReceive (p : Pipeline) (loaded : Option ZoneContent) (isSecondary : Bool) :
    Option Pipeline :=
  match p.loader, p.net.receive .ZL with
  | .idle, some (.RegisterZone zone, net) =>
    some ((p.withNet net).register zone loaded isSecondary)
  | .idle, some (_, net) => some (p.withNet net)
  | _, _ => none

/-- `on_zone_updated` -/
def loaderUpdated (p : Pipeline) : Option Pipeline :=
  match p.loader, p.zoneUpdated with
  | .idle, (name, serial) :: rest =>
    some ({ p with zoneUpdated := rest }.send [.UnsignedZoneUpdatedEvent name serial])
  | _, _ => none

/-- `insert_zones` up to the store. -/
def loaderInsert (p : Pipeline) : Option Pipeline :=
  match p.loader with
  | .inserting name handle true =>
    some { p with pendingZones := p.pendingZones.insert name handle
                  loader := .storing p.unsignedZones }
  | .inserting name handle false =>
    if name ∈ p.unsignedZones then some { p with loader := .idle }
    else some { p with loader := .storing (p.unsignedZones.insert name handle) }
  | _ => none

def loaderStore (p : Pipeline) : Option Pipeline :=
  match p.loader with
  | .storing newZones => some { p with unsignedZones := newZones, loader := .idle }
  | _ => none

/-- `on_zone_added` for a zone that is to become active. -/
def promote (p : Pipeline) (name : Name) : Option Pipeline :=
  match p.maintainer, p.pendingZones.lookup name with
  | .idle, some handle =>
    let p := { p with pendingZones := p.pendingZones.erase name }
    if name ∈ p.unsignedZones then some { p with maintainer := .panicked }
    else some { p with maintainer := .storing (p.unsignedZones.insert name handle) }
  | _, _ => none

def promoteStore (p : Pipeline) : Option Pipeline :=
  match p.maintainer with
  | .storing newZones => some { p with unsignedZones := newZones, maintainer := .idle }
  | _ => none

/-- A transfer changes a secondary zone. -/
def transferWrite (p : Pipeline) (name : Name) (handle : Handle) (content : ZoneContent) :
    Option Pipeline :=
  match p.unsignedHeap.get name handle with
  | some ⟨_, _, true⟩ =>
    some { p with unsignedHeap := p.unsignedHeap.set name handle ⟨content, none, true⟩ }
  | _ => none

/-- A transfer makes its last change and commits.  A zone with a SOA record is announced, on a channel
that is taken to have room. -/
def transferCommit (p : Pipeline) (name : Name) (handle : Handle) (content : ZoneContent) :
    Option Pipeline :=
  match p.unsignedHeap.get name handle with
  | some ⟨_, _, true⟩ =>
    some { p with
      unsignedHeap := p.unsignedHeap.set name handle ⟨content, some p.commits.length, true⟩
      commits := p.commits ++ [(name, content)]
      zoneUpdated := p.zoneUpdated ++ (content.soa.map (fun soa ↦ (name, soa.serial))).toList }
  | _ => none

/-! ## The review servers -/

/-- The server for unsigned zones. -/
def rsReceive (p : Pipeline) (rounds : Nat → Uuid × Bool) : Option Pipeline :=
  match p.net.receive .RS with
  | some (cmd, net) =>
    let (rs, sent) := p.rs.handleCommand rounds cmd
    some ({ p.withNet net with rs := rs }.send sent)
  | none => none

/-- The content of a zone in the tree of signed zones. -/
def signedContent (p : Pipeline) (name : Name) : Option ZoneContent :=
  (p.signedZones.lookup name).bind (p.signedHeap.get name)

/-- What is recorded of an event. -/
def approvalOf (p : Pipeline) : Update → Option Approval
  | .SignedZoneApprovedEvent name serial => some ⟨name, serial, p.signedContent name⟩
  | _ => none

/-- The server for signed zones. -/
def rs2Receive (p : Pipeline) (rounds : Nat → Uuid × Bool) : Option Pipeline :=
  match p.net.receive .RS2 with
  | some (cmd, net) =>
    let (rs2, sent) := p.rs2.handleCommand rounds cmd
    some ({ p.withNet net with
      rs2 := rs2
      approvals := p.approvals ++ sent.filterMap p.approvalOf }.send sent)
  | none => none

/-! ## The signer -/

/-- The zone that a job reads. -/
def readZone (p : Pipeline) (job : SignJob) : Option (ZoneContent × Option Nat) :=
  match job.zoneSerial with
  | some _ =>
    (p.unsignedHeap.get job.zoneName job.handle).map (fun zone ↦ (zone.content, zone.version))
  | none => (p.signedHeap.get job.zoneName job.handle).map (fun content ↦ (content, none))

/-- The records that signing generates are not collected. -/
def collectZone (content : ZoneContent) : List StoredRecord :=
  content.records.filter (fun r ↦ r.rtype ∉ [Rtype.DNSKEY, Rtype.RRSIG, Rtype.NSEC, Rtype.NSEC3,
    Rtype.CDS, Rtype.CDNSKEY])

/-- The tree to sign from: without a serial the zone is re-signed. -/
def zonesToSign (p : Pipeline) : Option Serial → ZoneTree
  | some _ => p.unsignedZones
  | none => p.publishedZones

/-- Receives `SignZone` and looks the zone up. -/
def signerReceive (p : Pipeline) : Option Pipeline :=
  match p.signer, p.net.receive .ZS with
  | .idle, some (.SignZone name serial, net) =>
    match (p.zonesToSign serial).lookup name with
    | some handle => some { p.withNet net with signer := .found ⟨name, serial, handle⟩ }
    | none => some (p.withNet net)
  | .idle, some (_, net) => some (p.withNet net)
  | _, _ => none

/-- The next step of `sign_zone`.  The signed records are given: they depend on the keys and on the
DNS library. -/
def signerNext (p : Pipeline) (signedRecords : List StoredRecord) : Option Pipeline :=
  match p.signer with
  | .found job =>
    match p.readZone job with
    | some (⟨some soa, _⟩, version) => some { p with signer := .started job ⟨soa, version⟩ }
    | _ => some { p with signer := .idle }
  | .started job soa =>
    match p.signedZones.lookup job.zoneName with
    | some handle => some { p with signer := .targeted job soa handle }
    | none =>
      some { p with
        signedHeap := p.signedHeap.alloc job.zoneName ⟨none, []⟩
        signer := .creating job soa p.signedZones (p.signedHeap.next job.zoneName) }
  | .creating job soa loaded handle =>
    some { p with signedZones := loaded.insert job.zoneName handle
                  signer := .targeted job soa handle }
  | .targeted job soa handle =>
    if p.poisoned then some { p with signer := .panicked }
    else
      match p.center.state.zones.lookup job.zoneName with
      | none => some { p with signer := .panicked, poisoned := true }
      | some ⟨none, _⟩ => some { p with signer := .panicked }
      | some ⟨some policy, _⟩ => some { p with signer := .configured job soa handle policy }
  | .configured job soa handle policy =>
    match p.readZone job with
    | some (content, version) =>
      some { p with signer := .collected job soa handle policy ⟨collectZone content, version⟩ }
    | none => none
  | .collected job soa handle _ _ =>
    some { p with
      signedHeap := p.signedHeap.set job.zoneName handle ⟨some soa.value, signedRecords⟩
      signer := .committed job.zoneName soa.value.serial }
  | .committed name serial => some ({ p with signer := .idle }.send [.ZoneSignedEvent name serial])
  | .idle | .panicked => none

/-- `sign_zone` gives up: no keys, or an error before the commit. -/
def signerFail (p : Pipeline) : Option Pipeline :=
  match p.signer with
  | .collected .. => some { p with signer := .idle }
  | _ => none

/-! ## The publication server -/

/-- The start of `on_publish_signed_zone_cmd`. -/
def publisherReceive (p : Pipeline) : Option Pipeline :=
  match p.publisher, p.net.receive .PS with
  | .idle, some (.PublishSignedZone name _, net) =>
    match p.signedZones.lookup name with
    | some handle =>
      some { p.withNet net with publisher := .adding name handle p.signedZones p.publishedZones }
    | none => some (p.withNet net)
  | .idle, some (_, net) => some (p.withNet net)
  | _, _ => none

def publisherNext (p : Pipeline) : Option Pipeline :=
  match p.publisher with
  | .idle => none
  | .adding name handle signedZones publishedZones =>
    some { p with publishedZones := (publishedZones.erase name).insert name handle
                  publisher := .removing name signedZones }
  | .removing name signedZones =>
    some { p with signedZones := signedZones.erase name, publisher := .idle }

/-! ## Steps -/

inductive Action
  | zoneAdd (register : ZoneAdd)
  | zoneAddNext (i : Nat)
  | zoneRemove (name : Name)
  | review (server : Source) (zoneName : Name) (zoneSerial : Serial) (token : Option Uuid)
      (operation : ReviewOperation)
  | resign (name : Name)
  | direct
  | forward
  | loaderReceive (loaded : Option ZoneContent) (isSecondary : Bool)
  | loaderUpdated
  | loaderInsert
  | loaderStore
  | promote (name : Name)
  | promoteStore
  | transferWrite (name : Name) (handle : Handle) (content : ZoneContent)
  | transferCommit (name : Name) (handle : Handle) (content : ZoneContent)
  | rsReceive (rounds : Nat → Uuid × Bool)
  | rs2Receive (rounds : Nat → Uuid × Bool)
  | signerReceive
  | signerNext (signedRecords : List StoredRecord)
  | signerFail
  | publisherReceive
  | publisherNext

/-- The unit of a review server. -/
def reviewUnit : Source → UnitName
  | .UnsignedZones => .RS
  | .SignedZones => .RS2

def step (p : Pipeline) : Action → Option Pipeline
  | .zoneAdd register => p.zoneAdd register
  | .zoneAddNext i => p.zoneAddNext i
  | .zoneRemove name => p.zoneRemove name
  | .review server name serial token operation =>
    some (p.withNet (p.net.post (reviewUnit server)
      (.HandleZoneReviewApi name serial token operation)))
  | .resign name => some (p.send [.ResignZoneEvent name])
  | .direct =>
    match p.net.direct directUpdate with
    | some net => some (p.withNet net)
    | none => none
  | .forward =>
    match p.net.forward with
    | some net => some (p.withNet net)
    | none => none
  | .loaderReceive loaded isSecondary => p.loaderReceive loaded isSecondary
  | .loaderUpdated => p.loaderUpdated
  | .loaderInsert => p.loaderInsert
  | .loaderStore => p.loaderStore
  | .promote name => p.promote name
  | .promoteStore => p.promoteStore
  | .transferWrite name handle content => p.transferWrite name handle content
  | .transferCommit name handle content => p.transferCommit name handle content
  | .rsReceive rounds => p.rsReceive rounds
  | .rs2Receive rounds => p.rs2Receive rounds
  | .signerReceive => p.signerReceive
  | .signerNext signedRecords => p.signerNext signedRecords
  | .signerFail => p.signerFail
  | .publisherReceive => p.publisherReceive
  | .publisherNext => p.publisherNext

/-! ## A daemon with one zone

Its review servers have no hooks, so they approve at once. -/

namespace OneZone

def zone : Name := ⟨[[101]], by decide⟩

def version : PolicyVersion :=
  { name := "default"
    loader := { review := { required := false, cmdHook := none } }
    keyManager := {}
    signer :=
      { serialPolicy := .Keep
        sigInceptionOffset := Duration.fromSecs 86400
        sigValidityTime := Duration.fromSecs 1209600
        denial := .NSec
        review := { required := false, cmdHook := none } }
    server := {} }

/-- The registry with the zone, and with a policy that the zone uses. -/
def state : State :=
  { State.new Config.default with
    zones := AList.insert zone { policy := some version } ∅
    policies := AList.insert "default"
      { latest := version, midDeletion := false, zones := AList.insert zone () ∅ } ∅ }

def daemon : Pipeline := Pipeline.new ⟨state, [], 0⟩ [] []

theorem daemon_started : daemon.Started := ⟨⟨state, [], 0⟩, [], [], rfl, rfl⟩

def soa (serial : UInt32) : Soa := ⟨zone, zone, ⟨serial⟩, 3600, 300, 86400, 60⟩

def content (serial : UInt32) : ZoneContent := ⟨some (soa serial), []⟩

def noHooks : Nat → Uuid × Bool := fun _ ↦ (0, false)

/-- Adds the zone as a secondary one, and lets every unit take notice of its policy. -/
def registration : List Action :=
  [.zoneAdd ⟨zone, .Server (.V4 0 53), "default"⟩, .zoneAddNext 0, .zoneAddNext 0, .forward,
    .loaderReceive (some ⟨none, []⟩) true, .loaderInsert, .loaderStore, .direct] ++
  List.replicate 6 .forward ++
  [.loaderReceive none true, .rsReceive noHooks, .rs2Receive noHooks, .signerReceive,
    .publisherReceive]

/-- The first version is transferred, and the zone becomes active. -/
def firstTransfer : List Action :=
  [.transferCommit zone 0 (content 1), .promote zone, .promoteStore]

/-- From the commit of an unsigned version to the signer's inbox. -/
def reviewUnsigned : List Action :=
  [.loaderUpdated, .direct, .forward, .rsReceive noHooks, .direct, .forward]

/-- From the commit of a signed version to the publication server's inbox. -/
def reviewSigned : List Action :=
  [.direct, .forward, .rs2Receive noHooks, .direct, .forward]

end OneZone

end Pipeline

end Cascade

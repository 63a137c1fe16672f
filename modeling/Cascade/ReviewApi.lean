import Cascade.Handover
import Cascade.ReviewOnce

/-!
# Review requests over HTTP

A hook approves or rejects a version by a request to the HTTP server.  The handler of the request
sends a command to the review server and waits for the answer, which the server sends when it takes
the command up.  The handler of a client that has gone away is dropped, and the server panics when it
is to answer such a request.  What it has not taken up by then is lost with it, and the daemon panics
when it forwards the next command to this server.

The API of the publication server is left out: no version is ever pending there.  So are the status
pages, which the servers fill in without touching what they hold.
-/

namespace Cascade

open Lib

/-- How the texts of a request are read. -/
structure RequestTexts where
  zoneName : String → Option Name
  zoneSerial : String → Option Serial
  approvalToken : String → Option Uuid

inductive StatusCode
  | OK
  | BAD_REQUEST
  | INTERNAL_SERVER_ERROR
deriving DecidableEq

structure ReviewRequest where
  zoneName : Name
  zoneSerial : Serial
  approvalToken : Option Uuid
  operation : ReviewOperation
deriving DecidableEq

namespace ReviewRequest

def key (request : ReviewRequest) : Name × Serial := (request.zoneName, request.zoneSerial)

def command (request : ReviewRequest) : ApplicationCommand :=
  .HandleZoneReviewApi request.zoneName request.zoneSerial request.approvalToken request.operation

/-- The request that a command is sent for. -/
def ofCommand : ApplicationCommand → Option ReviewRequest
  | .HandleZoneReviewApi zoneName zoneSerial approvalToken operation =>
    some ⟨zoneName, zoneSerial, approvalToken, operation⟩
  | _ => none

@[simp] theorem ofCommand_command (request : ReviewRequest) :
    ofCommand request.command = some request := rfl

end ReviewRequest

def reviewOperation (action : String) : Option ReviewOperation :=
  if action = "approve" then some .approve
  else if action = "reject" then some .reject
  else none

/-- The checks of `zone_server_unit_api_common`. -/
def zoneServerUnitApiCommon (texts : RequestTexts) (action token : String)
    (params : HashMap String String) : Except StatusCode ReviewRequest :=
  match params.lookup "zone", params.lookup "serial" with
  | some zoneName, some zoneSerial =>
    if token.isEmpty then .error .BAD_REQUEST
    else
      match reviewOperation action, texts.zoneName zoneName, texts.zoneSerial zoneSerial with
      | some operation, some zoneName, some zoneSerial =>
        .ok ⟨zoneName, zoneSerial, texts.approvalToken token, operation⟩
      | _, _, _ => .error .BAD_REQUEST
  | _, _ => .error .BAD_REQUEST

/-- What `zone_server_unit_api_common` makes of the answer of the review server. -/
def statusOf : Except Unit Unit → StatusCode
  | .ok () => .OK
  | .error () => .BAD_REQUEST

namespace Pipeline

def reviewServer (p : Pipeline) : (source : Source) → ZoneServer source
  | .UnsignedZones => p.rs
  | .SignedZones => p.rs2

/-- The step of a review server. -/
def reviewReceive : Source → (Nat → Uuid × Bool) → Action
  | .UnsignedZones, rounds => .rsReceive rounds
  | .SignedZones, rounds => .rs2Receive rounds

end Pipeline

/-- A handler that waits for the answer, and whether its client is still there. -/
structure Handler where
  request : ReviewRequest
  connected : Bool

structure ReviewAnswer where
  server : Source
  request : ReviewRequest
  status : StatusCode

/-- The units and the handlers, those of each server in the order in which they have sent their
commands.  The answers, the newest first, and what the servers have handled are a record. -/
structure ReviewApi where
  pipeline : Pipeline
  waiting : Source → List Handler
  panicked : Source → Bool
  crashed : Bool
  answers : List ReviewAnswer
  logs : Source → List ReviewEvent

namespace ReviewApi

inductive Action
  | request (server : Source) (action token : String) (params : HashMap String String)
  | leave (server : Source) (i : Nat)
  | unit (a : Pipeline.Action)

def request (l : ReviewApi) (server : Source) (request : ReviewRequest) : ReviewApi :=
  { l with
    pipeline := l.pipeline.withNet
      (l.pipeline.net.post (Pipeline.reviewUnit server) request.command)
    waiting := Function.update l.waiting server (l.waiting server ++ [⟨request, true⟩]) }

def leave (l : ReviewApi) (server : Source) (i : Nat) : ReviewApi :=
  { l with
    waiting := Function.update l.waiting server
      ((l.waiting server).modify i (fun handler ↦ { handler with connected := false })) }

/-- A review server stops.  The handlers whose commands have come to it get no answer from it. -/
def panic (l : ReviewApi) (server : Source) : ReviewApi :=
  let lost := ((l.pipeline.net.inbox (Pipeline.reviewUnit server)).filterMap
    ReviewRequest.ofCommand).length
  { l with
    pipeline := l.pipeline.withNet (l.pipeline.net.discard (Pipeline.reviewUnit server))
    waiting := Function.update l.waiting server ((l.waiting server).drop lost)
    panicked := Function.update l.panicked server true
    answers := (((l.waiting server).take lost).filter Handler.connected).map
      (fun handler ↦ ⟨server, handler.request, .INTERNAL_SERVER_ERROR⟩) ++ l.answers }

/-- The answer of a review server, which goes to the handler that has sent the command. -/
def answer (l : ReviewApi) (server : Source) (result : Except Unit Unit) : Option ReviewApi :=
  match l.waiting server with
  | [] => none
  | handler :: handlers =>
    let l := { l with waiting := Function.update l.waiting server handlers }
    if handler.connected then
      some { l with answers := ⟨server, handler.request, statusOf result⟩ :: l.answers }
    else some (l.panic server)

def review (l : ReviewApi) (server : Source) : Review server :=
  ⟨l.pipeline.reviewServer server, l.logs server⟩

/-- A review server has handled a command, which took the units to `p`. -/
def handled (l : ReviewApi) (server : Source) (rounds : Nat → Uuid × Bool)
    (cmd : ApplicationCommand) (p : Pipeline) : ReviewApi :=
  let zs := l.pipeline.reviewServer server
  { l with
    pipeline := p
    logs := Function.update l.logs server ((zs.handleCommand rounds cmd).2.map .sent ++
      Review.record zs rounds cmd ++ l.logs server) }

/-- A review server takes up a command. -/
def handleCommand (l : ReviewApi) (server : Source) (rounds : Nat → Uuid × Bool) :
    Option ReviewApi :=
  if l.panicked server then none
  else
    match l.pipeline.net.receive (Pipeline.reviewUnit server),
      l.pipeline.step (Pipeline.reviewReceive server rounds) with
    | some (cmd, _), some p =>
      match ReviewRequest.ofCommand cmd with
      | none => some (l.handled server rounds cmd p)
      | some request => (l.handled server rounds cmd p).answer server
          ((l.pipeline.reviewServer server).processRequest request.zoneName request.zoneSerial
            request.approvalToken request.operation).1
    | _, _ => none

def isPanicked (l : ReviewApi) : UnitName → Bool
  | .RS => l.panicked .UnsignedZones
  | .RS2 => l.panicked .SignedZones
  | _ => false

/-- A step of the units, that of the review servers apart. -/
def others (l : ReviewApi) (a : Pipeline.Action) : Option ReviewApi :=
  (l.pipeline.step a).map (fun p ↦ { l with pipeline := p })

/-- `forward_app_cmds` -/
def forward (l : ReviewApi) : Option ReviewApi :=
  match l.pipeline.appCmds with
  | [] => none
  | (unit, _) :: _ => if l.isPanicked unit then some { l with crashed := true } else l.others .forward

def unitNext (l : ReviewApi) : Pipeline.Action → Option ReviewApi
  | .review _ _ _ _ _ => none
  | .rsReceive rounds => l.handleCommand .UnsignedZones rounds
  | .rs2Receive rounds => l.handleCommand .SignedZones rounds
  | .forward => l.forward
  | a => l.others a

/-- A request that does not pass the checks is answered at once. -/
def step (texts : RequestTexts) (l : ReviewApi) (a : Action) : Option ReviewApi :=
  if l.crashed then none
  else
    match a with
    | .request server action token params =>
      match zoneServerUnitApiCommon texts action token params with
      | .ok request => some (l.request server request)
      | .error _ => some l
    | .leave server i => some (l.leave server i)
    | .unit a => l.unitNext a

/-- Before the first request. -/
def Started (l : ReviewApi) : Prop :=
  l.pipeline.Started ∧ (∀ server, l.waiting server = []) ∧ (∀ server, l.panicked server = false) ∧
    l.crashed = false ∧ l.answers = [] ∧ ∀ server, l.logs server = []

end ReviewApi

/-! ## Requests on their way -/

namespace Pipeline

/-- The review requests that a server has not taken up yet. -/
def requestsTo (server : Source) (net : Net) : List ReviewRequest :=
  Router.picked directUpdate ReviewRequest.ofCommand net (reviewUnit server)

theorem ofCommand_routed :
    ∀ u, ∀ command ∈ directUpdate u, ReviewRequest.ofCommand command.2 = none := by
  intro u command hmem
  cases u with
  | Changed change =>
    obtain ⟨name, _, hcommand⟩ := List.mem_map.mp hmem
    rw [← hcommand]
    rfl
  | _ =>
    rw [List.mem_singleton.mp hmem]
    rfl

/-- What becomes of the queues in a step that has nothing to do with review requests. -/
inductive Passes (net : Net) : Net → Prop
  | same : Passes net net
  | send (updates : List Update) : Passes net (net.sendAll updates)
  | register (zone : ZoneAdd) : Passes net (net.post .ZL (.RegisterZone zone))
  | direct {net' : Net} : net.direct directUpdate = some net' → Passes net net'
  | forward {net' : Net} : net.forward = some net' → Passes net net'
  | receive {u : UnitName} {cmd : ApplicationCommand} {net' : Net} :
      (∀ server, reviewUnit server ≠ u) → net.receive u = some (cmd, net') → Passes net net'

theorem Passes.requestsTo {net net' : Net} (h : Passes net net') (server : Source) :
    requestsTo server net' = requestsTo server net := by
  cases h with
  | same => rfl
  | send updates => exact Router.picked_sendAll ofCommand_routed _ _ _
  | register zone =>
    rw [Pipeline.requestsTo, Router.picked_post ofCommand_routed]
    simp [Pipeline.requestsTo, ReviewRequest.ofCommand]
  | direct hnet => exact Router.picked_direct hnet _
  | forward hnet => exact Router.picked_forward hnet _
  | receive hother hnet =>
    rw [Pipeline.requestsTo, Pipeline.requestsTo, Router.picked_receive hnet,
      if_neg (hother server), List.nil_append]

variable {p p' : Pipeline} {a : Action}

theorem reviewUnit_ne {server : Source} {u : UnitName} (hrs : u ≠ .RS) (hrs2 : u ≠ .RS2) :
    reviewUnit server ≠ u := by
  cases server with
  | UnsignedZones => exact hrs.symm
  | SignedZones => exact hrs2.symm

theorem passes_announces {center : Center} (h : Announces p.center center) :
    Passes p.net ⟨center.updateTx, p.appCmds, p.inbox⟩ := by
  obtain ⟨changes, hchanges⟩ := h
  rw [hchanges]
  exact .send (changes.map .Changed)

theorem passes_http (h : p.step a = some p') (ha : a.task = .http) : Passes p.net p'.net := by
  cases a with
  | zoneAdd register =>
    simp only [step, zoneAdd] at h
    split at h
    · cases h
    · cases h
      exact passes_announces (announces_addZone p.center register.name)
  | zoneRemove name =>
    simp only [step, zoneRemove] at h
    split at h
    · cases h
    · split at h
      next hremove =>
        cases h
        exact passes_announces (announces_removeZone hremove)
      · cases h
        exact .same
  | zoneAddNext i =>
    simp only [step, zoneAddNext] at h
    split at h
    · cases h
    · split at h
      · cases h
        exact .same
      · split at h
        next hchange =>
          cases h
          exact passes_announces (announces_changePolicy hchange)
        · cases h
          exact .same
    next register hi =>
      cases h
      exact .register register
  | _ => cases ha

theorem passes_centralCommand (h : p.step a = some p') (ha : a.task = .centralCommand)
    (hreview : ∀ server n s token operation, a ≠ .review server n s token operation) :
    Passes p.net p'.net := by
  cases a with
  | review server n s token operation => exact absurd rfl (hreview server n s token operation)
  | resign name =>
    rw [← Option.some.inj h]
    exact .send [.ResignZoneEvent name]
  | direct =>
    cases hdirect : p.net.direct directUpdate with
    | none => simp [step, hdirect] at h
    | some net =>
      have hp' : p.withNet net = p' := by simpa [step, hdirect] using h
      rw [← hp']
      exact .direct hdirect
  | forward =>
    cases hforward : p.net.forward with
    | none => simp [step, hforward] at h
    | some net =>
      have hp' : p.withNet net = p' := by simpa [step, hforward] using h
      rw [← hp']
      exact .forward hforward
  | _ => cases ha

theorem passes_loaderReceive {loaded : Option ZoneContent} {isSecondary : Bool}
    (h : p.loaderReceive loaded isSecondary = some p') : Passes p.net p'.net := by
  have hother : ∀ server, reviewUnit server ≠ .ZL := fun server ↦ reviewUnit_ne nofun nofun
  unfold loaderReceive at h
  split at h
  next zone net hidle hreceive =>
    rw [← Option.some.inj h, (zoneUpdated_register zone loaded isSecondary).1]
    exact .receive hother hreceive
  next hreceive =>
    cases h
    exact .receive hother hreceive
  · cases h

theorem passes_signer (h : SignerTurn p a p') : Passes p.net p'.net := by
  have hother : ∀ server, reviewUnit server ≠ .ZS := fun server ↦ reviewUnit_ne nofun nofun
  cases h with
  | receive _ hreceive _ => exact .receive hother hreceive
  | skip _ hreceive => exact .receive hother hreceive
  | report _ => exact .send _
  | _ => exact .same

theorem passes_publisher (h : PublisherTurn p a p') : Passes p.net p'.net := by
  have hother : ∀ server, reviewUnit server ≠ .PS := fun server ↦ reviewUnit_ne nofun nofun
  cases h with
  | take _ hreceive _ => exact .receive hother hreceive
  | skip _ hreceive => exact .receive hother hreceive
  | _ => exact .same

-- All steps but those of the review servers and of the handlers of their API.
theorem passes_of_step (h : p.step a = some p')
    (hreview : ∀ server n s token operation, a ≠ .review server n s token operation)
    (hrs : a.task ≠ .rs) (hrs2 : a.task ≠ .rs2) : Passes p.net p'.net := by
  cases a with
  | zoneAdd _ | zoneAddNext _ | zoneRemove _ => exact passes_http h rfl
  | review _ _ _ _ _ | resign _ | direct | forward => exact passes_centralCommand h rfl hreview
  | loaderReceive loaded isSecondary => exact passes_loaderReceive h
  | loaderUpdated =>
    simp only [step, loaderUpdated] at h
    split at h
    · cases h
      exact .send _
    · cases h
  | signerReceive | signerNext _ => exact passes_signer (signerTurn_of_step h rfl)
  | publisherReceive => exact passes_publisher (publisherTurn_of_step h rfl)
  | rsReceive _ => exact absurd rfl hrs
  | rs2Receive _ => exact absurd rfl hrs2
  | loaderInsert | loaderStore | promote _ | promoteStore | transferWrite _ _ _
  | transferCommit _ _ _ | signerFail | publisherNext =>
    rw [net_of_isLocal h rfl]
    exact .same

end Pipeline

end Cascade

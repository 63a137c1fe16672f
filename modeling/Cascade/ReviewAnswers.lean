import Cascade.ReviewApi

/-!
# Answers to review requests

The handlers of a review server wait in the order of the commands that the server has not taken up
yet, so that every answer goes to the handler whose command it is for, and what a client is told of
its request is what has become of it.  As long as no client goes away, no server stops and everybody
gets an answer.
-/

namespace Cascade

open Lib

namespace ReviewRequest

/-- What is recorded of the request when it is accepted. -/
def event (request : ReviewRequest) : Option ReviewEvent :=
  request.approvalToken.map (fun token ↦
    match request.operation with
    | .approve => .approved request.key token
    | .reject => .rejected request.key token)

end ReviewRequest

/-- What the client of a request that was answered with OK takes to have happened. -/
def ReviewAnswer.event (answer : ReviewAnswer) (server : Source) : Option ReviewEvent :=
  if answer.server = server ∧ answer.status = .OK then answer.request.event else none

/-- A decision on a version, which a client has sent with a token. -/
def ReviewEvent.isDecision : ReviewEvent → Bool
  | .approved _ _ => true
  | .rejected _ _ => true
  | _ => false

def decisions (log : List ReviewEvent) : List ReviewEvent := log.filter ReviewEvent.isDecision

namespace ReviewApi

/-- The handlers of a server wait for the commands that it has not taken up yet, in their order. -/
def Aligned (l : ReviewApi) : Prop :=
  ∀ server, (l.waiting server).map Handler.request = Pipeline.requestsTo server l.pipeline.net

/-- What the clients of a server were told, the newest first. -/
def told (l : ReviewApi) (server : Source) : List ReviewEvent :=
  l.answers.filterMap (fun answer ↦ answer.event server)

/-- The requests that a server has answered, in order. -/
def answered (l : ReviewApi) (server : Source) : List ReviewRequest :=
  ((l.answers.filter (fun answer ↦ answer.server = server)).map ReviewAnswer.request).reverse

/-! ## The step of a review server -/

variable {l l' : ReviewApi} {server other : Source} {rounds : Nat → Uuid × Bool}
  {p : Pipeline}

theorem reviewUnit_inj (h : Pipeline.reviewUnit server = Pipeline.reviewUnit other) :
    server = other := by
  cases server with
  | UnsignedZones =>
    cases other with
    | UnsignedZones => rfl
    | SignedZones => cases h
  | SignedZones =>
    cases other with
    | UnsignedZones => cases h
    | SignedZones => rfl

-- The units after a review server has taken up a command.
theorem reviewReceive_spec {p p' : Pipeline}
    (h : p.step (Pipeline.reviewReceive server rounds) = some p') :
    ∃ cmd net, p.net.receive (Pipeline.reviewUnit server) = some (cmd, net) ∧
      p'.net = net.sendAll ((p.reviewServer server).handleCommand rounds cmd).2 ∧
      p'.reviewServer server = ((p.reviewServer server).handleCommand rounds cmd).1 ∧
      ∀ other, other ≠ server → p'.reviewServer other = p.reviewServer other := by
  cases server with
  | UnsignedZones =>
    obtain ⟨cmd, net, hreceive, hp'⟩ := Pipeline.rsReceive_spec h
    refine ⟨cmd, net, hreceive, by rw [hp']; rfl, by rw [hp']; rfl, ?_⟩
    intro other hother
    cases other with
    | UnsignedZones => exact absurd rfl hother
    | SignedZones =>
      rw [hp']
      rfl
  | SignedZones =>
    obtain ⟨cmd, net, hreceive, hp'⟩ := Pipeline.rs2Receive_spec h
    refine ⟨cmd, net, hreceive, by rw [hp']; rfl, by rw [hp']; rfl, ?_⟩
    intro other hother
    cases other with
    | UnsignedZones =>
      rw [hp']
      rfl
    | SignedZones => exact absurd rfl hother

theorem requestsTo_of_receive {cmd : ApplicationCommand} {net : Net}
    (hreceive : l.pipeline.net.receive (Pipeline.reviewUnit server) = some (cmd, net))
    (updates : List Update) (other : Source) :
    Pipeline.requestsTo other l.pipeline.net =
      (if other = server then (ReviewRequest.ofCommand cmd).toList else []) ++
        Pipeline.requestsTo other (net.sendAll updates) := by
  have hsent : Pipeline.requestsTo other (net.sendAll updates) = Pipeline.requestsTo other net :=
    Router.picked_sendAll Pipeline.ofCommand_routed _ _ _
  rw [hsent]
  refine (Router.picked_receive hreceive (Pipeline.reviewUnit other)).trans ?_
  by_cases hsame : other = server
  · rw [if_pos hsame, if_pos (congrArg Pipeline.reviewUnit hsame)]
    rfl
  · rw [if_neg hsame, if_neg (fun heq ↦ hsame (reviewUnit_inj heq))]
    rfl

-- What becomes of the handlers of one server.
theorem Aligned.update (h : Aligned l) {handlers : List Handler}
    (hwaiting : l'.waiting = Function.update l.waiting server handlers)
    (hserver : handlers.map Handler.request = Pipeline.requestsTo server l'.pipeline.net)
    (hothers : ∀ other, other ≠ server →
      Pipeline.requestsTo other l'.pipeline.net = Pipeline.requestsTo other l.pipeline.net) :
    Aligned l' := by
  intro other
  rw [hwaiting]
  by_cases hsame : other = server
  · rw [hsame, Function.update_self]
    exact hserver
  · rw [Function.update_of_ne hsame, h other]
    exact (hothers other hsame).symm

/-- The handler has got its answer from the server. -/
def served (l : ReviewApi) (server : Source) (handlers : List Handler) : ReviewApi :=
  { l with waiting := Function.update l.waiting server handlers }

/-- What a review server does with a command: a review request is that of the first handler. -/
inductive Handles (l : ReviewApi) (server : Source) (rounds : Nat → Uuid × Bool)
    (cmd : ApplicationCommand) (p : Pipeline) : ReviewApi → Prop
  | other : ReviewRequest.ofCommand cmd = none → Aligned (l.handled server rounds cmd p) →
      Handles l server rounds cmd p (l.handled server rounds cmd p)
  | answered {request : ReviewRequest} {handlers : List Handler} :
      cmd = request.command → l.waiting server = ⟨request, true⟩ :: handlers →
      Aligned ((l.handled server rounds cmd p).served server handlers) →
      Handles l server rounds cmd p
        { (l.handled server rounds cmd p).served server handlers with
          answers := ⟨server, request, statusOf ((l.pipeline.reviewServer server).processRequest
            request.zoneName request.zoneSerial request.approvalToken request.operation).1⟩ ::
              l.answers }
  | panicked {request : ReviewRequest} {handlers : List Handler} :
      cmd = request.command → l.waiting server = ⟨request, false⟩ :: handlers →
      Aligned ((l.handled server rounds cmd p).served server handlers) →
      Handles l server rounds cmd p
        (((l.handled server rounds cmd p).served server handlers).panic server)

theorem command_of_ofCommand {cmd : ApplicationCommand} {request : ReviewRequest}
    (h : ReviewRequest.ofCommand cmd = some request) : cmd = request.command := by
  cases cmd with
  | HandleZoneReviewApi n s token operation =>
    rw [← Option.some.inj h]
    rfl
  | _ => cases h

-- The first handler waits for the command that the server takes up.
theorem head_of_receive (haligned : Aligned l) {cmd : ApplicationCommand} {net : Net}
    (hreceive : l.pipeline.net.receive (Pipeline.reviewUnit server) = some (cmd, net))
    {request : ReviewRequest} (hcmd : ReviewRequest.ofCommand cmd = some request)
    (updates : List Update) :
    ∃ handler handlers, l.waiting server = handler :: handlers ∧ handler.request = request ∧
      handlers.map Handler.request = Pipeline.requestsTo server (net.sendAll updates) := by
  have hserved := haligned server
  rw [requestsTo_of_receive hreceive updates, if_pos rfl, hcmd] at hserved
  obtain ⟨handler, handlers, hwaiting, hrequest, hrest⟩ := List.map_eq_cons_iff.mp hserved
  exact ⟨handler, handlers, hwaiting, hrequest, hrest⟩

theorem handles_of_handleCommand (haligned : Aligned l)
    (h : l.handleCommand server rounds = some l') :
    ∃ cmd p, l.panicked server = false ∧
      l.pipeline.step (Pipeline.reviewReceive server rounds) = some p ∧
      p.reviewServer server =
        ((l.pipeline.reviewServer server).handleCommand rounds cmd).1 ∧
      (∀ other, other ≠ server → p.reviewServer other = l.pipeline.reviewServer other) ∧
      Handles l server rounds cmd p l' := by
  unfold handleCommand at h
  split at h
  · cases h
  next hrunning =>
    split at h
    next cmd net p hreceive hstep =>
      obtain ⟨cmd', net', hreceive', hnet, hserver, hothers⟩ := reviewReceive_spec hstep
      obtain ⟨rfl, rfl⟩ := Prod.mk.inj (Option.some.inj (hreceive.symm.trans hreceive'))
      have hrequests := requestsTo_of_receive hreceive
        ((l.pipeline.reviewServer server).handleCommand rounds cmd).2
      rw [← hnet] at hrequests
      refine ⟨cmd, p, Bool.eq_false_iff.mpr hrunning, hstep, hserver, hothers, ?_⟩
      cases hcmd : ReviewRequest.ofCommand cmd with
      | none =>
        rw [hcmd] at h hrequests
        rw [← Option.some.inj h]
        refine .other hcmd ?_
        intro other
        have hother := haligned other
        rw [hrequests other] at hother
        have hnone : (if other = server then (none : Option ReviewRequest).toList else []) = [] :=
          ite_self _
        rw [hnone] at hother
        exact hother
      | some request =>
        rw [hcmd] at h hrequests
        obtain ⟨handler, handlers, hwaiting, hrequest, hrest⟩ :=
          head_of_receive haligned hreceive hcmd
            ((l.pipeline.reviewServer server).handleCommand rounds cmd).2
        rw [← hnet] at hrest
        have hnext : Aligned ((l.handled server rounds cmd p).served server handlers) := by
          refine haligned.update rfl hrest ?_
          intro other hsame
          rw [hrequests other, if_neg hsame]
          rfl
        have hcommand := command_of_ofCommand hcmd
        have hanswer : (l.handled server rounds cmd p).waiting server = handler :: handlers :=
          hwaiting
        cases handler with
        | mk request' connected =>
          subst hrequest
          cases connected with
          | true =>
            simp only [answer, hanswer, if_true] at h
            rw [← Option.some.inj h]
            exact .answered hcommand hwaiting hnext
          | false =>
            simp only [answer, hanswer, Bool.false_eq_true, if_false] at h
            rw [← Option.some.inj h]
            exact .panicked hcommand hwaiting hnext
    · cases h

-- A server that stops loses the commands that have come to it, and their handlers.
theorem Aligned.panic (h : Aligned l) (server : Source) : Aligned (l.panic server) := by
  have hdiscarded : ∀ other, Pipeline.requestsTo other (l.panic server).pipeline.net =
      if Pipeline.reviewUnit other = Pipeline.reviewUnit server then
        (Pipeline.requestsTo other l.pipeline.net).drop ((l.pipeline.net.inbox
          (Pipeline.reviewUnit other)).filterMap ReviewRequest.ofCommand).length
      else Pipeline.requestsTo other l.pipeline.net :=
    fun _ ↦ Router.picked_discard _ _ _
  refine h.update rfl ?_ ?_
  · rw [hdiscarded server, if_pos rfl, List.map_drop, h server]
  · intro other hsame
    rw [hdiscarded other, if_neg (fun heq ↦ hsame (reviewUnit_inj heq))]

theorem Aligned.request (h : Aligned l) (server : Source) (request : ReviewRequest) :
    Aligned (l.request server request) := by
  have hposted : ∀ other, Pipeline.requestsTo other (l.request server request).pipeline.net =
      Pipeline.requestsTo other l.pipeline.net ++
        if Pipeline.reviewUnit server = Pipeline.reviewUnit other then
          (ReviewRequest.ofCommand request.command).toList else [] :=
    fun other ↦ Router.picked_post Pipeline.ofCommand_routed l.pipeline.net
      (Pipeline.reviewUnit server) (Pipeline.reviewUnit other) request.command
  refine h.update rfl ?_ ?_
  · rw [hposted server, if_pos rfl, List.map_append, h server]
    rfl
  · intro other hsame
    rw [hposted other, if_neg (fun heq ↦ hsame (reviewUnit_inj heq).symm), List.append_nil]

theorem Aligned.leave (h : Aligned l) (server : Source) (i : Nat) :
    Aligned (l.leave server i) := by
  refine h.update rfl (Eq.trans (List.ext_getElem? ?_) (h server)) (fun _ _ ↦ rfl)
  intro k
  rw [List.getElem?_map, List.getElem?_map, List.getElem?_modify]
  cases (l.waiting server)[k]? with
  | none => rfl
  | some handler =>
    by_cases hi : i = k
    · simp [hi]
    · simp [hi]

/-! ## Steps -/

/-- What a step does. -/
inductive Turn (l : ReviewApi) : Action → ReviewApi → Prop
  | refused {server : Source} {action token : String} {params : HashMap String String} :
      Turn l (.request server action token params) l
  | request {server : Source} {action token : String} {params : HashMap String String}
      (request : ReviewRequest) :
      Turn l (.request server action token params) (l.request server request)
  | leave (server : Source) (i : Nat) : Turn l (.leave server i) (l.leave server i)
  | crash {server : Source} :
      l.panicked server = true → Turn l (.unit .forward) { l with crashed := true }
  | others {a : Pipeline.Action} {p : Pipeline} : l.pipeline.step a = some p →
      (∀ server n s token operation, a ≠ .review server n s token operation) →
      a.task ≠ .rs → a.task ≠ .rs2 → Turn l (.unit a) { l with pipeline := p }
  | command {server : Source} {rounds : Nat → Uuid × Bool} {cmd : ApplicationCommand}
      {p : Pipeline} {l' : ReviewApi} : l.panicked server = false →
      l.pipeline.step (Pipeline.reviewReceive server rounds) = some p →
      p.reviewServer server = ((l.pipeline.reviewServer server).handleCommand rounds cmd).1 →
      (∀ other, other ≠ server → p.reviewServer other = l.pipeline.reviewServer other) →
      Handles l server rounds cmd p l' →
      Turn l (.unit (Pipeline.reviewReceive server rounds)) l'

theorem panicked_of_isPanicked {u : UnitName} (h : l.isPanicked u = true) :
    ∃ server, l.panicked server = true := by
  cases u with
  | RS => exact ⟨.UnsignedZones, h⟩
  | RS2 => exact ⟨.SignedZones, h⟩
  | _ => cases h

theorem turn_of_others {a : Pipeline.Action} (h : l.others a = some l')
    (hreview : ∀ server n s token operation, a ≠ .review server n s token operation)
    (hrs : a.task ≠ .rs) (hrs2 : a.task ≠ .rs2) : Turn l (.unit a) l' := by
  obtain ⟨p, hp, hl'⟩ := Option.map_eq_some_iff.mp h
  rw [← hl']
  exact .others hp hreview hrs hrs2

theorem turn_of_handleCommand (haligned : Aligned l)
    (h : l.handleCommand server rounds = some l') :
    Turn l (.unit (Pipeline.reviewReceive server rounds)) l' := by
  obtain ⟨cmd, p, hrunning, hstep, hserver, hothers, hhandles⟩ :=
    handles_of_handleCommand haligned h
  exact .command hrunning hstep hserver hothers hhandles

theorem turn_of_step {texts : RequestTexts} {a : Action} (haligned : Aligned l)
    (h : step texts l a = some l') : l.crashed = false ∧ Turn l a l' := by
  unfold step at h
  split at h
  · cases h
  next hrunning =>
    refine ⟨Bool.eq_false_iff.mpr hrunning, ?_⟩
    cases a with
    | request server action token params =>
      dsimp only at h
      split at h
      next request _ =>
        rw [← Option.some.inj h]
        exact .request request
      · rw [← Option.some.inj h]
        exact .refused
    | leave server i =>
      rw [← Option.some.inj h]
      exact .leave server i
    | unit a =>
      cases a with
      | review _ _ _ _ _ => cases h
      | rsReceive rounds =>
        have hturn : Turn l (.unit (Pipeline.reviewReceive .UnsignedZones rounds)) l' :=
          turn_of_handleCommand haligned h
        exact hturn
      | rs2Receive rounds =>
        have hturn : Turn l (.unit (Pipeline.reviewReceive .SignedZones rounds)) l' :=
          turn_of_handleCommand haligned h
        exact hturn
      | forward =>
        simp only [unitNext, forward] at h
        split at h
        · cases h
        · split at h
          next hpanicked =>
            rw [← Option.some.inj h]
            obtain ⟨server, hserver⟩ := panicked_of_isPanicked hpanicked
            exact .crash hserver
          · exact turn_of_others h (by simp) (by decide) (by decide)
      | _ => exact turn_of_others h (by simp) (by intro heq; cases heq) (by intro heq; cases heq)

theorem Aligned.turn {a : Action} (h : Aligned l) (hturn : Turn l a l') : Aligned l' := by
  cases hturn with
  | refused => exact h
  | request request => exact h.request _ request
  | leave server i => exact h.leave server i
  | crash _ => exact h
  | others hp hreview hrs hrs2 =>
    intro server
    rw [h server]
    exact ((Pipeline.passes_of_step hp hreview hrs hrs2).requestsTo server).symm
  | command _ _ _ _ hhandles =>
    cases hhandles with
    | other _ hnext => exact hnext
    | answered _ _ hnext => exact hnext
    | panicked _ _ hnext => exact hnext.panic _

/-! ## Answers and decisions -/

-- What a client is told of its request is what has been recorded of it.
theorem event_of_answer (zs : ZoneServer server) (request : ReviewRequest)
    (rounds : Nat → Uuid × Bool) :
    (ReviewAnswer.event ⟨server, request, statusOf (zs.processRequest request.zoneName
      request.zoneSerial request.approvalToken request.operation).1⟩ server).toList =
      Review.record zs rounds request.command := by
  obtain ⟨n, s, token, operation⟩ := request
  rcases ZoneServer.processRequest_cases zs n s token operation with
    hrefused | ⟨given, zs', sent, rfl, hrun, -⟩
  · have hrecord := Review.record_of_refused rounds hrefused
    rw [ReviewRequest.command, hrecord]
    simp [ReviewAnswer.event, hrefused, statusOf]
  · simp only [ReviewAnswer.event, ReviewRequest.command, Review.record, hrun, statusOf]
    cases operation with
    | approve => rfl
    | reject => rfl

theorem decisions_of_request (zs : ZoneServer server) (request : ReviewRequest)
    (rounds : Nat → Uuid × Bool) :
    decisions (Review.record zs rounds request.command) =
      Review.record zs rounds request.command := by
  rw [← event_of_answer]
  apply List.filter_eq_self.mpr
  intro e he
  obtain ⟨-, hevent⟩ := Option.ite_none_right_eq_some.mp (Option.mem_toList.mp he)
  obtain ⟨token, -, htoken⟩ := Option.map_eq_some_iff.mp hevent
  rw [← htoken]
  cases request.operation with
  | approve => rfl
  | reject => rfl

theorem decisions_of_other (zs : ZoneServer server) (rounds : Nat → Uuid × Bool)
    {cmd : ApplicationCommand} (h : ReviewRequest.ofCommand cmd = none) :
    decisions (Review.record zs rounds cmd) = [] := by
  have hseek : ∀ n s, decisions (if (n, s) ∈ zs.lastApprovals then []
      else [.sought (n, s) (zs.hookRounds rounds)]) = [] := by
    intro n s
    split
    · rfl
    · rfl
  cases cmd with
  | HandleZoneReviewApi n s token operation => cases h
  | SeekApprovalForUnsignedZone n s => exact hseek n s
  | SeekApprovalForSignedZone n s => exact hseek n s
  | Changed | RefreshZone | SignZone | PublishSignedZone | RegisterZone => rfl

theorem told_cons {answer : ReviewAnswer} (h : l'.answers = answer :: l.answers) :
    l'.told other = (answer.event other).toList ++ l.told other := by
  rw [told, h, List.filterMap_cons]
  split
  next hnone =>
    rw [hnone]
    rfl
  next hsome =>
    rw [hsome]
    rfl

theorem told_panic : (l.panic server).told other = l.told other := by
  show (List.filterMap _ (List.map _ _ ++ l.answers)) = _
  rw [List.filterMap_append, List.filterMap_map]
  have hnothing : ((fun answer ↦ answer.event other) ∘ fun handler : Handler ↦
      (⟨server, handler.request, .INTERNAL_SERVER_ERROR⟩ : ReviewAnswer)) = fun _ ↦ none := by
    funext handler
    simp [ReviewAnswer.event]
  rw [hnothing, List.filterMap_none]
  rfl

section

variable {cmd : ApplicationCommand} (h : Handles l server rounds cmd p l')

include h

-- The answer does not touch the server.
theorem review_of_handles (other : Source) :
    l'.review other = (l.handled server rounds cmd p).review other := by
  cases h with
  | other _ _ => rfl
  | answered _ _ _ => rfl
  | panicked _ _ _ =>
    cases other with
    | UnsignedZones => rfl
    | SignedZones => rfl

-- The clients hear of the decision that a command brings, unless the client who is to hear of it has
-- gone away.
theorem told_of_handles (other : Source) :
    l'.told other = (if other = server then
      decisions (Review.record (l.pipeline.reviewServer server) rounds cmd) else []) ++
        l.told other ∨
      l'.told other = l.told other ∧ ∃ handler ∈ l.waiting server, handler.connected = false := by
  cases h with
  | other hcmd _ =>
    left
    rw [decisions_of_other _ _ hcmd, ite_self, List.nil_append]
    rfl
  | @answered request handlers hcmd _ _ =>
    left
    refine (told_cons rfl).trans ?_
    by_cases hsame : other = server
    · subst hsame
      rw [if_pos rfl, hcmd, event_of_answer, decisions_of_request]
    · rw [if_neg hsame, ReviewAnswer.event, if_neg (fun hboth ↦ hsame hboth.1.symm)]
      rfl
  | panicked _ hwaiting _ => exact Or.inr ⟨told_panic, _, hwaiting ▸ List.mem_cons_self, rfl⟩

end

theorem logs_handled (other : Source) : (l.handled server rounds cmd p).logs other =
    (if other = server then
      ((l.pipeline.reviewServer server).handleCommand rounds cmd).2.map .sent ++
        Review.record (l.pipeline.reviewServer server) rounds cmd else []) ++ l.logs other := by
  by_cases hsame : other = server
  · subst hsame
    rw [if_pos rfl]
    exact Function.update_self ..
  · rw [if_neg hsame]
    exact Function.update_of_ne hsame ..

theorem decisions_handled (other : Source) : decisions ((l.handled server rounds cmd p).logs other) =
    (if other = server then
      decisions (Review.record (l.pipeline.reviewServer server) rounds cmd) else []) ++
        decisions (l.logs other) := by
  rw [logs_handled]
  by_cases hsame : other = server
  · simp [decisions, hsame, ReviewEvent.isDecision]
  · simp [hsame]

/-- What the clients of a server were told has been decided in this order, and a server with hooks is
in a run of `Review`. -/
structure Truthful (l : ReviewApi) (server : Source) : Prop where
  told : (l.told server).Sublist (decisions (l.logs server))
  reviewed : (l.pipeline.reviewServer server).hooks ≠ [] →
    Reach Review.step anyStep Review.Started (l.review server)

theorem Truthful.keep (h : Truthful l server) (htold : l'.told server = l.told server)
    (hreview : l'.review server = l.review server) : Truthful l' server := by
  have hlogs : l'.logs server = l.logs server := congrArg Review.log hreview
  have hserver : l'.pipeline.reviewServer server = l.pipeline.reviewServer server :=
    congrArg Review.server hreview
  constructor
  · rw [htold, hlogs]
    exact h.told
  · rw [hserver, hreview]
    exact h.reviewed

-- The command is the next one of the run.
theorem Truthful.handles {cmd : ApplicationCommand} (h : Truthful l server)
    (hserver : p.reviewServer server = ((l.pipeline.reviewServer server).handleCommand rounds cmd).1)
    (hhandles : Handles l server rounds cmd p l') : Truthful l' server := by
  have hreview := review_of_handles hhandles server
  have hlogs : l'.logs server = (l.handled server rounds cmd p).logs server :=
    congrArg Review.log hreview
  have hnext : l'.pipeline.reviewServer server =
      ((l.pipeline.reviewServer server).handleCommand rounds cmd).1 :=
    (congrArg Review.server hreview).trans hserver
  constructor
  · rw [hlogs, decisions_handled]
    rcases told_of_handles hhandles server with htold | ⟨htold, -⟩
    · rw [htold]
      exact (List.Sublist.refl _).append h.told
    · rw [htold]
      exact h.told.trans (List.sublist_append_right _ _)
  · intro hhooks
    have hstep : Review.step (l.review server) (cmd, rounds) = some (l'.review server) := by
      show _ = some (⟨l'.pipeline.reviewServer server, l'.logs server⟩ : Review server)
      rw [hnext, hlogs, logs_handled, if_pos rfl]
      rfl
    rw [hnext, ZoneServer.hooks_handleCommand] at hhooks
    exact .next (h.reviewed hhooks) trivial hstep

theorem Truthful.turn {a : Action} (h : Truthful l server) (hturn : Turn l a l') :
    Truthful l' server := by
  cases hturn with
  | refused => exact h
  | request request =>
    refine h.keep rfl ?_
    cases server with
    | UnsignedZones => rfl
    | SignedZones => rfl
  | leave server i => exact h.keep rfl rfl
  | crash _ => exact h.keep rfl rfl
  | others hp _ hrs hrs2 =>
    refine h.keep rfl ?_
    have hframe := Pipeline.step_frame hp
    cases server with
    | UnsignedZones => exact congrArg (Review.mk · _) (hframe.rs hrs)
    | SignedZones => exact congrArg (Review.mk · _) (hframe.rs2 hrs2)
  | @command other rounds cmd p _ _ _ hserver hothers hhandles =>
    by_cases hsame : server = other
    · subst hsame
      exact h.handles hserver hhandles
    · have htold := told_of_handles hhandles server
      rw [if_neg hsame, List.nil_append] at htold
      refine h.keep (htold.elim id And.left) ?_
      have hlogs : (l.handled other rounds cmd p).logs server = l.logs server := by
        rw [logs_handled, if_neg hsame, List.nil_append]
      rw [review_of_handles hhandles server]
      show (⟨p.reviewServer server, _⟩ : Review server) = _
      rw [hothers server hsame, hlogs]
      rfl

/-- No client goes away, and nothing is announced on a full channel. -/
def calm (l : ReviewApi) : Action → Bool
  | .request _ _ _ _ => true
  | .leave _ _ => false
  | .unit a => l.pipeline.leavesRoom a

/-- The requests to a server that have passed the checks, in order. -/
def requests (l : ReviewApi) (server : Source) : List ReviewRequest :=
  l.answered server ++ (l.waiting server).map Handler.request

structure Calm (l : ReviewApi) : Prop where
  aligned : Aligned l
  roomy : l.pipeline.Roomy
  connected : ∀ server, ∀ handler ∈ l.waiting server, handler.connected = true
  running : ∀ server, l.panicked server = false
  crashed : l.crashed = false
  told : ∀ server, l.told server = decisions (l.logs server)

/-- A server that gives its answer to the first handler. -/
structure Serves (l : ReviewApi) (server : Source) (p : Pipeline) (l' : ReviewApi) : Prop where
  pipeline : l'.pipeline = p
  panicked : l'.panicked = l.panicked
  crashed : l'.crashed = l.crashed
  waiting : ∀ other, (l'.waiting other).Sublist (l.waiting other)
  told : ∀ other, l'.told other = decisions (l'.logs other)
  requests : ∀ other, l'.requests other = l.requests other

theorem Calm.serves {cmd : ApplicationCommand} (h : Calm l)
    (hhandles : Handles l server rounds cmd p l') : Serves l server p l' := by
  have htold : ∀ other, l'.told other = decisions (l'.logs other) := by
    intro other
    have hlogs : l'.logs other = (l.handled server rounds cmd p).logs other :=
      congrArg Review.log (review_of_handles hhandles other)
    rcases told_of_handles hhandles other with htold | ⟨-, handler, hmem, hgone⟩
    · rw [htold, hlogs, decisions_handled, h.told other]
    · exact absurd (h.connected server handler hmem) (by simp [hgone])
  cases hhandles with
  | other _ _ => exact ⟨rfl, rfl, rfl, fun _ ↦ List.Sublist.refl _, htold, fun _ ↦ rfl⟩
  | @answered request handlers _ hwaiting _ =>
    refine ⟨rfl, rfl, rfl, ?_, htold, ?_⟩
    · intro other
      show (Function.update l.waiting server handlers other).Sublist _
      by_cases hsame : other = server
      · rw [hsame, Function.update_self, hwaiting]
        exact List.sublist_cons_self _ _
      · rw [Function.update_of_ne hsame]
    · intro other
      by_cases hsame : other = server
      · subst hsame
        simp [requests, answered, served, handled, hwaiting]
      · have hskip : server ≠ other := fun heq ↦ hsame heq.symm
        simp [requests, answered, served, handled, hsame, hskip]
  | panicked _ hwaiting _ => cases h.connected server _ (hwaiting ▸ List.mem_cons_self)

theorem Calm.turn {a : Action} (h : Calm l) (hcalm : l.calm a = true) (hturn : Turn l a l') :
    Calm l' := by
  have haligned := h.aligned.turn hturn
  cases hturn with
  | refused => exact h
  | @request server _ _ _ request =>
    refine ⟨haligned, ?_, ?_, h.running, h.crashed, h.told⟩
    · refine .next (a := .review server request.zoneName request.zoneSerial request.approvalToken
        request.operation) h.roomy ?_ rfl
      exact decide_eq_true h.roomy.room
    · intro other handler hmem
      by_cases hsame : other = server
      · subst hsame
        have hmem : handler ∈ l.waiting other ++ [⟨request, true⟩] := by
          simpa [ReviewApi.request] using hmem
        rcases List.mem_append.mp hmem with hmem | hnew
        · exact h.connected other handler hmem
        · rw [List.mem_singleton.mp hnew]
      · have hmem : handler ∈ l.waiting other := by
          simpa [ReviewApi.request, Function.update_of_ne hsame] using hmem
        exact h.connected other handler hmem
  | leave _ _ => cases hcalm
  | @crash server hpanicked =>
    rw [h.running server] at hpanicked
    cases hpanicked
  | others hp _ _ _ =>
    exact ⟨haligned, .next h.roomy hcalm hp, h.connected, h.running, h.crashed, h.told⟩
  | command _ hp _ _ hhandles =>
    have hserves := h.serves hhandles
    refine ⟨haligned, ?_, ?_, ?_, hserves.crashed.trans h.crashed, hserves.told⟩
    · rw [hserves.pipeline]
      exact .next h.roomy hcalm hp
    · intro other handler hmem
      exact h.connected other handler ((hserves.waiting other).subset hmem)
    · rw [hserves.panicked]
      exact h.running

-- The units take the same steps as without the handlers.
theorem Calm.own {a : Pipeline.Action} (h : Calm l) (hturn : Turn l (.unit a) l') :
    l.pipeline.step a = some l'.pipeline ∧ ∀ server, l'.requests server = l.requests server := by
  cases hturn with
  | @crash server hpanicked =>
    rw [h.running server] at hpanicked
    cases hpanicked
  | others hp _ _ _ => exact ⟨hp, fun _ ↦ rfl⟩
  | command _ hp _ _ hhandles =>
    have hserves := h.serves hhandles
    rw [hserves.pipeline]
    exact ⟨hp, hserves.requests⟩

theorem Calm.exists_handleCommand (h : Calm l)
    (hp : l.pipeline.step (Pipeline.reviewReceive server rounds) = some p) :
    ∃ l', l.handleCommand server rounds = some l' := by
  obtain ⟨cmd, net, hreceive, -⟩ := reviewReceive_spec hp
  simp only [handleCommand, h.running server, hreceive, hp, Bool.false_eq_true, if_false]
  cases hcmd : ReviewRequest.ofCommand cmd with
  | none => exact ⟨_, rfl⟩
  | some request =>
    obtain ⟨handler, handlers, hwaiting, -⟩ := head_of_receive h.aligned hreceive hcmd []
    have hconnected := h.connected server handler (hwaiting ▸ List.mem_cons_self)
    have hfirst : (l.handled server rounds cmd p).waiting server = handler :: handlers := hwaiting
    simp only [answer, hfirst, hconnected, if_true]
    exact ⟨_, rfl⟩

theorem Calm.exists_step {a : Pipeline.Action} (h : Calm l) (texts : RequestTexts)
    (hown : a.isOwn = true) (hp : l.pipeline.step a = some p) :
    ∃ l', step texts l (.unit a) = some l' := by
  have hrunning : ∀ u, l.isPanicked u = false := by
    intro u
    cases u with
    | RS => exact h.running .UnsignedZones
    | RS2 => exact h.running .SignedZones
    | _ => rfl
  have hothers : ∃ l', l.others a = some l' := ⟨_, Option.map_eq_some_iff.mpr ⟨p, hp, rfl⟩⟩
  simp only [step, h.crashed, Bool.false_eq_true, if_false]
  cases a with
  | review _ _ _ _ _ => cases hown
  | rsReceive rounds => exact h.exists_handleCommand hp
  | rs2Receive rounds => exact h.exists_handleCommand hp
  | forward =>
    cases hcommands : l.pipeline.appCmds with
    | nil => simp [Pipeline.step, Router.forward, Pipeline.net, hcommands] at hp
    | cons command commands =>
      simp only [unitNext, forward, hcommands, hrunning, Bool.false_eq_true, if_false]
      exact hothers
  | _ => exact hothers

-- What the units do without anything from outside, with the handlers.
theorem Calm.ownStep {a : Pipeline.Action} (h : Calm l) (texts : RequestTexts)
    (hp : l.pipeline.ownStep a = some p) :
    ∃ l', step texts l (.unit a) = some l' ∧ l'.pipeline = p ∧ Calm l' ∧
      ∀ server, l'.requests server = l.requests server := by
  obtain ⟨hown, hroom, hstep⟩ := Pipeline.of_ownStep hp
  have hcalm : l.calm (.unit a) = true := hroom
  obtain ⟨l', hl'⟩ := h.exists_step texts hown hstep
  obtain ⟨-, hturn⟩ := turn_of_step h.aligned hl'
  obtain ⟨hstep', hrequests⟩ := h.own hturn
  exact ⟨l', hl', Option.some.inj (hstep'.symm.trans hstep), h.turn hcalm hturn, hrequests⟩

theorem waiting_of_atRest (haligned : Aligned l) (h : l.pipeline.AtRest) (server : Source) :
    l.waiting server = [] := by
  have hnothing : Pipeline.requestsTo server l.pipeline.net = [] := by
    have hinbox : l.pipeline.inbox (Pipeline.reviewUnit server) = [] := by
      cases server with
      | UnsignedZones => exact h.reviews.1
      | SignedZones => exact h.reviews.2
    simp [Pipeline.requestsTo, Router.picked, Router.inFlight, Pipeline.net, hinbox, h.updates,
      h.commands]
  exact List.map_eq_nil_iff.mp ((haligned server).trans hnothing)

theorem Calm.answered (h : Calm l) (texts : RequestTexts) :
    ∃ as l', exec (fun l a ↦ step texts l (.unit a)) l as = some l' ∧
      ∀ server, l'.waiting server = [] ∧ l'.answered server = l.requests server := by
  obtain ⟨as, p, hrun, hrest⟩ := h.roomy.exists_exec_atRest
  have hlifted : ∃ l', exec (fun l a ↦ step texts l (.unit a)) l as = some l' ∧
      l'.pipeline = p ∧ Calm l' ∧ ∀ server, l'.requests server = l.requests server := by
    refine exec_related (R := fun p l' ↦ l'.pipeline = p ∧ Calm l' ∧
      ∀ server, l'.requests server = l.requests server) ?_ ⟨rfl, h, fun _ ↦ rfl⟩ hrun
    rintro p l1 a p' ⟨hpipeline, hcalm, hrequests⟩ hown
    rw [← hpipeline] at hown
    obtain ⟨l2, hl2, hpipeline', hcalm', hrequests'⟩ := hcalm.ownStep texts hown
    exact ⟨l2, hl2, hpipeline', hcalm', fun server ↦ (hrequests' server).trans (hrequests server)⟩
  obtain ⟨l', hl', hpipeline, hcalm, hrequests⟩ := hlifted
  rw [← hpipeline] at hrest
  refine ⟨as, l', hl', ?_⟩
  intro server
  have hnobody := waiting_of_atRest hcalm.aligned hrest server
  refine ⟨hnobody, ?_⟩
  rw [← hrequests server, requests, hnobody, List.map_nil, List.append_nil]

namespace OneZone

open Pipeline.OneZone

def texts : RequestTexts where
  zoneName := fun name ↦ if name = "e" then some zone else none
  zoneSerial := fun serial ↦ if serial = "1" then some ⟨1⟩ else none
  approvalToken := fun token ↦
    if token = "00000000-0000-0000-0000-000000000001" then some 1 else none

/-- A client that has the token 1. -/
def client (action : String) : Action :=
  .request .UnsignedZones action "00000000-0000-0000-0000-000000000001"
    (AList.insert "zone" "e" (AList.insert "serial" "1" ∅))

end OneZone

end ReviewApi

end Cascade

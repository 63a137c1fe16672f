import Cascade.Steps

/-!
# Review of signed versions

The review server for signed zones remembers every zone and serial that it approved, and skips
requests to approve them again.  Signing a zone again does not change its serial, so a version that
is signed again after its approval is not reviewed.  Here the server has hooks, and all of them can
be started.
-/

namespace Cascade

open Lib

namespace ZoneServer

variable {source : Source}

-- A server with hooks approves on request only, and remembers what it approves.
theorem lastApprovals_handleCommand {zs : ZoneServer source} (hhooks : zs.hooks ≠ [])
    (rounds : Nat → Uuid × Bool) (cmd : ApplicationCommand) (k : Name × Serial) :
    k ∈ (zs.handleCommand rounds cmd).1.lastApprovals ↔
      k ∈ zs.lastApprovals ∨ source.approvedEvent k.1 k.2 ∈ (zs.handleCommand rounds cmd).2 := by
  have hseek : ∀ n s, k ∈ (zs.onSeekApproval n s rounds).1.lastApprovals ↔
      k ∈ zs.lastApprovals ∨ source.approvedEvent k.1 k.2 ∈ (zs.onSeekApproval n s rounds).2 := by
    intro n s
    unfold onSeekApproval
    split
    · simp
    · simp [hhooks]
  cases cmd with
  | HandleZoneReviewApi n s token operation =>
    simp only [handleCommand]
    rcases processRequest_cases zs n s token operation with
      hrefused | ⟨given, zs', sent, -, hrun, haccepted⟩
    · simp [hrefused]
    · rw [hrun]
      cases haccepted with
      | last =>
        rw [AList.mem_insert, List.mem_singleton]
        refine ⟨?_, ?_⟩
        · intro h
          rcases h with h | h
          · exact Or.inr (by rw [h])
          · exact Or.inl h
        · intro h
          rcases h with h | h
          · exact Or.inr h
          · rcases approvedEvent_inj h with ⟨hn, hs⟩
            exact Or.inl (Prod.ext hn hs)
      | more => simp
      | reject => simp
  | SeekApprovalForUnsignedZone n s => exact hseek n s
  | SeekApprovalForSignedZone n s => exact hseek n s
  | Changed | RefreshZone | SignZone | PublishSignedZone | RegisterZone =>
    simp [handleCommand]

end ZoneServer

namespace Pipeline

/-- The daemon right after its start, with hooks on the review server for signed zones. -/
def StartedWithHooks (p : Pipeline) : Prop :=
  ∃ center rsHooks hook rs2Hooks, center.updateTx = [] ∧
    p = Pipeline.new center rsHooks (hook :: rs2Hooks)

/-- Every hook of that server can be started. -/
def hooksStart (p : Pipeline) : Action → Bool
  | .rs2Receive rounds => (p.rs2.hookRounds rounds).all (·.2)
  | _ => true

/-- The version that the server is asked to approve by its next command. -/
def nextRequest (p : Pipeline) : Option (Name × Serial) :=
  match p.net.receive .RS2 with
  | some (.SeekApprovalForSignedZone n s, _) => some (n, s)
  | _ => none

/-- The zone was approved under this serial before. -/
def ApprovedBefore (p : Pipeline) (n : Name) (s : Serial) : Prop :=
  ∃ content, ⟨n, s, content⟩ ∈ p.approvals

/-- From `p` to `p'` the approval of the version was sent, or in `p'` it is pending. -/
def Considered (p p' : Pipeline) (n : Name) (s : Serial) : Prop :=
  (∃ content, p'.approvals = p.approvals ++ [⟨n, s, content⟩]) ∨
    ∃ token tokens, p'.rs2.pendingApprovals.lookup (n, s) = some (token :: tokens)

/-- The invariant: the server remembers exactly what was approved. -/
structure Remembers (p : Pipeline) : Prop where
  hooks : p.rs2.hooks ≠ []
  approved : ∀ n s, (n, s) ∈ p.rs2.lastApprovals ↔ p.ApprovedBefore n s

theorem remembers_started {p : Pipeline} (h : p.StartedWithHooks) : p.Remembers := by
  rcases h with ⟨center, rsHooks, hook, rs2Hooks, -, rfl⟩
  refine ⟨?_, ?_⟩
  · intro hnil
    cases hnil
  · intro n s
    simp [Pipeline.new, ZoneServer.new, ApprovedBefore]

-- What is recorded of the events that the server sends.
theorem approvedBefore_append {p p' : Pipeline} {sent : List Update}
    (h : p'.approvals = p.approvals ++ sent.filterMap p.approvalOf) (n : Name) (s : Serial) :
    p'.ApprovedBefore n s ↔ p.ApprovedBefore n s ∨ .SignedZoneApprovedEvent n s ∈ sent := by
  unfold ApprovedBefore
  rw [h]
  refine ⟨?_, ?_⟩
  · intro hafter
    rcases hafter with ⟨content, hmem⟩
    rcases List.mem_append.mp hmem with hmem | hmem
    · exact Or.inl ⟨content, hmem⟩
    · rcases List.mem_filterMap.mp hmem with ⟨update, hupdate, heq⟩
      cases update with
      | SignedZoneApprovedEvent m t =>
        injection heq with heq
        injection heq with hm ht _
        exact Or.inr (hm ▸ ht ▸ hupdate)
      | _ => cases heq
  · intro hbefore
    rcases hbefore with ⟨content, hmem⟩ | hsent
    · exact ⟨content, List.mem_append_left _ hmem⟩
    · exact ⟨_, List.mem_append_right _ (List.mem_filterMap.mpr ⟨_, hsent, rfl⟩)⟩

theorem Remembers.step {p p' : Pipeline} {a : Action} (hinv : p.Remembers)
    (h : p.step a = some p') : p'.Remembers := by
  have hframe := step_frame h
  by_cases ha : a.task = .rs2
  · cases a with
    | rs2Receive rounds =>
      rcases rs2Receive_spec h with ⟨cmd, net, -, rfl⟩
      refine ⟨?_, ?_⟩
      · show (p.rs2.handleCommand rounds cmd).1.hooks ≠ []
        rw [ZoneServer.hooks_handleCommand]
        exact hinv.hooks
      · intro n s
        rw [approvedBefore_append (p := p) rfl, ← hinv.approved]
        exact ZoneServer.lastApprovals_handleCommand hinv.hooks rounds cmd (n, s)
    | _ => cases ha
  · refine ⟨?_, ?_⟩
    · rw [hframe.rs2 ha]
      exact hinv.hooks
    · intro n s
      unfold ApprovedBefore
      rw [hframe.rs2 ha, hframe.approvals ha]
      exact hinv.approved n s

theorem nextRequest_spec {p : Pipeline} {n : Name} {s : Serial}
    (h : p.nextRequest = some (n, s)) :
    ∃ net, p.net.receive .RS2 = some (.SeekApprovalForSignedZone n s, net) := by
  unfold nextRequest at h
  split at h
  next hreceive =>
    cases h
    exact ⟨_, hreceive⟩
  · cases h

/-- On a daemon whose review server for signed zones has hooks, all of which can be started, a
request to approve a version of a zone and serial not approved before sends the approval or leaves
the version pending.  A request for a zone and serial that were approved before is skipped. -/
theorem signed_versions_reviewed_once {p p' : Pipeline} {rounds : Nat → Uuid × Bool} {n : Name}
    {s : Serial} (h : Reach Pipeline.step (fun p a ↦ hooksStart p a = true) StartedWithHooks p)
    (hrequest : p.nextRequest = some (n, s))
    (hstart : hooksStart p (.rs2Receive rounds) = true)
    (hstep : p.step (.rs2Receive rounds) = some p') :
    (¬p.ApprovedBefore n s → Considered p p' n s) ∧
      (p.ApprovedBefore n s → p'.rs2 = p.rs2 ∧ p'.approvals = p.approvals) := by
  have hinv : p.Remembers := h.invariant (fun _ ↦ remembers_started)
    (fun _ _ _ hinv _ hstep ↦ hinv.step hstep)
  rcases rs2Receive_spec hstep with ⟨cmd, net, hreceive, rfl⟩
  rcases nextRequest_spec hrequest with ⟨net', hreceive'⟩
  rw [hreceive] at hreceive'
  cases hreceive'
  have hcmd : p.rs2.handleCommand rounds (.SeekApprovalForSignedZone n s) =
      p.rs2.onSeekApproval n s rounds := rfl
  rw [hcmd]
  refine ⟨?_, ?_⟩
  · intro hnew
    have hlast : (n, s) ∉ p.rs2.lastApprovals := fun hmem ↦ hnew ((hinv.approved n s).mp hmem)
    have hstarted : ∀ h ∈ p.rs2.hookRounds rounds, h.2 = true := List.all_eq_true.mp hstart
    have hsome : p.rs2.hookRounds rounds ≠ [] := by
      intro hnil
      have hlength := congrArg List.length hnil
      simp only [ZoneServer.hookRounds, List.length_map, List.length_range, List.length_nil]
        at hlength
      exact hinv.hooks (List.length_eq_zero_iff.mp hlength)
    have hpending : (p.rs2.onSeekApproval n s rounds).1.pendingApprovals.lookup (n, s) =
        some ((p.rs2.pendingApprovals.lookup (n, s)).getD [] ++
          (p.rs2.hookRounds rounds).map Prod.fst) := by
      unfold ZoneServer.onSeekApproval
      rw [if_neg hlast]
      exact (ZoneServer.lookup_runHooks_started _ hstarted _).trans (if_neg hsome)
    have hne : (p.rs2.pendingApprovals.lookup (n, s)).getD [] ++
        (p.rs2.hookRounds rounds).map Prod.fst ≠ [] := by simp [hsome]
    rcases List.exists_cons_of_ne_nil hne with ⟨token, tokens, htokens⟩
    refine Or.inr ⟨token, tokens, ?_⟩
    rw [← htokens]
    exact hpending
  · intro hbefore
    have hskip : p.rs2.onSeekApproval n s rounds = (p.rs2, []) := by
      unfold ZoneServer.onSeekApproval
      rw [if_pos ((hinv.approved n s).mpr hbefore)]
    rw [hskip]
    exact ⟨rfl, List.append_nil _⟩

/-! ## A version that is signed again -/

namespace OneZone

/-- The daemon with a hook on the review server for signed zones. -/
def reviewedDaemon : Pipeline := Pipeline.new ⟨state, [], 0⟩ [] ["approve"]

theorem reviewedDaemon_started : reviewedDaemon.StartedWithHooks :=
  ⟨⟨state, [], 0⟩, [], "approve", [], rfl, rfl⟩

/-- The hook starts, with the token 1. -/
def hookStarted : Nat → Uuid × Bool := fun _ ↦ (1, true)

def startHook : Action → Action
  | .rs2Receive _ => .rs2Receive hookStarted
  | a => a

/-- The first version is signed, and its review is the next command of the server. -/
def firstSigned : List Action :=
  (registration ++ firstTransfer ++ reviewUnsigned).map startHook ++ [.signerReceive] ++
    List.replicate 7 (.signerNext []) ++ [.direct, .forward]

/-- The first version is approved and published, and then signed again. -/
def signedAgain : List Action :=
  firstSigned ++
    [.rs2Receive hookStarted, .review .SignedZones zone ⟨1⟩ (some 1) .approve, .forward,
      .rs2Receive hookStarted, .direct, .forward, .publisherReceive, .publisherNext,
      .publisherNext, .resign zone, .direct, .forward, .signerReceive] ++
    List.replicate 7 (.signerNext []) ++ [.direct, .forward]

end OneZone

theorem first_signed_version_pending :
    ∃ p p' : Pipeline, p.nextRequest = some (OneZone.zone, ⟨1⟩) ∧
      p.step (.rs2Receive OneZone.hookStarted) = some p' ∧
      Considered p p' OneZone.zone ⟨1⟩ := by
  have hrun : (exec Pipeline.step OneZone.reviewedDaemon OneZone.firstSigned).any (fun p ↦
      decide (p.nextRequest = some (OneZone.zone, ⟨1⟩)) && decide (p.approvals = []) &&
        p.hooksStart (.rs2Receive OneZone.hookStarted) &&
        (p.step (.rs2Receive OneZone.hookStarted)).isSome) = true := by decide
  have hok : execOk Pipeline.step hooksStart OneZone.reviewedDaemon OneZone.firstSigned = true := by
    decide
  rcases Reach.of_exec OneZone.reviewedDaemon_started OneZone.firstSigned hok hrun with
    ⟨p, hreach, hp⟩
  simp only [Bool.and_eq_true, decide_eq_true_eq] at hp
  rcases hp with ⟨⟨⟨hrequest, hnone⟩, hstart⟩, hsome⟩
  rcases Option.isSome_iff_exists.mp hsome with ⟨p', hstep⟩
  refine ⟨p, p', hrequest, hstep, ?_⟩
  refine (signed_versions_reviewed_once hreach hrequest hstart hstep).1 ?_
  intro hbefore
  rcases hbefore with ⟨content, hmem⟩
  rw [hnone] at hmem
  cases hmem

/-- The version that was signed again is neither approved nor pending. -/
theorem signed_again_not_reviewed :
    ∃ p p' : Pipeline, Reach Pipeline.step (fun p a ↦ hooksStart p a = true) StartedWithHooks p ∧
      p.nextRequest = some (OneZone.zone, ⟨1⟩) ∧
      hooksStart p (.rs2Receive OneZone.hookStarted) = true ∧
      p.step (.rs2Receive OneZone.hookStarted) = some p' ∧
      ¬Considered p p' OneZone.zone ⟨1⟩ := by
  have hrun : (exec Pipeline.step OneZone.reviewedDaemon OneZone.signedAgain).any (fun p ↦
      decide (p.nextRequest = some (OneZone.zone, ⟨1⟩)) &&
        p.hooksStart (.rs2Receive OneZone.hookStarted) &&
        (p.step (.rs2Receive OneZone.hookStarted)).any (fun p' ↦
          decide (p'.approvals = p.approvals ∧
            p'.rs2.pendingApprovals.lookup (OneZone.zone, ⟨1⟩) = none))) = true := by decide
  have hok : execOk Pipeline.step hooksStart OneZone.reviewedDaemon OneZone.signedAgain = true := by
    decide
  rcases Reach.of_exec OneZone.reviewedDaemon_started OneZone.signedAgain hok hrun with
    ⟨p, hreach, hp⟩
  simp only [Bool.and_eq_true, decide_eq_true_eq] at hp
  rcases hp with ⟨⟨hrequest, hstart⟩, hsome⟩
  rcases (Option.any_eq_true _ _).mp hsome with ⟨p', hstep, hsame⟩
  rcases of_decide_eq_true hsame with ⟨happrovals, hpending⟩
  refine ⟨p, p', hreach, hrequest, hstart, hstep, ?_⟩
  intro hconsidered
  rcases hconsidered with ⟨content, hsent⟩ | ⟨token, tokens, hlookup⟩
  · rw [happrovals] at hsent
    exact absurd (congrArg List.length hsent) (by simp)
  · rw [hpending] at hlookup
    cases hlookup

end Pipeline

end Cascade

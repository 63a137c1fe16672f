import Cascade.ZoneServer
import Cascade.Lib.Runs

/-!
# Review decisions

A review server on its own, driven by any sequence of commands.  What happens to the versions under
review is recorded in a log, and an approval is justified by the log when some round of hooks was
started completely and all of its tokens were approved, with no rejection in between.
-/

namespace Cascade

open Lib

/-- `sought` is a round of hooks, with the token and the outcome of each hook.  Only requests that
the server accepts are recorded. -/
inductive ReviewEvent
  | sought (key : Name × Serial) (hooks : List (Uuid × Bool))
  | approved (key : Name × Serial) (token : Uuid)
  | rejected (key : Name × Serial) (token : Uuid)
  | sent (update : Update)
deriving DecidableEq

/-- A review server and what happened so far, the newest event first. -/
structure Review (source : Source) where
  server : ZoneServer source
  log : List ReviewEvent

namespace Review

variable {source : Source}

/-- What a command does to a version under review, the sending of events apart. -/
def record (zs : ZoneServer source) (rounds : Nat → Uuid × Bool) :
    ApplicationCommand → List ReviewEvent
  | .HandleZoneReviewApi zoneName zoneSerial (some token) operation =>
    match (zs.processRequest zoneName zoneSerial (some token) operation).1, operation with
    | .ok (), .approve => [.approved (zoneName, zoneSerial) token]
    | .ok (), .reject => [.rejected (zoneName, zoneSerial) token]
    | .error (), _ => []
  | .SeekApprovalForUnsignedZone zoneName zoneSerial
  | .SeekApprovalForSignedZone zoneName zoneSerial =>
    if (zoneName, zoneSerial) ∈ zs.lastApprovals then []
    else [.sought (zoneName, zoneSerial) (zs.hookRounds rounds)]
  | _ => []

/-- The server handles a command. -/
def step (r : Review source) (a : ApplicationCommand × (Nat → Uuid × Bool)) :
    Option (Review source) :=
  let (server, sent) := r.server.handleCommand a.2 a.1
  some { server, log := sent.map .sent ++ record r.server a.2 a.1 ++ r.log }

/-- A review server that has at least one hook, before its first command. -/
def Started (r : Review source) : Prop :=
  ∃ hook hooks, r = { server := ZoneServer.new (hook :: hooks), log := [] }

/-- There was a round for the version with `count` hooks, all of them started, since which no token
of the version was rejected and every token of the round was approved, those in `pending` apart. -/
def Justified (count : Nat) (key : Name × Serial) (pending : List Uuid)
    (log : List ReviewEvent) : Prop :=
  ∃ later hooks earlier, log = later ++ .sought key hooks :: earlier ∧
    hooks.length = count ∧ (∀ h ∈ hooks, h.2 = true) ∧
    (∀ h ∈ hooks, h.1 ∈ pending ∨ .approved key h.1 ∈ later) ∧
    ∀ token, .rejected key token ∉ later

/-- Every event that a version was approved is justified by what happened before it. -/
def LogJustified (source : Source) (count : Nat) (log : List ReviewEvent) : Prop :=
  ∀ later earlier n s, log = later ++ .sent (source.approvedEvent n s) :: earlier →
    Justified count (n, s) [] earlier

/-- If the command asks for an approval that is not skipped, then either every hook can be started
or the last one cannot. -/
def startsClean (r : Review source) (a : ApplicationCommand × (Nat → Uuid × Bool)) : Bool :=
  match ZoneServer.asksFor a.1 with
  | none => true
  | some key =>
    decide (key ∈ r.server.lastApprovals) || (r.server.hookRounds a.2).all (·.2) ||
      (r.server.hookRounds a.2).getLast?.any (!·.2)

/-! ## The log -/

-- A round stays good until one of its tokens is rejected; an approval takes a token off.
theorem Justified.cons {count : Nat} {key : Name × Serial} {pending pending' : List Uuid}
    {log : List ReviewEvent} {e : ReviewEvent} (h : Justified count key pending log)
    (hreject : ∀ token, e ≠ .rejected key token)
    (hpending : ∀ token ∈ pending, token ∈ pending' ∨ e = .approved key token) :
    Justified count key pending' (e :: log) := by
  rcases h with ⟨later, hooks, earlier, hlog, hcount, hstarted, htokens, hnone⟩
  refine ⟨e :: later, hooks, earlier, by rw [hlog]; rfl, hcount, hstarted, ?_, ?_⟩
  · intro hook hmem
    rcases htokens hook hmem with hp | ha
    · rcases hpending hook.1 hp with hp | he
      · exact Or.inl hp
      · exact Or.inr (he ▸ List.mem_cons_self)
    · exact Or.inr (List.mem_cons_of_mem _ ha)
  · intro token hmem
    rcases List.mem_cons.mp hmem with he | hmem
    · exact hreject token he.symm
    · exact hnone token hmem

theorem LogJustified.cons {count : Nat} {log : List ReviewEvent} {e : ReviewEvent}
    (h : LogJustified source count log)
    (he : ∀ n s, e = .sent (source.approvedEvent n s) → Justified count (n, s) [] log) :
    LogJustified source count (e :: log) := by
  intro later earlier n s hlog
  cases later with
  | nil =>
    injection hlog with hhead htail
    rw [← htail]
    exact he n s hhead
  | cons e' later =>
    injection hlog with _ htail
    exact h later earlier n s htail

/-! ## One command -/

/-- The invariant: the log is justified, and so will be the approval of every pending version. -/
structure Good (r : Review source) : Prop where
  hooks : r.server.hooks ≠ []
  log : LogJustified source r.server.hooks.length r.log
  pending : ∀ key tokens, r.server.pendingApprovals.lookup key = some tokens →
    Justified r.server.hooks.length key tokens r.log

-- An accepted request keeps the invariant.
theorem good_of_accepted {r : Review source} {key : Name × Serial} {token : Uuid}
    {operation : ReviewOperation} {server : ZoneServer source} {sent : List Update}
    (hgood : r.Good) (h : ZoneServer.Accepted r.server key token operation server sent) :
    Good ⟨server, sent.map .sent ++
      (match operation with
        | .approve => [.approved key token]
        | .reject => [.rejected key token]) ++ r.log⟩ := by
  -- what is not about this version stays justified
  have hother : ∀ k tokens, k ≠ key → r.server.pendingApprovals.lookup k = some tokens →
      ∀ e : ReviewEvent, (∀ t, e ≠ .rejected k t) →
        Justified r.server.hooks.length k tokens (e :: r.log) :=
    fun k tokens _ hk e he ↦ (hgood.pending k tokens hk).cons he (fun t ht ↦ Or.inl ht)
  cases h with
  | @last tokens hlookup hempty =>
    have happroved : Justified r.server.hooks.length key [] (.approved key token :: r.log) := by
      refine (hgood.pending key tokens hlookup).cons (fun t h ↦ by cases h) ?_
      intro t ht
      by_cases htoken : t = token
      · exact Or.inr (htoken ▸ rfl)
      · have hin : t ∈ tokens.erase token := (List.mem_erase_of_ne htoken).mpr ht
        rw [hempty] at hin
        cases hin
    refine ⟨hgood.hooks, ?_, ?_⟩
    · refine (hgood.log.cons (fun n s h ↦ by cases h)).cons ?_
      intro n s h
      injection h with h
      rcases ZoneServer.approvedEvent_inj h with ⟨hn, hs⟩
      rw [← hn, ← hs]
      exact happroved
    · intro k tokens' hk
      by_cases heq : k = key
      · subst heq
        simp at hk
      · have hold : r.server.pendingApprovals.lookup k = some tokens' := by simpa [heq] using hk
        exact (hother k tokens' heq hold _ (fun t h ↦ by cases h)).cons (fun t h ↦ by cases h)
          (fun t ht ↦ Or.inl ht)
  | @more tokens hlookup =>
    refine ⟨hgood.hooks, hgood.log.cons (fun n s h ↦ by cases h), ?_⟩
    intro k tokens' hk
    by_cases heq : k = key
    · subst heq
      have hnew : tokens' = tokens.erase token := by
        simpa [eq_comm] using hk
      refine (hgood.pending k tokens hlookup).cons (fun t h ↦ by cases h) ?_
      intro t ht
      by_cases htoken : t = token
      · exact Or.inr (htoken ▸ rfl)
      · exact Or.inl (hnew ▸ (List.mem_erase_of_ne htoken).mpr ht)
    · have hold : r.server.pendingApprovals.lookup k = some tokens' := by simpa [heq] using hk
      exact hother k tokens' heq hold _ (fun t h ↦ by cases h)
  | reject =>
    refine ⟨hgood.hooks, hgood.log.cons (fun n s h ↦ by cases h), ?_⟩
    intro k tokens' hk
    by_cases heq : k = key
    · subst heq
      simp at hk
    · have hold : r.server.pendingApprovals.lookup k = some tokens' := by simpa [heq] using hk
      refine hother k tokens' heq hold _ ?_
      intro t h
      injection h with hkey _
      exact heq hkey.symm

-- A round of hooks that starts completely, or ends with a failure, keeps the invariant.
theorem onSeekApproval_good {r : Review source} (hgood : r.Good) (n : Name) (s : Serial)
    (rounds : Nat → Uuid × Bool) (hskip : (n, s) ∉ r.server.lastApprovals)
    (hclean : (r.server.hookRounds rounds).all (·.2) = true ∨
      (r.server.hookRounds rounds).getLast?.any (!·.2) = true) :
    Good ⟨(r.server.onSeekApproval n s rounds).1,
      (r.server.onSeekApproval n s rounds).2.map .sent ++
        [.sought (n, s) (r.server.hookRounds rounds)] ++ r.log⟩ := by
  have hhooks : r.server.hooks.isEmpty = false := by
    rw [List.isEmpty_eq_false_iff]
    exact hgood.hooks
  have hcount : (r.server.hookRounds rounds).length = r.server.hooks.length := by
    simp [ZoneServer.hookRounds]
  unfold ZoneServer.onSeekApproval
  simp only [hskip, hhooks, if_false, Bool.false_eq_true, List.map_nil, List.nil_append]
  refine ⟨hgood.hooks, hgood.log.cons (fun n s h ↦ by cases h), ?_⟩
  intro k tokens hk
  change ((r.server.hookRounds rounds).foldl (ZoneServer.runHook (n, s))
    r.server.pendingApprovals).lookup k = some tokens at hk
  by_cases heq : k = (n, s)
  · subst heq
    rcases hclean with hall | hlast
    · have hstarted : ∀ h ∈ r.server.hookRounds rounds, h.2 = true := List.all_eq_true.mp hall
      have hsome : r.server.hookRounds rounds ≠ [] := by
        intro hnil
        rw [hnil] at hcount
        exact hgood.hooks (List.length_eq_zero_iff.mp hcount.symm)
      rw [ZoneServer.lookup_runHooks_started _ hstarted, if_neg hsome] at hk
      refine ⟨[], _, r.log, rfl, hcount, hstarted, ?_, fun t h ↦ by cases h⟩
      intro h hmem
      rw [← Option.some.inj hk]
      exact Or.inl (List.mem_append_right _ (List.mem_map_of_mem hmem))
    · rcases (Option.any_eq_true _ _).mp hlast with ⟨last, hlast, hfailed⟩
      rw [ZoneServer.lookup_runHooks_failed hlast (Bool.not_eq_true' _ ▸ hfailed)] at hk
      cases hk
  · rw [ZoneServer.lookup_runHooks_ne heq] at hk
    exact (hgood.pending k tokens hk).cons (fun t h ↦ by cases h) (fun t ht ↦ Or.inl ht)

theorem good_of_started {r : Review source} (h : r.Started) : r.Good := by
  rcases h with ⟨hook, hooks, rfl⟩
  refine ⟨?_, ?_, ?_⟩
  · intro hnil
    cases hnil
  · intro later earlier n s hlog
    cases later <;> cases hlog
  · intro key tokens hk
    simp [ZoneServer.new] at hk

-- Asking for an approval, when it is skipped and when it is not.
theorem seek_good {r : Review source} (hgood : r.Good) (n : Name) (s : Serial)
    (rounds : Nat → Uuid × Bool)
    (hclean : (decide ((n, s) ∈ r.server.lastApprovals) ||
      (r.server.hookRounds rounds).all (·.2) ||
      (r.server.hookRounds rounds).getLast?.any (!·.2)) = true) :
    Good ⟨(r.server.onSeekApproval n s rounds).1,
      (r.server.onSeekApproval n s rounds).2.map .sent ++
        (if (n, s) ∈ r.server.lastApprovals then []
          else [.sought (n, s) (r.server.hookRounds rounds)]) ++ r.log⟩ := by
  by_cases hskip : (n, s) ∈ r.server.lastApprovals
  · have hnothing : r.server.onSeekApproval n s rounds = (r.server, []) := by
      unfold ZoneServer.onSeekApproval
      rw [if_pos hskip]
    rw [hnothing, if_pos hskip]
    exact hgood
  · rw [if_neg hskip]
    simp only [hskip, decide_false, Bool.false_or, Bool.or_eq_true] at hclean
    exact onSeekApproval_good hgood n s rounds hskip hclean

-- Nothing is recorded of a request that is refused.
theorem record_of_refused {zs zs' : ZoneServer source} {n : Name} {s : Serial} {token : Option Uuid}
    {operation : ReviewOperation} (rounds : Nat → Uuid × Bool) {sent : List Update}
    (h : zs.processRequest n s token operation = (.error (), zs', sent)) :
    record zs rounds (.HandleZoneReviewApi n s token operation) = [] := by
  cases token with
  | none => rfl
  | some given => simp [record, h]

-- Every command that meets the condition keeps the invariant.
theorem step_good {r r' : Review source} {a : ApplicationCommand × (Nat → Uuid × Bool)}
    (hgood : r.Good) (hclean : startsClean r a = true) (h : step r a = some r') : r'.Good := by
  rcases a with ⟨cmd, rounds⟩
  injection h with h
  rw [← h]
  cases cmd with
  | HandleZoneReviewApi n s token operation =>
    rcases ZoneServer.processRequest_cases r.server n s token operation with
      hrefused | ⟨given, server, sent, rfl, hrun, haccepted⟩
    · simp only [hrefused, record_of_refused rounds hrefused]
      exact hgood
    · have hgood' := good_of_accepted hgood haccepted
      simp only [record, hrun]
      cases operation with
      | approve => exact hgood'
      | reject => exact hgood'
  | SeekApprovalForUnsignedZone n s => exact seek_good hgood n s rounds hclean
  | SeekApprovalForSignedZone n s => exact seek_good hgood n s rounds hclean
  | Changed | RefreshZone | SignZone | PublishSignedZone | RegisterZone => exact hgood

/-- On a review server with hooks, in every run in which each round of hooks starts completely or
ends with a hook that cannot be started, an approval is sent only after a round for that version in
which every hook was started and its token was later approved, with no rejection since. -/
theorem approval_needs_every_hook {r : Review source}
    (h : Reach step (fun r a ↦ startsClean r a = true) Started r) :
    LogJustified source r.server.hooks.length r.log :=
  (Reach.invariant (fun _ hr ↦ good_of_started hr)
    (fun _ _ _ hgood hclean hstep ↦ step_good hgood hclean hstep) h).log

/-! ## A server with two hooks -/

namespace TwoHooks

def zone : Name := ⟨[[114, 118]], by decide⟩

def server : Review .SignedZones := { server := ZoneServer.new ["first", "second"], log := [] }

theorem server_started : server.Started := ⟨"first", ["second"], rfl⟩

/-- The outcomes of the two hooks; the tokens are 1 and 2. -/
def outcomes (first second : Bool) (i : Nat) : Uuid × Bool :=
  if i = 0 then (1, first) else (2, second)

def seek (first second : Bool) : ApplicationCommand × (Nat → Uuid × Bool) :=
  (.SeekApprovalForSignedZone zone ⟨1⟩, outcomes first second)

def approve (token : Uuid) : ApplicationCommand × (Nat → Uuid × Bool) :=
  (.HandleZoneReviewApi zone ⟨1⟩ (some token) .approve, outcomes true true)

end TwoHooks

theorem both_hooks_approved :
    ∃ r : Review .SignedZones,
      decide (r.log.head? = some (.sent (.SignedZoneApprovedEvent TwoHooks.zone ⟨1⟩))) = true ∧
      LogJustified .SignedZones r.server.hooks.length r.log := by
  have hrun : ∃ r : Review .SignedZones,
      Reach step (fun r a ↦ startsClean r a = true) Started r ∧
        decide (r.log.head? = some (.sent (.SignedZoneApprovedEvent TwoHooks.zone ⟨1⟩))) = true :=
    Reach.of_exec TwoHooks.server_started
      [TwoHooks.seek true true, TwoHooks.approve 2, TwoHooks.approve 1] (by decide) (by decide)
  rcases hrun with ⟨r, hr, hsent⟩
  exact ⟨r, hsent, approval_needs_every_hook hr⟩

/-- The first hook cannot be started, the second one is, and its approval alone is enough. -/
theorem failed_hook_is_forgotten :
    ∃ r : Review .SignedZones, Reach step anyStep Started r ∧
      ¬LogJustified .SignedZones r.server.hooks.length r.log := by
  have hrun : ∃ r : Review .SignedZones, Reach step anyStep Started r ∧
      decide (r.log = [.sent (.SignedZoneApprovedEvent TwoHooks.zone ⟨1⟩),
        .approved (TwoHooks.zone, ⟨1⟩) 2,
        .sought (TwoHooks.zone, ⟨1⟩) [(1, false), (2, true)]]) = true :=
    Reach.of_exec_any TwoHooks.server_started [TwoHooks.seek false true, TwoHooks.approve 2]
      (by decide)
  rcases hrun with ⟨r, hr, hlog⟩
  refine ⟨r, hr, ?_⟩
  intro hjustified
  have hlog := of_decide_eq_true hlog
  rcases hjustified [] _ TwoHooks.zone ⟨1⟩ hlog with ⟨later, hooks, earlier, hsplit, -, hall, -, -⟩
  have hmem : ReviewEvent.sought (TwoHooks.zone, ⟨1⟩) hooks ∈
      [ReviewEvent.approved (TwoHooks.zone, ⟨1⟩) 2,
        .sought (TwoHooks.zone, ⟨1⟩) [(1, false), (2, true)]] := by
    rw [hsplit]
    simp
  simp only [List.mem_cons, reduceCtorEq, ReviewEvent.sought.injEq, true_and, List.not_mem_nil,
    or_false, false_or] at hmem
  have hfirst := hall (1, false) (by rw [hmem]; exact List.mem_cons_self)
  cases hfirst

end Review

end Cascade

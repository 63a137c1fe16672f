import Cascade.Comms

/-!
# The review servers

A review server holds the approvals that a zone version is waiting for, one token for each of its
hooks, and the versions that were approved.  The publication server is the same unit without
hooks, and is never asked for an approval.
-/

namespace Cascade

open Lib

inductive Source
  | UnsignedZones
  | SignedZones
deriving DecidableEq

/-- The event that a version was approved. -/
def Source.approvedEvent : Source → Name → Serial → Update
  | .UnsignedZones => .UnsignedZoneApprovedEvent
  | .SignedZones => .SignedZoneApprovedEvent

/-- The times of the last approvals are never read, so they are a set. -/
structure ZoneServer (source : Source) where
  hooks : List String
  pendingApprovals : HashMap (Name × Serial) (List Uuid)
  lastApprovals : HashSet (Name × Serial)

namespace ZoneServer

variable {source : Source}

def new (hooks : List String) : ZoneServer source :=
  { hooks, pendingApprovals := ∅, lastApprovals := ∅ }

/-- One round of the loop over the hooks: a new token is stored, and when the hook does not start
all tokens of the version are thrown away. -/
def runHook (key : Name × Serial) (pending : HashMap (Name × Serial) (List Uuid))
    (round : Uuid × Bool) : HashMap (Name × Serial) (List Uuid) :=
  let pending := match pending.lookup key with
    | some tokens => pending.insert key (tokens ++ [round.1])
    | none => pending.insert key [round.1]
  if round.2 then pending else pending.erase key

/-- `on_seek_approval_for_zone_cmd`; `rounds i` is the token for the hook number `i` and whether
the hook could be started. -/
def onSeekApproval (zs : ZoneServer source) (zoneName : Name) (zoneSerial : Serial)
    (rounds : Nat → Uuid × Bool) : ZoneServer source × List Update :=
  if (zoneName, zoneSerial) ∈ zs.lastApprovals then (zs, [])
  else
    let sent := if zs.hooks.isEmpty then [source.approvedEvent zoneName zoneSerial] else []
    let pending := ((List.range zs.hooks.length).map rounds).foldl
      (runHook (zoneName, zoneSerial)) zs.pendingApprovals
    ({ zs with pendingApprovals := pending }, sent)

/-- The token and the outcome of each hook. -/
def hookRounds (zs : ZoneServer source) (rounds : Nat → Uuid × Bool) : List (Uuid × Bool) :=
  (List.range zs.hooks.length).map rounds

/-- `ZoneReviewApi::process_request` -/
def processRequest (zs : ZoneServer source) (zoneName : Name) (zoneSerial : Serial)
    (givenApprovalToken : Option Uuid) (operation : ReviewOperation) :
    Except Unit Unit × ZoneServer source × List Update :=
  let key := (zoneName, zoneSerial)
  match zs.pendingApprovals.lookup key, givenApprovalToken with
  | none, _ => (.error (), zs, [])
  | some _, none => (.error (), zs, [])
  | some tokens, some givenUuid =>
    if givenUuid ∈ tokens then
      match operation with
      | .approve =>
        let tokens := tokens.erase givenUuid
        if tokens.isEmpty then
          (.ok (), { zs with pendingApprovals := zs.pendingApprovals.erase key
                             lastApprovals := zs.lastApprovals.insert key () },
            [source.approvedEvent zoneName zoneSerial])
        else
          (.ok (), { zs with pendingApprovals := zs.pendingApprovals.insert key tokens }, [])
      | .reject => (.ok (), { zs with pendingApprovals := zs.pendingApprovals.erase key }, [])
    else (.error (), zs, [])

/-- `handle_command`; publishing is for the publication server only. -/
def handleCommand (zs : ZoneServer source) (rounds : Nat → Uuid × Bool) :
    ApplicationCommand → ZoneServer source × List Update
  | .HandleZoneReviewApi zoneName zoneSerial approvalToken operation =>
    (zs.processRequest zoneName zoneSerial approvalToken operation).2
  | .SeekApprovalForUnsignedZone zoneName zoneSerial =>
    zs.onSeekApproval zoneName zoneSerial rounds
  | .SeekApprovalForSignedZone zoneName zoneSerial =>
    zs.onSeekApproval zoneName zoneSerial rounds
  | _ => (zs, [])

theorem approvedEvent_inj {n n' : Name} {s s' : Serial}
    (h : source.approvedEvent n s = source.approvedEvent n' s') : n = n' ∧ s = s' := by
  cases source with
  | UnsignedZones =>
    injection h with hn hs
    exact ⟨hn, hs⟩
  | SignedZones =>
    injection h with hn hs
    exact ⟨hn, hs⟩

/-! ## The loop over the hooks -/

variable {key : Name × Serial}

theorem lookup_runHook_ne {k : Name × Serial} (hk : k ≠ key)
    (pending : HashMap (Name × Serial) (List Uuid)) (round : Uuid × Bool) :
    (runHook key pending round).lookup k = pending.lookup k := by
  unfold runHook
  cases pending.lookup key with
  | none =>
    by_cases hround : round.2 = true
    · simp [hround, hk]
    · simp [hround, hk]
  | some tokens =>
    by_cases hround : round.2 = true
    · simp [hround, hk]
    · simp [hround, hk]

-- The loop touches the tokens of its own version only.
theorem lookup_runHooks_ne {k : Name × Serial} (hk : k ≠ key) (hooks : List (Uuid × Bool))
    (pending : HashMap (Name × Serial) (List Uuid)) :
    (hooks.foldl (runHook key) pending).lookup k = pending.lookup k := by
  induction hooks generalizing pending with
  | nil => rfl
  | cons round hooks ih => rw [List.foldl_cons, ih, lookup_runHook_ne hk]

theorem mem_runHooks_ne {k : Name × Serial} (hk : k ≠ key) (hooks : List (Uuid × Bool))
    (pending : HashMap (Name × Serial) (List Uuid)) :
    k ∈ hooks.foldl (runHook key) pending ↔ k ∈ pending := by
  rw [← AList.lookup_isSome, lookup_runHooks_ne hk, AList.lookup_isSome]

-- When every hook is started, the tokens of the round are pending afterwards.
theorem lookup_runHooks_started (hooks : List (Uuid × Bool)) (hstarted : ∀ h ∈ hooks, h.2 = true)
    (pending : HashMap (Name × Serial) (List Uuid)) :
    (hooks.foldl (runHook key) pending).lookup key =
      if hooks = [] then pending.lookup key
      else some ((pending.lookup key).getD [] ++ hooks.map Prod.fst) := by
  induction hooks generalizing pending with
  | nil => rfl
  | cons round hooks ih =>
    have hround : round.2 = true := hstarted round List.mem_cons_self
    have hfirst : (runHook key pending round).lookup key =
        some ((pending.lookup key).getD [] ++ [round.1]) := by
      unfold runHook
      cases hp : pending.lookup key with
      | none => simp [hround]
      | some tokens => simp [hround]
    rw [List.foldl_cons, ih (fun h hmem ↦ hstarted h (List.mem_cons_of_mem _ hmem)), hfirst]
    by_cases hooks = []
    next hnil => simp [hnil]
    next hnil => simp [hnil]

-- When the last hook does not start, nothing is pending afterwards.
theorem lookup_runHooks_failed {hooks : List (Uuid × Bool)} {last : Uuid × Bool}
    (hlast : hooks.getLast? = some last) (hfailed : last.2 = false)
    (pending : HashMap (Name × Serial) (List Uuid)) :
    (hooks.foldl (runHook key) pending).lookup key = none := by
  rcases List.getLast?_eq_some_iff.mp hlast with ⟨front, hfront⟩
  rw [hfront, List.foldl_append, List.foldl_cons, List.foldl_nil]
  unfold runHook
  simp [hfailed]

/-! ## An accepted request -/

/-- What the server does with an accepted request: it takes the token off, and sends the event when
it was the last one, or throws all tokens of the version away. -/
inductive Accepted (zs : ZoneServer source) (key : Name × Serial) (token : Uuid) :
    ReviewOperation → ZoneServer source → List Update → Prop
  | last {tokens : List Uuid} : zs.pendingApprovals.lookup key = some tokens →
      tokens.erase token = [] → Accepted zs key token .approve
        { zs with pendingApprovals := zs.pendingApprovals.erase key
                  lastApprovals := zs.lastApprovals.insert key () }
        [source.approvedEvent key.1 key.2]
  | more {tokens : List Uuid} : zs.pendingApprovals.lookup key = some tokens →
      Accepted zs key token .approve
        { zs with pendingApprovals := zs.pendingApprovals.insert key (tokens.erase token) } []
  | reject : Accepted zs key token .reject
      { zs with pendingApprovals := zs.pendingApprovals.erase key } []

-- A request is refused, and nothing changes, or it is accepted.
theorem processRequest_cases (zs : ZoneServer source) (n : Name) (s : Serial)
    (token : Option Uuid) (operation : ReviewOperation) :
    zs.processRequest n s token operation = (.error (), zs, []) ∨
      ∃ given zs' sent, token = some given ∧
        zs.processRequest n s token operation = (.ok (), zs', sent) ∧
        Accepted zs (n, s) given operation zs' sent := by
  cases hlookup : zs.pendingApprovals.lookup (n, s) with
  | none => exact Or.inl (by simp [processRequest, hlookup])
  | some tokens =>
    cases token with
    | none => exact Or.inl (by simp [processRequest, hlookup])
    | some given =>
      by_cases hmem : given ∈ tokens
      · refine Or.inr ⟨given, ?_⟩
        cases operation with
        | reject =>
          refine ⟨_, _, rfl, ?_, .reject⟩
          simp [processRequest, hlookup, hmem]
        | approve =>
          by_cases hlast : tokens.erase given = []
          · refine ⟨_, _, rfl, ?_, .last hlookup hlast⟩
            simp [processRequest, hlookup, hmem, hlast]
          · refine ⟨_, _, rfl, ?_, .more hlookup⟩
            simp [processRequest, hlookup, hmem, hlast]
      · exact Or.inl (by simp [processRequest, hlookup, hmem])

/-! ## What a command does to the pending versions -/

-- Asking for the approval of a version makes no other version pending.
theorem mem_onSeekApproval {zs : ZoneServer source} {zoneName : Name} {zoneSerial : Serial}
    {rounds : Nat → Uuid × Bool} {k : Name × Serial}
    (h : k ∈ (zs.onSeekApproval zoneName zoneSerial rounds).1.pendingApprovals) :
    k = (zoneName, zoneSerial) ∨ k ∈ zs.pendingApprovals := by
  by_cases hk : k = (zoneName, zoneSerial)
  · exact Or.inl hk
  · right
    unfold onSeekApproval at h
    split at h
    · exact h
    · exact (mem_runHooks_ne hk _ _).mp h

theorem onSeekApproval_sent (zs : ZoneServer source) (zoneName : Name) (zoneSerial : Serial)
    (rounds : Nat → Uuid × Bool) :
    (zs.onSeekApproval zoneName zoneSerial rounds).2 = [] ∨
      (zs.onSeekApproval zoneName zoneSerial rounds).2 =
        [source.approvedEvent zoneName zoneSerial] := by
  unfold onSeekApproval
  split
  · exact Or.inl rfl
  · by_cases h : zs.hooks.isEmpty = true
    · exact Or.inr (by simp [h])
    · exact Or.inl (by simp [h])

-- A request adds no pending version, and when it sends the event that a version was approved, the
-- version was pending.
theorem processRequest_spec (zs : ZoneServer source) (zoneName : Name) (zoneSerial : Serial)
    (givenApprovalToken : Option Uuid) (operation : ReviewOperation) :
    ∃ r zs' sent, zs.processRequest zoneName zoneSerial givenApprovalToken operation =
        (r, zs', sent) ∧
      (∀ k, k ∈ zs'.pendingApprovals → k ∈ zs.pendingApprovals) ∧
      (sent = [] ∨ sent = [source.approvedEvent zoneName zoneSerial] ∧
        (zoneName, zoneSerial) ∈ zs.pendingApprovals) := by
  rcases processRequest_cases zs zoneName zoneSerial givenApprovalToken operation with
    hrefused | ⟨given, zs', sent, -, hrun, haccepted⟩
  · exact ⟨.error (), zs, [], hrefused, fun k hk ↦ hk, Or.inl rfl⟩
  · have herase : ∀ k, k ∈ zs.pendingApprovals.erase (zoneName, zoneSerial) →
        k ∈ zs.pendingApprovals := fun k hk ↦ (AList.mem_erase.mp hk).2
    refine ⟨.ok (), zs', sent, hrun, ?_⟩
    cases haccepted with
    | @last tokens hlookup =>
      exact ⟨herase, Or.inr ⟨rfl, HashMap.mem_iff_lookup.mpr ⟨tokens, hlookup⟩⟩⟩
    | @more tokens hlookup =>
      refine ⟨?_, Or.inl rfl⟩
      intro k hk
      cases (AList.mem_insert _).mp hk with
      | inl hk => exact hk ▸ HashMap.mem_iff_lookup.mpr ⟨tokens, hlookup⟩
      | inr hk => exact hk
    | reject => exact ⟨herase, Or.inl rfl⟩

/-- The version that a command asks an approval for. -/
def asksFor : ApplicationCommand → Option (Name × Serial)
  | .SeekApprovalForUnsignedZone zoneName zoneSerial => some (zoneName, zoneSerial)
  | .SeekApprovalForSignedZone zoneName zoneSerial => some (zoneName, zoneSerial)
  | _ => none

-- Every version that is pending or approved after a command was pending before it, or is the one
-- that the command asks an approval for.
theorem handleCommand_spec (zs : ZoneServer source) (rounds : Nat → Uuid × Bool)
    (cmd : ApplicationCommand) :
    (∀ k, k ∈ (zs.handleCommand rounds cmd).1.pendingApprovals →
      k ∈ zs.pendingApprovals ∨ asksFor cmd = some k) ∧
    ((zs.handleCommand rounds cmd).2 = [] ∨
      ∃ k, (zs.handleCommand rounds cmd).2 = [source.approvedEvent k.1 k.2] ∧
        (k ∈ zs.pendingApprovals ∨ asksFor cmd = some k)) := by
  have hseek : ∀ n s, (∀ k, k ∈ (zs.onSeekApproval n s rounds).1.pendingApprovals →
        k ∈ zs.pendingApprovals ∨ some (n, s) = some k) ∧
      ((zs.onSeekApproval n s rounds).2 = [] ∨
        ∃ k, (zs.onSeekApproval n s rounds).2 = [source.approvedEvent k.1 k.2] ∧
          (k ∈ zs.pendingApprovals ∨ some (n, s) = some k)) := by
    intro n s
    constructor
    · intro k hk
      cases mem_onSeekApproval hk with
      | inl hk => exact Or.inr (congrArg some hk.symm)
      | inr hk => exact Or.inl hk
    · cases onSeekApproval_sent zs n s rounds with
      | inl hsent => exact Or.inl hsent
      | inr hsent => exact Or.inr ⟨(n, s), hsent, Or.inr rfl⟩
  cases cmd with
  | HandleZoneReviewApi n s token operation =>
    obtain ⟨r, zs', sent, hrequest, hpending, hsent⟩ :=
      processRequest_spec zs n s token operation
    simp only [handleCommand, hrequest]
    constructor
    · exact fun k hk ↦ Or.inl (hpending k hk)
    · cases hsent with
      | inl hsent => exact Or.inl hsent
      | inr hsent => exact Or.inr ⟨(n, s), hsent.1, Or.inl hsent.2⟩
  | SeekApprovalForUnsignedZone n s => exact hseek n s
  | SeekApprovalForSignedZone n s => exact hseek n s
  | Changed | RefreshZone | SignZone | PublishSignedZone | RegisterZone =>
    exact ⟨fun k hk ↦ Or.inl hk, Or.inl rfl⟩

-- The hooks of a server stay the same.
theorem hooks_handleCommand (zs : ZoneServer source) (rounds : Nat → Uuid × Bool)
    (cmd : ApplicationCommand) : (zs.handleCommand rounds cmd).1.hooks = zs.hooks := by
  have hseek : ∀ n s, (zs.onSeekApproval n s rounds).1.hooks = zs.hooks := by
    intro n s
    unfold onSeekApproval
    split
    · rfl
    · rfl
  cases cmd with
  | HandleZoneReviewApi n s token operation =>
    simp only [handleCommand]
    rcases processRequest_cases zs n s token operation with
      hrefused | ⟨given, zs', sent, -, hrun, haccepted⟩
    · rw [hrefused]
    · rw [hrun]
      cases haccepted with
      | last | more | reject => rfl
  | SeekApprovalForUnsignedZone n s => exact hseek n s
  | SeekApprovalForSignedZone n s => exact hseek n s
  | Changed | RefreshZone | SignZone | PublishSignedZone | RegisterZone => rfl

end ZoneServer

end Cascade

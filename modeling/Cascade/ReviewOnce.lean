import Cascade.Review

/-!
# A version is approved once

A review server with hooks remembers the versions that it has approved, and does not ask for them
again.  So the approval of a version is sent at most once.  A token is accepted at most once as long
as no token is made twice: it is taken off with its approval, and thrown away with all tokens of the
version when one of them is rejected.
-/

namespace Cascade

open Lib

namespace ZoneServer

variable {source : Source}

/-- The version that a command is about. -/
def concerns : ApplicationCommand → Option (Name × Serial)
  | .HandleZoneReviewApi zoneName zoneSerial _ _ => some (zoneName, zoneSerial)
  | .SeekApprovalForUnsignedZone zoneName zoneSerial => some (zoneName, zoneSerial)
  | .SeekApprovalForSignedZone zoneName zoneSerial => some (zoneName, zoneSerial)
  | _ => none

-- Of the tokens that were pending and those of the round some are left, in this order.
theorem lookup_runHooks_sublist (key : Name × Serial) (hooks : List (Uuid × Bool))
    (pending : HashMap (Name × Serial) (List Uuid)) :
    (((hooks.foldl (runHook key) pending).lookup key).getD []).Sublist
      ((pending.lookup key).getD [] ++ hooks.map Prod.fst) := by
  induction hooks generalizing pending with
  | nil => simp
  | cons round hooks ih =>
    have hround : (((runHook key pending round).lookup key).getD []).Sublist
        ((pending.lookup key).getD [] ++ [round.1]) := by
      unfold runHook
      cases hlookup : pending.lookup key with
      | none =>
        by_cases hstarted : round.2 = true
        · simp [hstarted]
        · simp [hstarted]
      | some tokens =>
        by_cases hstarted : round.2 = true
        · simp [hstarted]
        · simp [hstarted]
    have happend := (ih (runHook key pending round)).trans (hround.append_right _)
    rw [List.append_assoc] at happend
    exact happend

-- A token that is accepted was pending.
theorem pending_of_accepted {zs zs' : ZoneServer source} {n : Name} {s : Serial} {given : Uuid}
    {operation : ReviewOperation} {sent : List Update}
    (h : zs.processRequest n s (some given) operation = (.ok (), zs', sent)) :
    ∃ tokens, zs.pendingApprovals.lookup (n, s) = some tokens ∧ given ∈ tokens := by
  unfold processRequest at h
  cases hlookup : zs.pendingApprovals.lookup (n, s) with
  | none => simp [hlookup] at h
  | some tokens =>
    by_cases hmem : given ∈ tokens
    · exact ⟨tokens, rfl, hmem⟩
    · simp [hlookup, hmem] at h

end ZoneServer

namespace Review

variable {source : Source}

/-- What becomes of a server with hooks when it handles a command. -/
inductive Handled (r : Review source) (cmd : ApplicationCommand) : Review source → Prop
  | ignored : Handled r cmd r
  | sought {key : Name × Serial} {hooks : List (Uuid × Bool)} :
      ZoneServer.concerns cmd = some key → key ∉ r.server.lastApprovals →
      Handled r cmd
        { server := { r.server with
            pendingApprovals := hooks.foldl (ZoneServer.runHook key) r.server.pendingApprovals }
          log := .sought key hooks :: r.log }
  | last {key : Name × Serial} {token : Uuid} {tokens : List Uuid} :
      ZoneServer.concerns cmd = some key → r.server.pendingApprovals.lookup key = some tokens →
      token ∈ tokens → tokens.erase token = [] →
      Handled r cmd
        { server := { r.server with
            pendingApprovals := r.server.pendingApprovals.erase key
            lastApprovals := r.server.lastApprovals.insert key () }
          log := .sent (source.approvedEvent key.1 key.2) :: .approved key token :: r.log }
  | more {key : Name × Serial} {token : Uuid} {tokens : List Uuid} :
      ZoneServer.concerns cmd = some key → r.server.pendingApprovals.lookup key = some tokens →
      token ∈ tokens →
      Handled r cmd
        { server := { r.server with
            pendingApprovals := r.server.pendingApprovals.insert key (tokens.erase token) }
          log := .approved key token :: r.log }
  | rejected {key : Name × Serial} {token : Uuid} {tokens : List Uuid} :
      ZoneServer.concerns cmd = some key → r.server.pendingApprovals.lookup key = some tokens →
      token ∈ tokens →
      Handled r cmd
        { server := { r.server with pendingApprovals := r.server.pendingApprovals.erase key }
          log := .rejected key token :: r.log }

theorem handled_seek {r : Review source} (hhooks : r.server.hooks ≠ []) {cmd : ApplicationCommand}
    {n : Name} {s : Serial} (hconcerns : ZoneServer.concerns cmd = some (n, s))
    (rounds : Nat → Uuid × Bool) :
    Handled r cmd ⟨(r.server.onSeekApproval n s rounds).1,
      (r.server.onSeekApproval n s rounds).2.map .sent ++
        (if (n, s) ∈ r.server.lastApprovals then []
          else [.sought (n, s) (r.server.hookRounds rounds)]) ++ r.log⟩ := by
  unfold ZoneServer.onSeekApproval
  by_cases hskip : (n, s) ∈ r.server.lastApprovals
  · rw [if_pos hskip, if_pos hskip]
    exact .ignored
  · have hsome : r.server.hooks.isEmpty = false := List.isEmpty_eq_false_iff.mpr hhooks
    rw [if_neg hskip, if_neg hskip, hsome]
    exact .sought hconcerns hskip

theorem handled_request (r : Review source) (n : Name) (s : Serial) (token : Option Uuid)
    (operation : ReviewOperation) (rounds : Nat → Uuid × Bool) :
    Handled r (.HandleZoneReviewApi n s token operation)
      ⟨(r.server.processRequest n s token operation).2.1,
        (r.server.processRequest n s token operation).2.2.map .sent ++
          record r.server rounds (.HandleZoneReviewApi n s token operation) ++ r.log⟩ := by
  rcases ZoneServer.processRequest_cases r.server n s token operation with
    hrefused | ⟨given, server, sent, rfl, hrun, haccepted⟩
  · rw [hrefused, record_of_refused rounds hrefused]
    exact .ignored
  · obtain ⟨tokens, hlookup, hmem⟩ := ZoneServer.pending_of_accepted hrun
    simp only [record, hrun]
    cases haccepted with
    | @last tokens' hlookup' hlast =>
      rw [hlookup, Option.some.injEq] at hlookup'
      rw [← hlookup'] at hlast
      exact .last rfl hlookup hmem hlast
    | @more tokens' hlookup' =>
      rw [hlookup, Option.some.injEq] at hlookup'
      rw [← hlookup']
      exact .more rfl hlookup hmem
    | reject => exact .rejected rfl hlookup hmem

theorem step_handled {r r' : Review source} (hhooks : r.server.hooks ≠ [])
    {a : ApplicationCommand × (Nat → Uuid × Bool)} (h : step r a = some r') :
    Handled r a.1 r' := by
  injection h with h
  rw [← h]
  have ⟨cmd, rounds⟩ := a
  cases cmd with
  | HandleZoneReviewApi n s token operation => exact handled_request r n s token operation rounds
  | SeekApprovalForUnsignedZone n s => exact handled_seek hhooks rfl rounds
  | SeekApprovalForSignedZone n s => exact handled_seek hhooks rfl rounds
  | Changed | RefreshZone | SignZone | PublishSignedZone | RegisterZone => exact .ignored

/-- The tokens that a round makes. -/
def made : ReviewEvent → List Uuid
  | .sought _ hooks => hooks.map Prod.fst
  | _ => []

def acceptedToken : ReviewEvent → Option Uuid
  | .approved _ token => some token
  | .rejected _ token => some token
  | _ => none

/-- All tokens that were made so far. -/
def generated (log : List ReviewEvent) : List Uuid := log.flatMap made

/-- The tokens of the requests that were accepted. -/
def accepted (log : List ReviewEvent) : List Uuid := log.filterMap acceptedToken

/-! ## Approvals -/

/-- An approved version is remembered and not pending any more. -/
structure Once (r : Review source) : Prop where
  hooks : r.server.hooks ≠ []
  apart : ∀ key ∈ r.server.lastApprovals, key ∉ r.server.pendingApprovals
  remembered : ∀ n s, .sent (source.approvedEvent n s) ∈ r.log → (n, s) ∈ r.server.lastApprovals
  once : ∀ n s, r.log.count (.sent (source.approvedEvent n s)) ≤ 1

variable {r r' : Review source} {cmd : ApplicationCommand}

-- The other versions keep their tokens.
theorem Handled.pending_ne (h : Handled r cmd r') {k : Name × Serial}
    (hk : ZoneServer.concerns cmd ≠ some k) :
    r'.server.pendingApprovals.lookup k = r.server.pendingApprovals.lookup k := by
  have hne : ∀ {key}, ZoneServer.concerns cmd = some key → k ≠ key := by
    intro key hkey heq
    rw [hkey, heq] at hk
    exact hk rfl
  cases h with
  | ignored => rfl
  | sought hkey _ => exact ZoneServer.lookup_runHooks_ne (hne hkey) _ _
  | last hkey _ _ _ => exact AList.lookup_erase_ne (hne hkey)
  | more hkey _ _ => exact AList.lookup_insert_ne (hne hkey)
  | rejected hkey _ _ => exact AList.lookup_erase_ne (hne hkey)

-- Something happens to the pending versions, and no approval is sent.
theorem Once.push (h : Once r) {pending : HashMap (Name × Serial) (List Uuid)} {e : ReviewEvent}
    (he : ∀ update, e ≠ .sent update) (hpending : ∀ key ∈ r.server.lastApprovals, key ∉ pending) :
    Once ({ server := { r.server with pendingApprovals := pending }
            log := e :: r.log } : Review source) := by
  refine ⟨h.hooks, hpending, ?_, ?_⟩
  · intro n s hmem
    rcases List.mem_cons.mp hmem with heq | hold
    · exact absurd heq.symm (he _)
    · exact h.remembered n s hold
  · intro n s
    show (e :: r.log).count (.sent (source.approvedEvent n s)) ≤ 1
    rw [List.count_cons_of_ne (he _)]
    exact h.once n s

theorem Once.handled (h : Once r) (hr' : Handled r cmd r') : Once r' := by
  cases hr' with
  | ignored => exact h
  | @sought key hooks _ hfresh =>
    apply h.push (fun update heq ↦ by cases heq)
    intro k hk hmem
    have hne : k ≠ key := by
      intro heq
      rw [heq] at hk
      exact hfresh hk
    exact h.apart k hk ((ZoneServer.mem_runHooks_ne hne _ _).mp hmem)
  | @last key token tokens _ hlookup _ _ =>
    have hpending : key ∈ r.server.pendingApprovals := HashMap.mem_iff_lookup.mpr ⟨tokens, hlookup⟩
    have hnew : key ∉ r.server.lastApprovals := fun hk ↦ h.apart key hk hpending
    refine ⟨h.hooks, ?_, ?_, ?_⟩
    · intro k hk hmem
      have ⟨hne, hold⟩ := AList.mem_erase.mp hmem
      rcases (AList.mem_insert _).mp hk with heq | hk
      · exact hne heq
      · exact h.apart k hk hold
    · intro n s hmem
      apply (AList.mem_insert _).mpr
      simp only [List.mem_cons, reduceCtorEq, false_or, ReviewEvent.sent.injEq] at hmem
      rcases hmem with heq | hold
      · have ⟨hn, hs⟩ := ZoneServer.approvedEvent_inj heq
        exact Or.inl (Prod.ext hn hs)
      · exact Or.inr (h.remembered n s hold)
    · intro n s
      show (_ :: _ :: r.log).count (.sent (source.approvedEvent n s)) ≤ 1
      have hskip : (ReviewEvent.approved key token :: r.log).count
          (.sent (source.approvedEvent n s)) =
            r.log.count (.sent (source.approvedEvent n s)) := by
        apply List.count_cons_of_ne
        intro heq
        cases heq
      by_cases hsame : source.approvedEvent n s = source.approvedEvent key.1 key.2
      · have ⟨hn, hs⟩ := ZoneServer.approvedEvent_inj hsame
        have hkey : (n, s) = key := Prod.ext hn hs
        have hnone : r.log.count (.sent (source.approvedEvent n s)) = 0 := by
          apply List.count_eq_zero.mpr
          intro hmem
          exact hnew (hkey ▸ h.remembered n s hmem)
        rw [← hsame, List.count_cons_self, hskip, hnone]
      · rw [List.count_cons_of_ne (fun heq ↦ hsame (ReviewEvent.sent.inj heq).symm), hskip]
        exact h.once n s
  | @more key token tokens _ hlookup _ =>
    have hpending : key ∈ r.server.pendingApprovals := HashMap.mem_iff_lookup.mpr ⟨tokens, hlookup⟩
    apply h.push (fun update heq ↦ by cases heq)
    intro k hk hmem
    rcases (AList.mem_insert _).mp hmem with heq | hold
    · rw [heq] at hk
      exact h.apart key hk hpending
    · exact h.apart k hk hold
  | rejected _ _ _ =>
    apply h.push (fun update heq ↦ by cases heq)
    intro k hk hmem
    exact h.apart k hk (AList.mem_erase.mp hmem).2

/-! ## Tokens -/

/-- The pending tokens are distinct, and none of them was accepted already. -/
structure Distinct (pending : HashMap (Name × Serial) (List Uuid)) (log : List ReviewEvent) :
    Prop where
  nodup : ∀ key tokens, pending.lookup key = some tokens → tokens.Nodup
  known : ∀ key tokens, pending.lookup key = some tokens →
    ∀ token ∈ tokens, token ∈ generated log ∧ token ∉ accepted log
  apart : ∀ key key' tokens tokens', pending.lookup key = some tokens →
    pending.lookup key' = some tokens' → ∀ token ∈ tokens, token ∈ tokens' → key = key'
  once : (accepted log).Nodup
  made : ∀ token ∈ accepted log, token ∈ generated log

variable {pending pending' : HashMap (Name × Serial) (List Uuid)} {log : List ReviewEvent}
  {key : Name × Serial} {token : Uuid} {tokens : List Uuid} {e : ReviewEvent}

-- A pending token is accepted, and at most the others of its version stay pending.
theorem Distinct.accept (h : Distinct pending log) (hlookup : pending.lookup key = some tokens)
    (htoken : token ∈ tokens) (he : acceptedToken e = some token) (hmade : Review.made e = [])
    (hother : ∀ k, k ≠ key → pending'.lookup k = pending.lookup k)
    (hkey : ∀ left, pending'.lookup key = some left → left = tokens.erase token) :
    Distinct pending' (e :: log) := by
  have ⟨hgenerated, hnew⟩ := h.known key tokens hlookup token htoken
  have haccepted : accepted (e :: log) = token :: accepted log := List.filterMap_cons_some he
  have hsame : generated (e :: log) = generated log := by
    unfold generated
    rw [List.flatMap_cons, hmade, List.nil_append]
  have hleft : ∀ k left, pending'.lookup k = some left → left.Nodup ∧
      ∃ old, pending.lookup k = some old ∧ ∀ t ∈ left, t ∈ old ∧ t ≠ token := by
    intro k left hk
    by_cases heq : k = key
    · rw [heq] at hk
      rw [hkey left hk, heq]
      refine ⟨(h.nodup key tokens hlookup).erase _, tokens, hlookup, ?_⟩
      intro t ht
      have ⟨hne, hold⟩ := (h.nodup key tokens hlookup).mem_erase_iff.mp ht
      exact ⟨hold, hne⟩
    · rw [hother k heq] at hk
      refine ⟨h.nodup k left hk, left, hk, ?_⟩
      intro t ht
      refine ⟨ht, ?_⟩
      intro hsame
      rw [hsame] at ht
      exact heq (h.apart k key left tokens hk hlookup token ht htoken)
  constructor
  · intro k left hk
    exact (hleft k left hk).1
  · intro k left hk t ht
    have ⟨_, old, hold, hmem⟩ := hleft k left hk
    have ⟨hin, hne⟩ := hmem t ht
    have ⟨hknown, hfresh⟩ := h.known k old hold t hin
    rw [hsame, haccepted]
    exact ⟨hknown, List.not_mem_cons_of_ne_of_not_mem hne hfresh⟩
  · intro k k' left left' hk hk' t ht ht'
    have ⟨_, old, hold, hmem⟩ := hleft k left hk
    have ⟨_, old', hold', hmem'⟩ := hleft k' left' hk'
    exact h.apart k k' old old' hold hold' t (hmem t ht).1 (hmem' t ht').1
  · rw [haccepted]
    exact List.nodup_cons.mpr ⟨hnew, h.once⟩
  · rw [hsame, haccepted]
    exact List.forall_mem_cons.mpr ⟨hgenerated, h.made⟩

-- A round with new tokens.
theorem Distinct.seek (h : Distinct pending log) {hooks : List (Uuid × Bool)}
    (hdistinct : (generated (.sought key hooks :: log)).Nodup) :
    Distinct (hooks.foldl (ZoneServer.runHook key) pending) (.sought key hooks :: log) := by
  have haccepted : accepted (.sought key hooks :: log) = accepted log :=
    List.filterMap_cons_none rfl
  have hgenerated : generated (.sought key hooks :: log) = hooks.map Prod.fst ++ generated log :=
    List.flatMap_cons
  rw [hgenerated] at hdistinct
  have ⟨hnodup, _, hdisjoint⟩ := List.nodup_append.mp hdistinct
  have hnew : ∀ t ∈ hooks.map Prod.fst, t ∉ generated log := by
    intro t ht hlog
    exact hdisjoint t ht t hlog rfl
  have hleft : ∀ k left, (hooks.foldl (ZoneServer.runHook key) pending).lookup k = some left →
      left.Nodup ∧ ∀ t ∈ left, (∃ old, pending.lookup k = some old ∧ t ∈ old) ∨
        (k = key ∧ t ∈ hooks.map Prod.fst) := by
    intro k left hk
    by_cases heq : k = key
    · have hsub := ZoneServer.lookup_runHooks_sublist key hooks pending
      rw [heq] at hk ⊢
      rw [hk, Option.getD_some] at hsub
      cases hlookup : pending.lookup key with
      | none =>
        rw [hlookup, Option.getD_none, List.nil_append] at hsub
        exact ⟨hnodup.sublist hsub, fun t ht ↦ Or.inr ⟨rfl, hsub.subset ht⟩⟩
      | some tokens =>
        rw [hlookup, Option.getD_some] at hsub
        have hboth : (tokens ++ hooks.map Prod.fst).Nodup := by
          apply List.nodup_append.mpr
          refine ⟨h.nodup key tokens hlookup, hnodup, ?_⟩
          intro t ht t' ht' hsame
          rw [← hsame] at ht'
          exact hnew t ht' (h.known key tokens hlookup t ht).1
        refine ⟨hboth.sublist hsub, ?_⟩
        intro t ht
        rcases List.mem_append.mp (hsub.subset ht) with hold | hfresh
        · exact Or.inl ⟨tokens, rfl, hold⟩
        · exact Or.inr ⟨rfl, hfresh⟩
    · rw [ZoneServer.lookup_runHooks_ne heq] at hk
      exact ⟨h.nodup k left hk, fun t ht ↦ Or.inl ⟨left, hk, ht⟩⟩
  constructor
  · intro k left hk
    exact (hleft k left hk).1
  · intro k left hk t ht
    rw [hgenerated, haccepted]
    rcases (hleft k left hk).2 t ht with ⟨old, hold, hin⟩ | ⟨_, hfresh⟩
    · have ⟨hknown, hnone⟩ := h.known k old hold t hin
      exact ⟨List.mem_append_right _ hknown, hnone⟩
    · exact ⟨List.mem_append_left _ hfresh, fun hin ↦ hnew t hfresh (h.made t hin)⟩
  · intro k k' left left' hk hk' t ht ht'
    rcases (hleft k left hk).2 t ht with ⟨old, hold, hin⟩ | ⟨heq, hfresh⟩
    · rcases (hleft k' left' hk').2 t ht' with ⟨old', hold', hin'⟩ | ⟨_, hfresh⟩
      · exact h.apart k k' old old' hold hold' t hin hin'
      · exact absurd (h.known k old hold t hin).1 (hnew t hfresh)
    · rcases (hleft k' left' hk').2 t ht' with ⟨old', hold', hin'⟩ | ⟨heq', _⟩
      · exact absurd (h.known k' old' hold' t hin').1 (hnew t hfresh)
      · exact heq.trans heq'.symm
  · rw [haccepted]
    exact h.once
  · intro t ht
    rw [haccepted] at ht
    rw [hgenerated]
    exact List.mem_append_right _ (h.made t ht)

-- The event that a version was approved is about no token.
theorem Distinct.send (h : Distinct pending log) (update : Update) :
    Distinct pending (.sent update :: log) := ⟨h.nodup, h.known, h.apart, h.once, h.made⟩

theorem Distinct.handled (h : Distinct r.server.pendingApprovals r.log) (hr' : Handled r cmd r')
    (hdistinct : (generated r'.log).Nodup) : Distinct r'.server.pendingApprovals r'.log := by
  cases hr' with
  | ignored => exact h
  | sought _ _ => exact h.seek hdistinct
  | @last key token tokens _ hlookup htoken _ =>
    apply Distinct.send
    apply h.accept hlookup htoken rfl rfl (fun k hne ↦ AList.lookup_erase_ne hne)
    intro left hleft
    rw [AList.lookup_erase] at hleft
    cases hleft
  | @more key token tokens _ hlookup htoken =>
    apply h.accept hlookup htoken rfl rfl (fun k hne ↦ AList.lookup_insert_ne hne)
    intro left hleft
    rw [AList.lookup_insert] at hleft
    exact (Option.some.inj hleft).symm
  | @rejected key token tokens _ hlookup htoken =>
    apply h.accept hlookup htoken rfl rfl (fun k hne ↦ AList.lookup_erase_ne hne)
    intro left hleft
    rw [AList.lookup_erase] at hleft
    cases hleft

/-! ## The runs -/

-- A command makes new tokens or none.
theorem Handled.generated_suffix (h : Handled r cmd r') :
    (generated r.log).Sublist (generated r'.log) := by
  cases h with
  | ignored => exact List.Sublist.refl _
  | sought _ _ => exact List.sublist_append_right _ _
  | last _ _ _ _ => exact List.Sublist.refl _
  | more _ _ _ => exact List.Sublist.refl _
  | rejected _ _ _ => exact List.Sublist.refl _

theorem once_started (h : r.Started) : Once r := by
  have ⟨hook, hooks, heq⟩ := h
  rw [heq]
  refine ⟨List.cons_ne_nil _ _, ?_, ?_, ?_⟩
  · intro key hmem
    cases hmem
  · intro n s hmem
    cases hmem
  · intro n s
    exact Nat.zero_le 1

theorem distinct_started (h : r.Started) : Distinct r.server.pendingApprovals r.log := by
  have ⟨hook, hooks, heq⟩ := h
  rw [heq]
  refine ⟨?_, ?_, ?_, List.nodup_nil, List.forall_mem_nil _⟩
  · intro key tokens hlookup
    cases hlookup
  · intro key tokens hlookup
    cases hlookup
  · intro key key' tokens tokens' hlookup
    cases hlookup

-- The invariants of a run; that of the tokens needs that no token was made twice.
theorem once_of_reach {r : Review source} (h : Reach step anyStep Started r) :
    Once r ∧ ((generated r.log).Nodup → Distinct r.server.pendingApprovals r.log) := by
  apply h.invariant (I := fun r ↦ Once r ∧
    ((generated r.log).Nodup → Distinct r.server.pendingApprovals r.log))
  · intro r hr
    exact ⟨once_started hr, fun _ ↦ distinct_started hr⟩
  · intro r a r' ⟨honce, hapart⟩ _ hstep
    have hhandled := step_handled honce.hooks hstep
    refine ⟨honce.handled hhandled, ?_⟩
    intro hnodup
    exact (hapart (hnodup.sublist hhandled.generated_suffix)).handled hhandled hnodup

/-- On a review server with hooks, in every run in which no token is made twice: the event that a
version was approved is sent at most once, a token is accepted at most once, and no version that was
approved is pending.  A command leaves the tokens of the other versions alone. -/
theorem approved_at_most_once {r : Review source} (h : Reach step anyStep Started r)
    (hdistinct : (generated r.log).Nodup) :
    (∀ n s, r.log.count (.sent (source.approvedEvent n s)) ≤ 1) ∧
    (accepted r.log).Nodup ∧
    (∀ key ∈ r.server.lastApprovals, key ∉ r.server.pendingApprovals) ∧
    ∀ a r', step r a = some r' → ∀ key, ZoneServer.concerns a.1 ≠ some key →
      r'.server.pendingApprovals.lookup key = r.server.pendingApprovals.lookup key := by
  have ⟨honce, hapart⟩ := once_of_reach h
  refine ⟨honce.once, (hapart hdistinct).once, honce.apart, ?_⟩
  intro a r' hstep key hkey
  exact (step_handled honce.hooks hstep).pending_ne hkey

open TwoHooks in
/-- The version is asked for twice before both hooks of each round are approved, and once more. -/
theorem approved_once_of_two_rounds :
    ∃ r : Review .SignedZones, .sent (.SignedZoneApprovedEvent zone ⟨1⟩) ∈ r.log ∧
      r.log.count (.sent (.SignedZoneApprovedEvent zone ⟨1⟩)) ≤ 1 ∧
      (zone, ⟨1⟩) ∈ r.server.lastApprovals ∧ (zone, ⟨1⟩) ∉ r.server.pendingApprovals := by
  have hrun : ∃ r : Review .SignedZones, Reach step anyStep Started r ∧
      decide (.sent (.SignedZoneApprovedEvent zone ⟨1⟩) ∈ r.log ∧
        (zone, ⟨1⟩) ∈ r.server.lastApprovals ∧ generated r.log = [3, 4, 1, 2]) = true :=
    Reach.of_exec_any server_started
      [seek true true,
        (.SeekApprovalForSignedZone zone ⟨1⟩, fun i ↦ (if i = 0 then 3 else 4, true)),
        approve 3, approve 1, approve 2, approve 4, approve 4, seek true true] (by decide)
  have ⟨r, hr, hend⟩ := hrun
  have ⟨hsent, hlast, hgenerated⟩ := of_decide_eq_true hend
  have hdistinct : (generated r.log).Nodup := by
    rw [hgenerated]
    decide
  have ⟨honce, _, hapart, _⟩ := approved_at_most_once hr hdistinct
  exact ⟨r, hsent, honce zone ⟨1⟩, hlast, hapart _ hlast⟩

end Review

end Cascade

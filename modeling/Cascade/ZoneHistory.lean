import Cascade.LightWeightZone
import Cascade.Lib.Runs

/-!
# The history of a zone store

A zone store from its creation on, with the operations of all its write sessions in the order in
which they are carried out.  Sessions may be open at the same time, and a node may be used at any
time after it was obtained.  What a reader is shown is compared with what was stored last.
-/

namespace Cascade

open Lib

namespace LightWeightZone

/-- A zone with the nodes of all sessions, and the operations on them, by the name of the node and
the last one first. -/
structure History extends Session where
  log : List (Name × NodeOp)

/-- The RRset of a name and a type that was stored last and not removed since. -/
def lastStored (skipSigned : Bool) (p : Name × Rtype) : List (Name × NodeOp) → Option Rrset
  | [] => none
  | (name, .updateRrset rrset) :: log =>
    if p = (name, rrset.rtype) ∧ ¬(rrset.rtype ∈ signedTypes ∧ skipSigned = true) then some rrset
    else lastStored skipSigned p log
  | (name, .removeRrset rtype) :: log =>
    if p = (name, rtype) then none else lastStored skipSigned p log
  | (_, .removeAll) :: _ => none
  | (_, .updateChild _) :: log => lastStored skipSigned p log
  | (_, .getRrset _) :: log => lastStored skipSigned p log

namespace History

inductive Action
  | openNode
  | nodeOp (i : Nat) (op : NodeOp)
  | commit

/-- An operation needs a node that was obtained before; one that panics is not possible. -/
def step (h : History) : Action → Option History
  | .openNode =>
    let (zone, node) := h.zone.openNode
    some { h with zone, nodes := h.nodes ++ [node] }
  | .nodeOp i op =>
    match h.nodes[i]?, h.apply (i, op) with
    | some node, some session => some { toSession := session, log := (node.name, op) :: h.log }
    | _, _ => none
  | .commit => some { h with zone := h.zone.commit }

/-- A new zone without sessions. -/
def Started (h : History) : Prop :=
  ∃ root skipSigned, h = { zone := new root skipSigned, nodes := [], log := [] }

/-- The zone stores what the log says, and its nodes skip what it skips. -/
structure Tracked (h : History) : Prop where
  content : ∀ p, h.zone.content p = lastStored h.zone.skipSigned p h.log
  nodes : ∀ node ∈ h.nodes, node.skipSigned = h.zone.skipSigned

variable {h h' : History} {node : SimpleZoneNode} {op : NodeOp} {i : Nat}

-- What an operation writes is what the log gains.
theorem lastStored_cons {c : Name × Rtype → Option Rrset} {log : List (Name × NodeOp)}
    (hc : ∀ p, c p = lastStored node.skipSigned p log) (op : NodeOp) (p : Name × Rtype) :
    (writeOf node op).foldl Write.apply c p =
      lastStored node.skipSigned p ((node.name, op) :: log) := by
  cases op with
  | updateChild label => exact hc p
  | getRrset rtype => exact hc p
  | updateRrset rrset =>
    rw [writeOf, lastStored]
    by_cases hskip : rrset.rtype ∈ signedTypes ∧ node.skipSigned = true
    · rw [if_pos hskip, if_neg (fun h ↦ h.2 hskip)]
      exact hc p
    · rw [if_neg hskip]
      show Function.update c (node.name, rrset.rtype) (some rrset) p = _
      by_cases hp : p = (node.name, rrset.rtype)
      · rw [if_pos ⟨hp, hskip⟩, hp, Function.update_self]
      · rw [if_neg (fun h ↦ hp h.1), Function.update_of_ne hp]
        exact hc p
  | removeRrset rtype =>
    show Function.update c (node.name, rtype) none p = _
    unfold lastStored
    by_cases hp : p = (node.name, rtype)
    · rw [if_pos hp, hp, Function.update_self]
    · rw [if_neg hp, Function.update_of_ne hp]
      exact hc p
  | removeAll => rfl

-- A zone skips what it skipped before, and so does every node.
theorem skipSigned_apply {s s' : Session} (hnode : s.nodes[i]? = some node)
    (happly : s.apply (i, op) = some s') :
    s'.zone.skipSigned = s.zone.skipSigned ∧
      ∀ other ∈ s'.nodes, other ∈ s.nodes ∨ other.skipSigned = node.skipSigned := by
  simp only [Session.apply, hnode] at happly
  cases op with
  | updateChild label =>
    obtain ⟨child, hchild, hs⟩ := Option.map_eq_some_iff.mp happly
    obtain ⟨name, _, hname⟩ := Option.map_eq_some_iff.mp hchild
    rw [← hs]
    refine ⟨rfl, ?_⟩
    intro other hmem
    rcases List.mem_append.mp hmem with hold | hnew
    · exact Or.inl hold
    · rw [List.mem_singleton.mp hnew, ← hname]
      exact Or.inr rfl
  | getRrset rtype =>
    cases happly
    exact ⟨rfl, fun _ hmem ↦ Or.inl hmem⟩
  | updateRrset rrset =>
    cases happly
    refine ⟨?_, fun _ hmem ↦ Or.inl hmem⟩
    unfold updateRrset
    split
    · rfl
    · split
      · rfl
      · rfl
  | removeRrset rtype =>
    cases happly
    refine ⟨?_, fun _ hmem ↦ Or.inl hmem⟩
    unfold removeRrset
    split
    · rfl
    · rfl
  | removeAll =>
    cases happly
    exact ⟨rfl, fun _ hmem ↦ Or.inl hmem⟩

theorem step_nodeOp (hstep : h.step (.nodeOp i op) = some h') :
    ∃ node session, h.nodes[i]? = some node ∧ h.apply (i, op) = some session ∧
      h' = { toSession := session, log := (node.name, op) :: h.log } := by
  simp only [step] at hstep
  split at hstep
  next node session hnode hsession => exact ⟨node, session, hnode, hsession, by cases hstep; rfl⟩
  · cases hstep

theorem tracked_step {a : Action} (ht : h.Tracked) (hstep : h.step a = some h') : h'.Tracked := by
  cases a with
  | openNode =>
    cases hstep
    refine ⟨ht.content, ?_⟩
    intro node hmem
    rcases List.mem_append.mp hmem with hold | hnew
    · exact ht.nodes node hold
    · rw [List.mem_singleton.mp hnew]
  | nodeOp i op =>
    obtain ⟨node, session, hnode, happly, hh'⟩ := step_nodeOp hstep
    have hmem : node ∈ h.nodes := List.mem_of_getElem? hnode
    have ⟨hzone, hnodes⟩ := skipSigned_apply hnode happly
    rw [hh']
    constructor
    · intro p
      show session.zone.content p = lastStored session.zone.skipSigned p _
      rw [content_apply hnode happly, hzone, ← ht.nodes node hmem]
      apply lastStored_cons
      intro p
      rw [ht.nodes node hmem]
      exact ht.content p
    · intro other hother
      show other.skipSigned = session.zone.skipSigned
      rw [hzone]
      rcases hnodes other hother with hold | hsame
      · exact ht.nodes other hold
      · rw [hsame]
        exact ht.nodes node hmem
  | commit =>
    cases hstep
    exact ⟨ht.content, ht.nodes⟩

theorem tracked_started (hs : h.Started) : h.Tracked := by
  have ⟨root, skipSigned, heq⟩ := hs
  rw [heq]
  exact ⟨fun _ ↦ rfl, List.forall_mem_nil _⟩

-- A zone does not hold the types that it skips.
theorem lastStored_signed (p : Name × Rtype) (hp : p.2 ∈ signedTypes)
    (log : List (Name × NodeOp)) : lastStored true p log = none := by
  induction log with
  | nil => rfl
  | cons e log ih =>
    have ⟨name, op⟩ := e
    cases op with
    | updateChild label => exact ih
    | getRrset rtype => exact ih
    | updateRrset rrset =>
      unfold lastStored
      rw [if_neg]
      · exact ih
      · intro ⟨heq, hskip⟩
        rw [heq] at hp
        exact hskip ⟨hp, rfl⟩
    | removeRrset rtype =>
      unfold lastStored
      split
      · rfl
      · exact ih
    | removeAll => rfl

end History

-- A walk visits one RRset for each name and type.
theorem walk_keys_nodup (z : LightWeightZone) :
    (z.walk.map (fun v ↦ (v.1, v.2.1.rtype))).Nodup := by
  apply List.Nodup.map_on _ (walk_nodup z)
  intro v hv v' hv' heq
  have ⟨hcut, hcontent⟩ := (mem_walk z v).mp hv
  have ⟨hcut', hcontent'⟩ := (mem_walk z v').mp hv'
  have ⟨hname, hrtype⟩ := Prod.mk.inj heq
  rw [hname, hrtype, hcontent'] at hcontent
  exact Prod.ext hname (Prod.ext (Option.some.inj hcontent).symm (hcut.trans hcut'.symm))

-- A node writes under its own name, unless it clears the zone.
theorem name_of_touches {node : SimpleZoneNode} {op : NodeOp} (hop : op ≠ .removeAll) {w : Write}
    (hw : w ∈ writeOf node op) {p : Name × Rtype} (htouch : w.Touches p) : p.1 = node.name := by
  cases op with
  | updateChild label => cases hw
  | getRrset rtype => cases hw
  | updateRrset rrset =>
    rw [writeOf] at hw
    split at hw
    · cases hw
    · rw [List.mem_singleton.mp hw] at htouch
      exact congrArg Prod.fst htouch
  | removeRrset rtype =>
    rw [List.mem_singleton.mp hw] at htouch
    exact congrArg Prod.fst htouch
  | removeAll => exact absurd rfl hop

namespace History

variable {h : History}

/-- In every history of write sessions on a zone that was empty: a query and `get_rrset` return the
RRset of the name and type that was stored last and not removed since, and a walk visits these
RRsets, one for each name and type, with their owner names.  An operation on one node leaves what is
stored for other names alone, unless it clears the zone.  A zone that skips signed records stores
none of them, and any other RRset is stored as it is.  A session begins at the apex, and the child of
a node has a name with one label more. -/
theorem store_refines_map (hreach : Reach step anyStep Started h) :
    (∀ name rtype, h.zone.query name rtype =
      { rcode := .NOERROR, answer := lastStored h.zone.skipSigned (name, rtype) h.log }) ∧
    (∀ node rtype, h.zone.getRrset node rtype =
      lastStored h.zone.skipSigned (node.name, rtype) h.log) ∧
    (∀ v, v ∈ h.zone.walk ↔ v.2.2 = false ∧
      lastStored h.zone.skipSigned (v.1, v.2.1.rtype) h.log = some v.2.1) ∧
    (h.zone.walk.map (fun v ↦ (v.1, v.2.1.rtype))).Nodup ∧
    (∀ i op node h', h.nodes[i]? = some node → op ≠ .removeAll →
      h.step (.nodeOp i op) = some h' → ∀ name, name ≠ node.name → ∀ rtype,
        h'.zone.query name rtype = h.zone.query name rtype) ∧
    (h.zone.skipSigned = true → ∀ name, ∀ rtype ∈ signedTypes,
      (h.zone.query name rtype).answer = none) ∧
    (∀ h', h.step .openNode = some h' →
      h'.nodes = h.nodes ++ [⟨h.zone.root, h.zone.skipSigned⟩]) ∧
    (∀ i label node h', h.nodes[i]? = some node →
      h.step (.nodeOp i (.updateChild label)) = some h' →
      ∃ child, h'.nodes = h.nodes ++ [child] ∧
        child.name.labels = label.map lowerByte :: node.name.labels) ∧
    ∀ i rrset node h', h.nodes[i]? = some node →
      h.step (.nodeOp i (.updateRrset rrset)) = some h' →
      (h.zone.skipSigned = true → rrset.rtype ∉ signedTypes) →
        (h'.zone.query node.name rrset.rtype).answer = some rrset := by
  have hinv : ∀ {h : History}, Reach step anyStep Started h → h.Tracked := by
    intro h hreach
    apply hreach.invariant (I := Tracked)
    · intro h hs
      exact tracked_started hs
    · intro h a h' ht _ hstep
      exact tracked_step ht hstep
  have ht := hinv hreach
  refine ⟨?_, ?_, ?_, walk_keys_nodup h.zone, ?_, ?_, ?_, ?_, ?_⟩
  · intro name rtype
    rw [query_eq, ht.content]
  · intro node rtype
    exact ht.content (node.name, rtype)
  · intro v
    rw [mem_walk, ht.content]
  · intro i op node h' hnode hop hstep name hname rtype
    obtain ⟨node', session, hnode', happly, hh'⟩ := step_nodeOp hstep
    rw [hnode, Option.some.injEq] at hnode'
    rw [hh', query_eq, query_eq, content_apply hnode happly, foldl_apply_of_not_touches]
    intro w hw htouch
    exact hname (name_of_touches hop hw htouch)
  · intro hskip name rtype hsigned
    rw [query_eq, ht.content, hskip]
    exact lastStored_signed (name, rtype) hsigned h.log
  · intro h' hstep
    cases hstep
    rfl
  · intro i label node h' hnode hstep
    obtain ⟨node', session, hnode', happly, hh'⟩ := step_nodeOp hstep
    rw [hnode, Option.some.injEq] at hnode'
    simp only [Session.apply, hnode] at happly
    obtain ⟨child, hchild, hsession⟩ := Option.map_eq_some_iff.mp happly
    refine ⟨child, ?_, updateChild_labels hchild⟩
    rw [hh', ← hsession]
  · intro i rrset node h' hnode hstep htakes
    have ht' := tracked_step ht hstep
    obtain ⟨node', session, hnode', happly, hh'⟩ := step_nodeOp hstep
    rw [hnode, Option.some.injEq] at hnode'
    have hzone := (skipSigned_apply (hnode' ▸ hnode) happly).1
    rw [query_eq, ht'.content, hh', hnode']
    show lastStored session.zone.skipSigned _ _ = _
    rw [hzone, lastStored, if_pos]
    exact ⟨rfl, fun hskip ↦ htakes hskip.2 hskip.1⟩

namespace HistoryExample

def child : Name := ⟨[[119], [122]], by decide⟩

/-- Two RRsets and one that is skipped are stored in a session, and one of them is removed in the
next one. -/
def twoSessions : List Action :=
  [.openNode, .nodeOp 0 (.updateChild [87]),
    .nodeOp 0 (.updateRrset (SessionExample.rrset Rtype.A [1])),
    .nodeOp 1 (.updateRrset (SessionExample.rrset Rtype.A [2])),
    .nodeOp 1 (.updateRrset (SessionExample.rrset Rtype.RRSIG [3])), .commit,
    .openNode, .nodeOp 2 (.removeRrset Rtype.A)]

end HistoryExample

open HistoryExample in
theorem two_sessions_stored : ∃ h : History,
    (h.zone.query child Rtype.A).answer = some (SessionExample.rrset Rtype.A [2]) ∧
    (h.zone.query child Rtype.RRSIG).answer = none ∧
    (h.zone.query SessionExample.apex Rtype.A).answer = none := by
  have hstarted : Started { zone := new SessionExample.apex true, nodes := [], log := [] } :=
    ⟨SessionExample.apex, true, rfl⟩
  have hrun : ∃ h : History, Reach step anyStep Started h ∧
      decide (h.zone.skipSigned = true ∧
        lastStored true (child, Rtype.A) h.log = some (SessionExample.rrset Rtype.A [2]) ∧
        lastStored true (SessionExample.apex, Rtype.A) h.log = none) = true :=
    Reach.of_exec_any hstarted twoSessions (by decide)
  have ⟨h, hreach, hend⟩ := hrun
  have ⟨hskip, hchild, hapex⟩ := of_decide_eq_true hend
  have ⟨hquery, _, _, _, _, hsigned, _⟩ := store_refines_map hreach
  refine ⟨h, ?_, hsigned hskip child Rtype.RRSIG (by decide), ?_⟩
  · rw [hquery, hskip, hchild]
  · rw [hquery, hskip, hapex]

end History

end LightWeightZone

end Cascade

import Cascade.Base
import Cascade.Lib.HashMap
import Cascade.Lib.KeySet

/-!
# The light-weight zone store

A zone is one tree from owner names to sets of RRsets, shared by every reader and every write
session.  A write session is a handle on the tree: its nodes are names, and each operation on a
node is carried out on the tree at once.  What a session does is described on the map from owner
name and record type to RRset that the tree stores.
-/

namespace Cascade

open Lib

/-- RRsets hash and compare by their type alone. -/
abbrev RrsetSet := KeySet Rrset.rtype

inductive Rcode
  | NOERROR
  | other (code : UInt8)
deriving DecidableEq

structure Answer where
  rcode : Rcode
  answer : Option Rrset
deriving DecidableEq

/-- `LightWeightZone`: the zone's tree and the counter of skipped records, as seen by all handles. -/
structure LightWeightZone where
  root : Name
  tree : HashMap Name RrsetSet
  skipped : Nat
  skipSigned : Bool

namespace LightWeightZone

def new (root : Name) (skipSigned : Bool) : LightWeightZone :=
  { root, tree := ∅, skipped := 0, skipSigned }

/-! ## Reading -/

def query (z : LightWeightZone) (qname : Name) (qtype : Rtype) : Answer :=
  match z.tree.lookup qname with
  | some rrsets => { rcode := .NOERROR, answer := rrsets.find qtype }
  | none => { rcode := .NOERROR, answer := none }

/-- The calls of the operation given to `walk`, in order. -/
def walk (z : LightWeightZone) : List (Name × Rrset × Bool) :=
  z.tree.entries.flatMap (fun e ↦ e.2.elems.map (fun rrset ↦ (e.1, rrset, false)))

/-! ## Writing -/

/-- `SimpleZoneNode`; the tree and the counter are those of the zone. -/
structure SimpleZoneNode where
  name : Name
  skipSigned : Bool
deriving DecidableEq

/-- `WritableZone::open` -/
def openNode (z : LightWeightZone) : LightWeightZone × SimpleZoneNode :=
  ({ z with skipped := 0 }, { name := z.root, skipSigned := z.skipSigned })

/-- `WritableZone::commit` -/
def commit (z : LightWeightZone) : LightWeightZone := z

/-- The label is one of a name, in any case.  Panics (`none`) when the new name would be too long. -/
def updateChild (node : SimpleZoneNode) (label : Label) : Option SimpleZoneNode :=
  (node.name.child (label.map lowerByte)).map (fun name ↦ { node with name })

theorem updateChild_labels {node child : SimpleZoneNode} {label : Label}
    (h : updateChild node label = some child) :
    child.name.labels = label.map lowerByte :: node.name.labels := by
  obtain ⟨name, hname, hchild⟩ := Option.map_eq_some_iff.mp h
  unfold Name.child at hname
  split at hname
  · cases hname
    rw [← hchild]
  · cases hname

def getRrset (z : LightWeightZone) (node : SimpleZoneNode) (rtype : Rtype) : Option Rrset :=
  (z.tree.lookup node.name).bind (fun rrsets ↦ rrsets.find rtype)

/-- The types that a zone with `skip_signed` does not take. -/
def signedTypes : List Rtype :=
  [Rtype.DNSKEY, Rtype.RRSIG, Rtype.NSEC, Rtype.NSEC3, Rtype.NSEC3PARAM]

def updateRrset (z : LightWeightZone) (node : SimpleZoneNode) (rrset : Rrset) : LightWeightZone :=
  if rrset.rtype ∈ signedTypes ∧ node.skipSigned = true then { z with skipped := z.skipped + 1 }
  else
    match z.tree.lookup node.name with
    | none => { z with tree := z.tree.insert node.name (KeySet.singleton rrset) }
    | some rrsets => { z with tree := z.tree.insert node.name (rrsets.replace rrset) }

def removeRrset (z : LightWeightZone) (node : SimpleZoneNode) (rtype : Rtype) :
    LightWeightZone :=
  match z.tree.lookup node.name with
  | none => z
  | some rrsets =>
    { z with
      tree := z.tree.insert node.name (rrsets.retain (fun rrset ↦ decide (rrset.rtype ≠ rtype))) }

/-- Whatever the node, the whole tree is cleared. -/
def removeAll (z : LightWeightZone) (_ : SimpleZoneNode) : LightWeightZone :=
  { z with tree := ∅ }

/-! ## The stored map -/

/-- The RRset that is stored for a name and a type. -/
def content (z : LightWeightZone) (p : Name × Rtype) : Option Rrset :=
  (z.tree.lookup p.1).bind (fun rrsets ↦ rrsets.find p.2)

theorem query_eq (z : LightWeightZone) (qname : Name) (qtype : Rtype) :
    z.query qname qtype = { rcode := .NOERROR, answer := z.content (qname, qtype) } := by
  unfold query content
  cases z.tree.lookup qname with
  | none => rfl
  | some rrsets => rfl

-- A walk visits what is stored.
theorem mem_walk (z : LightWeightZone) (v : Name × Rrset × Bool) :
    v ∈ z.walk ↔ v.2.2 = false ∧ z.content (v.1, v.2.1.rtype) = some v.2.1 := by
  rcases v with ⟨name, rrset, cut⟩
  unfold walk content
  simp only [List.mem_flatMap, List.mem_map, Prod.mk.injEq, Option.bind_eq_some_iff]
  refine ⟨?_, ?_⟩
  · intro h
    rcases h with ⟨⟨name', rrsets⟩, he, r, hr, hname, hrrset, hcut⟩
    subst hname hrrset hcut
    exact ⟨rfl, rrsets, HashMap.lookup_eq_some_iff.mpr he, KeySet.find_eq_some_iff.mpr ⟨hr, rfl⟩⟩
  · intro h
    rcases h with ⟨hcut, rrsets, hl, hf⟩
    exact ⟨⟨name, rrsets⟩, HashMap.lookup_eq_some_iff.mp hl, rrset,
      (KeySet.find_eq_some_iff.mp hf).1, rfl, rfl, hcut.symm⟩

-- A walk visits each RRset once.
theorem walk_nodup (z : LightWeightZone) : z.walk.Nodup := by
  unfold walk
  rw [List.nodup_flatMap]
  refine ⟨?_, ?_⟩
  · intro e _
    refine List.Nodup.map ?_ (List.Nodup.of_map _ e.2.nodup)
    intro a b hab
    exact (Prod.mk.inj (Prod.mk.inj hab).2).1
  · refine (List.nodupKeys_iff_pairwise.mp z.tree.nodupKeys).imp ?_
    intro e e' hne v hv hv'
    -- two visits in different entries have different owner names
    rcases List.mem_map.mp hv with ⟨r, -, hr⟩
    rcases List.mem_map.mp hv' with ⟨r', -, hr'⟩
    rw [← hr] at hr'
    exact hne (Prod.mk.inj hr').1.symm

/-- What an operation does to the stored map. -/
inductive Write
  | store (name : Name) (rrset : Rrset)
  | remove (name : Name) (rtype : Rtype)
  | clear

def Write.apply (c : Name × Rtype → Option Rrset) : Write → Name × Rtype → Option Rrset
  | .store name rrset => Function.update c (name, rrset.rtype) (some rrset)
  | .remove name rtype => Function.update c (name, rtype) none
  | .clear => fun _ ↦ none

/-- The entries of the map that a write sets. -/
def Write.Touches (p : Name × Rtype) : Write → Prop
  | .store name rrset => p = (name, rrset.rtype)
  | .remove name rtype => p = (name, rtype)
  | .clear => True

theorem Write.apply_of_not_touches {w : Write} {p : Name × Rtype} (h : ¬w.Touches p)
    (c : Name × Rtype → Option Rrset) : w.apply c p = c p := by
  cases w with
  | store name rrset => exact Function.update_of_ne h _ _
  | remove name rtype => exact Function.update_of_ne h _ _
  | clear => exact absurd trivial h

theorem foldl_apply_of_not_touches {ws : List Write} {p : Name × Rtype}
    (h : ∀ w ∈ ws, ¬w.Touches p) (c : Name × Rtype → Option Rrset) :
    ws.foldl Write.apply c p = c p := by
  induction ws generalizing c with
  | nil => rfl
  | cons w ws ih =>
    rw [List.foldl_cons, ih (fun w' hw' ↦ h w' (List.mem_cons_of_mem w hw')),
      Write.apply_of_not_touches (h w List.mem_cons_self)]

theorem content_insert (z : LightWeightZone) (name : Name) (rrsets : RrsetSet) :
    content { z with tree := z.tree.insert name rrsets } =
      fun p ↦ if p.1 = name then rrsets.find p.2 else z.content p := by
  funext p
  unfold content
  rcases p with ⟨name', rtype⟩
  by_cases hp : name' = name
  · subst hp
    simp
  · simp [hp]

-- Storing an RRset sets its own entry, unless its type is one the zone does not take.
theorem content_updateRrset (z : LightWeightZone) (node : SimpleZoneNode) (rrset : Rrset) :
    (z.updateRrset node rrset).content =
      if rrset.rtype ∈ signedTypes ∧ node.skipSigned = true then z.content
      else Write.apply z.content (.store node.name rrset) := by
  unfold updateRrset
  by_cases hskip : rrset.rtype ∈ signedTypes ∧ node.skipSigned = true
  · rw [if_pos hskip, if_pos hskip]
    rfl
  · rw [if_neg hskip, if_neg hskip]
    cases hl : z.tree.lookup node.name with
    | none =>
      rw [content_insert]
      funext p
      rcases p with ⟨name, rtype⟩
      by_cases hname : name = node.name
      · subst hname
        simp [Write.apply, Function.update_apply, KeySet.find_singleton, content, hl]
      · simp [Write.apply, hname]
    | some rrsets =>
      rw [content_insert]
      funext p
      rcases p with ⟨name, rtype⟩
      by_cases hname : name = node.name
      · subst hname
        simp [Write.apply, Function.update_apply, KeySet.find_replace, content, hl]
      · simp [Write.apply, hname]

theorem content_removeRrset (z : LightWeightZone) (node : SimpleZoneNode) (rtype : Rtype) :
    (z.removeRrset node rtype).content = Write.apply z.content (.remove node.name rtype) := by
  unfold removeRrset
  cases hl : z.tree.lookup node.name with
  | none =>
    funext p
    rcases p with ⟨name, rtype'⟩
    by_cases hname : name = node.name
    · subst hname
      simp [Write.apply, Function.update_apply, content, hl]
    · simp [Write.apply, hname]
  | some rrsets =>
    rw [content_insert]
    funext p
    rcases p with ⟨name, rtype'⟩
    by_cases hname : name = node.name
    · subst hname
      simp only [if_true, KeySet.find_retain_ne]
      simp [Write.apply, Function.update_apply, content, hl]
    · simp [Write.apply, hname]

/-! ## Write sessions -/

inductive NodeOp
  | updateChild (label : Label)
  | getRrset (rtype : Rtype)
  | updateRrset (rrset : Rrset)
  | removeRrset (rtype : Rtype)
  | removeAll

/-- A write session: the zone and the nodes obtained so far, the apex node first. -/
structure Session where
  zone : LightWeightZone
  nodes : List SimpleZoneNode

namespace Session

def start (z : LightWeightZone) : Session :=
  let (zone, node) := z.openNode
  { zone, nodes := [node] }

/-- One operation on the node of that number; `none` when it panics. -/
def apply (s : Session) (op : Nat × NodeOp) : Option Session :=
  match s.nodes[op.1]? with
  | none => some s
  | some node =>
    match op.2 with
    | .updateChild label =>
      (LightWeightZone.updateChild node label).map
        (fun child ↦ { s with nodes := s.nodes ++ [child] })
    | .getRrset _ => some s
    | .updateRrset rrset => some { s with zone := s.zone.updateRrset node rrset }
    | .removeRrset rtype => some { s with zone := s.zone.removeRrset node rtype }
    | .removeAll => some { s with zone := s.zone.removeAll node }

/-- The operations in order, up to the first that panics. -/
def run (s : Session) : List (Nat × NodeOp) → Session
  | [] => s
  | op :: ops =>
    match s.apply op with
    | none => s
    | some s' => s'.run ops

/-- How a session ends. -/
inductive End
  | dropped
  | committed

def finish (s : Session) : End → LightWeightZone
  | .dropped => s.zone
  | .committed => s.zone.commit

end Session

/-- The write of an operation on a node, if it writes at all. -/
def writeOf (node : SimpleZoneNode) : NodeOp → List Write
  | .updateChild _ => []
  | .getRrset _ => []
  | .updateRrset rrset =>
    if rrset.rtype ∈ signedTypes ∧ node.skipSigned = true then [] else [.store node.name rrset]
  | .removeRrset rtype => [.remove node.name rtype]
  | .removeAll => [.clear]

/-- The nodes after an operation; `none` when it panics. -/
def nodesAfter (nodes : List SimpleZoneNode) (node : SimpleZoneNode) :
    NodeOp → Option (List SimpleZoneNode)
  | .updateChild label =>
    (LightWeightZone.updateChild node label).map (fun child ↦ nodes ++ [child])
  | _ => some nodes

/-- The writes of a session with the given nodes. -/
def writes (nodes : List SimpleZoneNode) : List (Nat × NodeOp) → List Write
  | [] => []
  | op :: ops =>
    match nodes[op.1]? with
    | none => writes nodes ops
    | some node =>
      writeOf node op.2 ++
        match nodesAfter nodes node op.2 with
        | none => []
        | some nodes' => writes nodes' ops

theorem nodes_apply {s : Session} {i : Nat} {op : NodeOp} {node : SimpleZoneNode}
    (hnode : s.nodes[i]? = some node) :
    (s.apply (i, op)).map Session.nodes = nodesAfter s.nodes node op := by
  simp only [Session.apply, hnode]
  cases op with
  | updateChild label =>
    rw [Option.map_map]
    rfl
  | getRrset rtype => rfl
  | updateRrset rrset => rfl
  | removeRrset rtype => rfl
  | removeAll => rfl

-- Only `update_child` can panic.
theorem writeOf_of_panic {s : Session} {i : Nat} {op : NodeOp} {node : SimpleZoneNode}
    (hnode : s.nodes[i]? = some node) (h : s.apply (i, op) = none) : writeOf node op = [] := by
  simp only [Session.apply, hnode] at h
  cases op with
  | updateChild label => rfl
  | getRrset rtype => rfl
  | updateRrset rrset => cases h
  | removeRrset rtype => cases h
  | removeAll => cases h

-- An operation that does not panic writes at once what it has to write.
theorem content_apply {s s' : Session} {i : Nat} {op : NodeOp} {node : SimpleZoneNode}
    (hnode : s.nodes[i]? = some node) (h : s.apply (i, op) = some s') :
    s'.zone.content = (writeOf node op).foldl Write.apply s.zone.content := by
  simp only [Session.apply, hnode] at h
  cases op with
  | updateChild label =>
    rcases Option.map_eq_some_iff.mp h with ⟨child, -, hs⟩
    subst hs
    rfl
  | getRrset rtype =>
    cases h
    rfl
  | updateRrset rrset =>
    cases h
    rw [content_updateRrset, writeOf]
    by_cases hskip : rrset.rtype ∈ signedTypes ∧ node.skipSigned = true
    · rw [if_pos hskip, if_pos hskip]
      rfl
    · rw [if_neg hskip, if_neg hskip]
      rfl
  | removeRrset rtype =>
    cases h
    exact content_removeRrset s.zone node rtype
  | removeAll =>
    cases h
    rfl

-- After any number of operations the tree holds all writes of the session so far.
theorem content_run (s : Session) (ops : List (Nat × NodeOp)) :
    (s.run ops).zone.content = (writes s.nodes ops).foldl Write.apply s.zone.content := by
  induction ops generalizing s with
  | nil => rfl
  | cons op ops ih =>
    rcases op with ⟨i, op⟩
    rw [Session.run, writes]
    cases hnode : s.nodes[i]? with
    | none =>
      have happ : s.apply (i, op) = some s := by simp [Session.apply, hnode]
      simp only [happ]
      exact ih s
    | some node =>
      have hnodes := @nodes_apply s i op node hnode
      cases happ : s.apply (i, op) with
      | none =>
        rw [happ] at hnodes
        simp only [← hnodes, Option.map_none, writeOf_of_panic hnode happ]
        rfl
      | some s' =>
        rw [happ] at hnodes
        simp only [← hnodes, Option.map_some, List.foldl_append, ← content_apply hnode happ]
        exact ih s'

/-- A session writes through: at any of its points, and whether it is then dropped or committed,
queries and walks show the content before it with all its writes so far carried out in order.  An
entry that none of them touches is answered as before. -/
theorem session_writes_through (z : LightWeightZone) (ops : List (Nat × NodeOp))
    (e : Session.End) :
    let written := (writes [z.openNode.2] ops).foldl Write.apply z.content
    let z' := ((Session.start z).run ops).finish e
    (∀ name rtype, z'.query name rtype = { rcode := .NOERROR, answer := written (name, rtype) }) ∧
      (∀ v, v ∈ z'.walk ↔ v.2.2 = false ∧ written (v.1, v.2.1.rtype) = some v.2.1) ∧
      z'.walk.Nodup ∧
      ∀ name rtype, (∀ w ∈ writes [z.openNode.2] ops, ¬w.Touches (name, rtype)) →
        z'.query name rtype = z.query name rtype := by
  intro written z'
  have hcontent : z'.content = written := by
    have hrun := content_run (Session.start z) ops
    cases e with
    | dropped => exact hrun
    | committed => exact hrun
  refine ⟨?_, ?_, walk_nodup z', ?_⟩
  · intro name rtype
    rw [query_eq, hcontent]
  · intro v
    rw [mem_walk, hcontent]
  · intro name rtype h
    have hsame : written (name, rtype) = z.content (name, rtype) :=
      foldl_apply_of_not_touches h z.content
    rw [query_eq, query_eq, hcontent, hsame]

namespace SessionExample

def apex : Name := ⟨[[122]], by decide⟩

def rrset (rtype : Rtype) (data : List UInt8) : Rrset :=
  { rtype, ttl := 3600, data := [.other rtype data] }

/-- A zone with an A and an NS RRset at its apex. -/
def zone : LightWeightZone :=
  ((Session.start (new apex true)).run
    [(0, .updateRrset (rrset Rtype.A [10])), (0, .updateRrset (rrset Rtype.NS [20]))]).finish
      .committed

end SessionExample

/-- A session that replaces one RRset and is dropped leaves the other as it was. -/
theorem dropped_replacement_keeps_others :
    (((Session.start SessionExample.zone).run
      [(0, .updateRrset (SessionExample.rrset Rtype.A [11]))]).finish .dropped).query
        SessionExample.apex Rtype.NS =
      SessionExample.zone.query SessionExample.apex Rtype.NS := by
  refine (session_writes_through SessionExample.zone
    [(0, .updateRrset (SessionExample.rrset Rtype.A [11]))] .dropped).2.2.2 _ _ ?_
  intro w hw
  have hw' : w = .store SessionExample.apex (SessionExample.rrset Rtype.A [11]) :=
    List.mem_singleton.mp hw
  rw [hw']
  show ¬(SessionExample.apex, Rtype.NS) = (SessionExample.apex, Rtype.A)
  decide

/-- The session of a full transfer that fails right after it has removed the old content.  Readers
find the zone empty, during the session and after it was dropped without a commit. -/
theorem dropped_removal_empties_zone :
    let session := (Session.start SessionExample.zone).run [(0, .removeAll)]
    SessionExample.zone.query SessionExample.apex Rtype.A ≠
        session.zone.query SessionExample.apex Rtype.A ∧
      SessionExample.zone.query SessionExample.apex Rtype.A ≠
        (session.finish .dropped).query SessionExample.apex Rtype.A ∧
      SessionExample.zone.walk ≠ (session.finish .dropped).walk := by
  decide

end LightWeightZone

end Cascade

import Cascade.Insertion

/-!
# An insertion that fails

`insert_zones` collects the primary zones of its list in a copy of the active zones, and stores the
copy when it has taken the whole list.  On its way a secondary zone goes into the pending ones, and
every zone is announced.  When a primary zone is already in the tree the call returns: the copy is
dropped, and what was put into the pending zones and into the queue stays.

Of the call there is only what it does by itself: that it waits while the queue is full is left out.
-/

namespace Cascade

open Lib

namespace Insertion

inductive ZoneTreeModificationError
  | ZoneExists
deriving DecidableEq

/-- `ZoneTree::insert_zone`. -/
def insertZone (tree : MemberZones) (zone : NewZone) :
    Except ZoneTreeModificationError MemberZones :=
  if zone.zoneId ∈ tree then .error .ZoneExists else .ok (tree.insert zone.zoneId zone.handle)

/-- What `insert_zones` works on, with the events in the queue. -/
structure ZoneSets where
  memberZones : MemberZones
  loadedArc : MemberZones
  pendingZones : HashMap ZoneId Handle
  events : List Event

namespace ZoneSets

def insertPending (s : ZoneSets) (zone : NewZone) : ZoneSets :=
  { s with pendingZones := s.pendingZones.insert zone.zoneId zone.handle }

def send (s : ZoneSets) (event : Event) : ZoneSets := { s with events := s.events ++ [event] }

/-- The loop over the zones. -/
def insertEach (s : ZoneSets) (newZones : MemberZones) :
    List NewZone → Except ZoneTreeModificationError MemberZones × ZoneSets
  | [] => (.ok newZones, s)
  | zone :: zones =>
    if zone.isSecondary then
      ((s.insertPending zone).send (.ZoneAdded zone.zoneId)).insertEach newZones zones
    else
      match insertZone newZones zone with
      | .error e => (.error e, s)
      | .ok newZones => (s.send (.ZoneAdded zone.zoneId)).insertEach newZones zones

def insertZones (s : ZoneSets) (zones : List NewZone) :
    Except ZoneTreeModificationError Unit × ZoneSets :=
  match s.insertEach s.loadedArc zones with
  | (.error e, s) => (.error e, s)
  | (.ok newZones, s) => (.ok (), { s with memberZones := newZones, loadedArc := newZones })

end ZoneSets

/-- The names of the primary zones in a list. -/
def primaryIds (zones : List NewZone) : List ZoneId :=
  (zones.filter (fun zone ↦ !zone.isSecondary)).map NewZone.zoneId

/-- The primary zones are distinct, and none of them is in the tree. -/
def Insertable (tree : MemberZones) (zones : List NewZone) : Prop :=
  (primaryIds zones).Nodup ∧ ∀ zoneId ∈ primaryIds zones, zoneId ∉ tree

/-- The first zone of the list is a primary zone that is in the tree. -/
def StartsWithActive (tree : MemberZones) (zones : List NewZone) : Prop :=
  ∃ zone ∈ zones.head?, zone.isSecondary = false ∧ zone.zoneId ∈ tree

/-- The zones of the list before the one that is rejected. -/
def taken (tree : MemberZones) : List NewZone → List NewZone
  | [] => []
  | zone :: zones =>
    if zone.isSecondary then zone :: taken tree zones
    else if zone.zoneId ∈ tree then []
    else zone :: taken (tree.insert zone.zoneId zone.handle) zones

variable {s : ZoneSets} {tree newZones : MemberZones} {zone : NewZone} {zones : List NewZone}

theorem insertable_nil : Insertable tree [] := by
  refine ⟨List.nodup_nil, ?_⟩
  intro zoneId hmem
  cases hmem

theorem insertable_secondary (h : zone.isSecondary = true) :
    Insertable tree (zone :: zones) ↔ Insertable tree zones := by
  simp [Insertable, primaryIds, h]

theorem insertable_primary (h : zone.isSecondary = false) :
    Insertable tree (zone :: zones) ↔
      zone.zoneId ∉ tree ∧ Insertable (tree.insert zone.zoneId zone.handle) zones := by
  have hids : primaryIds (zone :: zones) = zone.zoneId :: primaryIds zones := by
    simp [primaryIds, h]
  unfold Insertable
  rw [hids, List.nodup_cons]
  constructor
  · intro ⟨⟨hfresh, hnodup⟩, habsent⟩
    refine ⟨habsent _ List.mem_cons_self, hnodup, ?_⟩
    intro zoneId hmem hinserted
    rcases (AList.mem_insert _).mp hinserted with heq | hold
    · rw [heq] at hmem
      exact hfresh hmem
    · exact habsent zoneId (List.mem_cons_of_mem _ hmem) hold
  · intro ⟨hfree, hnodup, habsent⟩
    have hinserted : zone.zoneId ∈ tree.insert zone.zoneId zone.handle :=
      (AList.mem_insert _).mpr (Or.inl rfl)
    refine ⟨⟨fun hmem ↦ habsent _ hmem hinserted, hnodup⟩, ?_⟩
    intro zoneId hmem hold
    rcases List.mem_cons.mp hmem with heq | hmem
    · rw [heq] at hold
      exact hfree hold
    · exact habsent zoneId hmem ((AList.mem_insert _).mpr (Or.inr hold))

/-! ## What the loop leaves behind -/

/-- The pending zones with the secondary ones of a list. -/
def withSecondaries (pendingZones : HashMap ZoneId Handle) (zones : List NewZone) :
    HashMap ZoneId Handle :=
  (zones.filter NewZone.isSecondary).foldl
    (fun pending zone ↦ pending.insert zone.zoneId zone.handle) pendingZones

-- The zones before the rejected one are announced, and the secondary zones among them are pending.
theorem insertEach_leaves :
    (s.insertEach newZones zones).2 =
      { s with
        pendingZones := withSecondaries s.pendingZones (taken newZones zones)
        events := s.events ++
          (taken newZones zones).map (fun zone ↦ .ZoneAdded zone.zoneId) } := by
  induction zones generalizing s newZones with
  | nil => simp [ZoneSets.insertEach, taken, withSecondaries]
  | cons zone zones ih =>
    unfold ZoneSets.insertEach taken
    by_cases hsecondary : zone.isSecondary = true
    · simp [hsecondary, ih, ZoneSets.send, ZoneSets.insertPending, withSecondaries]
    · by_cases hmem : zone.zoneId ∈ newZones
      · simp [hsecondary, insertZone, hmem, withSecondaries]
      · simp [hsecondary, insertZone, hmem, ih, ZoneSets.send, withSecondaries]

theorem insertEach_fails_iff :
    (∃ e, (s.insertEach newZones zones).1 = .error e) ↔ ¬Insertable newZones zones := by
  induction zones generalizing s newZones with
  | nil =>
    constructor
    · intro ⟨e, herror⟩
      cases herror
    · intro h
      exact absurd insertable_nil h
  | cons zone zones ih =>
    unfold ZoneSets.insertEach
    by_cases hsecondary : zone.isSecondary = true
    · rw [if_pos hsecondary, insertable_secondary hsecondary]
      exact ih
    · rw [if_neg hsecondary, insertable_primary (Bool.not_eq_true _ ▸ hsecondary)]
      by_cases hmem : zone.zoneId ∈ newZones
      · have hrejected : insertZone newZones zone = .error .ZoneExists := if_pos hmem
        rw [hrejected]
        exact iff_of_true ⟨_, rfl⟩ (fun h ↦ h.1 hmem)
      · simp [insertZone, hmem, ih]

theorem taken_nil_iff : taken tree zones = [] ↔ zones = [] ∨ StartsWithActive tree zones := by
  unfold StartsWithActive
  cases zones with
  | nil => simp [taken]
  | cons zone zones =>
    unfold taken
    by_cases hsecondary : zone.isSecondary = true
    · simp [hsecondary]
    · by_cases hmem : zone.zoneId ∈ tree <;> simp [hsecondary, hmem]

theorem insertZones_error_iff {e : ZoneTreeModificationError} :
    (s.insertZones zones).1 = .error e ↔ (s.insertEach s.loadedArc zones).1 = .error e := by
  unfold ZoneSets.insertZones
  split
  next heq => simp [heq]
  next heq => simp [heq]

theorem insertZones_failed {e : ZoneTreeModificationError}
    (h : (s.insertZones zones).1 = .error e) :
    (s.insertZones zones).2 = (s.insertEach s.loadedArc zones).2 := by
  unfold ZoneSets.insertZones at h ⊢
  split
  next heq => rw [heq]
  next heq =>
    rw [heq] at h
    cases h

/-- What a failed call leaves behind: the active zones are as they were, the zones before the
rejected one are announced, and the secondary zones among them are pending. -/
theorem failed_insert_leaves {e : ZoneTreeModificationError}
    (h : (s.insertZones zones).1 = .error e) :
    (s.insertZones zones).2 =
      { s with
        pendingZones := withSecondaries s.pendingZones (taken s.loadedArc zones)
        events := s.events ++
          (taken s.loadedArc zones).map (fun zone ↦ .ZoneAdded zone.zoneId) } := by
  rw [insertZones_failed h]
  exact insertEach_leaves

/-- A failed call has no effect exactly when the list starts with a primary zone that is in the
tree, which is then the rejected one; where the primary zones are distinct and not in the tree the
call does not fail. -/
theorem failed_insert_without_effect_iff (s : ZoneSets) (zones : List NewZone) :
    (∀ e, (s.insertZones zones).1 = .error e → (s.insertZones zones).2 = s) ↔
      StartsWithActive s.loadedArc zones ∨ Insertable s.loadedArc zones := by
  constructor
  · intro h
    by_cases hinsertable : Insertable s.loadedArc zones
    · exact Or.inr hinsertable
    · have ⟨e, herror⟩ := insertEach_fails_iff (s := s).mpr hinsertable
      have hfailed := insertZones_error_iff.mpr herror
      have hevents := congrArg ZoneSets.events (failed_insert_leaves hfailed)
      rw [h e hfailed] at hevents
      have htaken : taken s.loadedArc zones = [] := by simpa using hevents
      rcases taken_nil_iff.mp htaken with hnil | hstarts
      · rw [hnil] at hinsertable
        exact absurd insertable_nil hinsertable
      · exact Or.inl hstarts
  · intro h e hfailed
    rcases h with hstarts | hinsertable
    · rw [failed_insert_leaves hfailed, taken_nil_iff.mpr (Or.inr hstarts)]
      simp [withSecondaries]
    · have herror := insertZones_error_iff.mp hfailed
      exact absurd hinsertable (insertEach_fails_iff.mp ⟨e, herror⟩)

namespace InsertionExample

/-- The primary zone is active, no zone is pending. -/
def primaryActive : ZoneSets := ⟨AList.singleton primary 0, AList.singleton primary 0, ∅, []⟩

def secondaryFirst : List NewZone := [⟨secondary, 0, true⟩, ⟨primary, 1, false⟩]

end InsertionExample

open InsertionExample in
/-- A secondary zone and then a primary zone that is active already: the call fails, and the
secondary zone is pending and announced. -/
theorem failed_insert_leaves_secondary :
    (primaryActive.insertZones secondaryFirst).1 = .error .ZoneExists ∧
      secondary ∉ primaryActive.pendingZones ∧ primaryActive.events = [] ∧
      secondary ∈ (primaryActive.insertZones secondaryFirst).2.pendingZones ∧
      (primaryActive.insertZones secondaryFirst).2.events = [.ZoneAdded secondary] := by
  refine ⟨?_, ?_, rfl, ?_, ?_⟩
  · decide
  · decide
  · decide
  · rfl

/-! ## The steps of a call -/

/-- How far the writer of a call is after the loop. -/
def afterLoop : Except ZoneTreeModificationError MemberZones → MapWriter ZoneId Handle
  | .error _ => .failed
  | .ok newZones => .building newZones

-- The call has taken a zone and is left with `call'`: it sends its event and goes on.
theorem exec_call_zone {t t' : Insertion} {i n : Nat} {call : Call} {zoneId : ZoneId}
    (hinsert : t.step (.call i) = some t') (hcall : t'.calls[i]? = some call)
    (hannouncing : call.announcing = some zoneId) :
    exec step t (List.replicate (n + 2) (.call i)) =
      exec step { t' with calls := t'.calls.set i { call with announcing := none } }
        (List.replicate n (.call i)) := by
  have hsend : t'.step (.call i) =
      some { t' with calls := t'.calls.set i { call with announcing := none } } := by
    simp only [Insertion.step, hcall, callNext, hannouncing]
  simp only [List.replicate_succ, exec, hinsert, hsend, Option.bind_some]

/-- A call that nobody else gets in the way of does what the loop does. -/
theorem call_runs_loop {t : Insertion} {i : Nat} {call : Call} (hcall : t.calls[i]? = some call)
    (hwriter : call.writer = .building newZones) (hnone : call.announcing = none)
    (hzones : call.zones = zones) (hfree : t.runLoop.holdsPending = false)
    (hpending : t.pendingZones = s.pendingZones) :
    ∃ (n : Nat) (t' : Insertion) (call' : Call),
      exec step t (List.replicate n (.call i)) = some t' ∧ t'.zones = t.zones ∧
      t'.pendingZones = (s.insertEach newZones zones).2.pendingZones ∧
      t'.calls[i]? = some call' ∧ call'.announcing = none ∧
      call'.writer = afterLoop (s.insertEach newZones zones).1 := by
  induction zones generalizing t s newZones call with
  | nil => exact ⟨0, t, call, rfl, rfl, hpending, hcall, hnone, hwriter⟩
  | cons zone zones ih =>
    have hlt : i < t.calls.length := (List.getElem?_eq_some_iff.mp hcall).1
    have hinsert : t.step (.call i) = t.insertNext i call newZones zone zones := by
      simp only [Insertion.step, hcall, callNext, hnone, hwriter, hzones]
    unfold ZoneSets.insertEach
    unfold Insertion.insertNext at hinsert
    by_cases hsecondary : zone.isSecondary = true
    · rw [if_pos hsecondary, hfree, if_neg Bool.false_ne_true] at hinsert
      rw [if_pos hsecondary]
      obtain ⟨n, t', call', hexec, hrest⟩ := ih
        (t := { t with
          pendingZones := t.pendingZones.insert zone.zoneId zone.handle
          calls := (t.calls.set i { call with zones, announcing := some zone.zoneId }).set i
            { call with zones, announcing := none } })
        (s := (s.insertPending zone).send (.ZoneAdded zone.zoneId))
        (show _ = some { call with zones, announcing := none } by simp [hlt])
        hwriter rfl rfl hfree (by rw [hpending]; rfl)
      refine ⟨n + 2, t', call', ?_, hrest⟩
      rw [exec_call_zone hinsert (List.getElem?_set_self hlt) rfl]
      exact hexec
    · rw [if_neg hsecondary] at hinsert ⊢
      by_cases hmem : zone.zoneId ∈ newZones
      · have hrejected : insertZone newZones zone = .error .ZoneExists := if_pos hmem
        rw [if_pos hmem] at hinsert
        rw [hrejected]
        have hexec : exec step t (List.replicate 1 (.call i)) =
            some { t with calls := t.calls.set i { call with writer := .failed } } := by
          simp only [List.replicate_one, exec, hinsert, Option.bind_some]
        exact ⟨1, _, { call with writer := .failed }, hexec, rfl, hpending,
          List.getElem?_set_self hlt, hnone, rfl⟩
      · have haccepted : insertZone newZones zone =
            .ok (newZones.insert zone.zoneId zone.handle) := if_neg hmem
        rw [if_neg hmem] at hinsert
        rw [haccepted]
        obtain ⟨n, t', call', hexec, hrest⟩ := ih
          (t := { t with
            calls := (t.calls.set i
              { call with zones, announcing := some zone.zoneId
                          writer := .building (newZones.insert zone.zoneId zone.handle) }).set i
              { call with zones, announcing := none
                          writer := .building (newZones.insert zone.zoneId zone.handle) } })
          (s := s.send (.ZoneAdded zone.zoneId))
          (show _ = some
            { call with zones, announcing := none
                        writer := .building (newZones.insert zone.zoneId zone.handle) } by
            simp [hlt])
          rfl rfl rfl hfree hpending
        refine ⟨n + 2, t', call', ?_, hrest⟩
        rw [exec_call_zone hinsert (List.getElem?_set_self hlt) rfl]
        exact hexec

end Insertion

end Cascade

import Cascade.Lib.Pointers
import Cascade.Maintainer

/-!
# Insertion of zones

`insert_zones` copies the tree of active zones at its start and stores the copy at its end, with
pauses for every zone in between.  Meanwhile the run loop may make a pending zone active, with a
copy of its own.  Whoever stores last wins: the zone that the other has put in is gone.

Of the maintainer there is only what takes part in this.  The calls of `insert_zones` take any
number of zones; a pending zone may be made active at any time.
-/

namespace Cascade

open Lib

namespace Insertion

structure NewZone where
  zoneId : ZoneId
  handle : Handle
  isSecondary : Bool

/-- A call of `insert_zones`: the zones that it was given, those of them that are still to be
inserted, and the event that is sent before the next one; the writer has the new tree. -/
structure Call where
  given : List NewZone
  zones : List NewZone
  announcing : Option ZoneId
  writer : MapWriter ZoneId Handle

/-- Where the run loop is with making a zone active. -/
inductive RunLoop
  | idle
  | promoting (zoneId : ZoneId) (handle : Handle)
  | replacing (zoneId : ZoneId) (writer : MapWriter ZoneId Handle)
  | panicked

/-- The loop holds the lock of the pending zones while it makes one active. -/
def RunLoop.holdsPending : RunLoop → Bool
  | .promoting _ _ | .replacing _ _ => true
  | .idle | .panicked => false

end Insertion

open Insertion in
/-- The tree of active zones (`member_zones`) with the pointer that readers use (`loaded_arc`), and
the zones that have been made active so far. -/
structure Insertion where
  zones : Pointers ZoneId Handle
  pendingZones : HashMap ZoneId Handle
  calls : List Call
  runLoop : RunLoop
  promoted : List ZoneId

namespace Insertion

inductive Action
  | insertZones (zones : List NewZone)
  | call (i : Nat)
  | promote (zoneId : ZoneId)
  | loop

/-- The start of `insert_zones`: a copy of the active zones. -/
def insertZones (s : Insertion) (zones : List NewZone) : Insertion :=
  { s with calls := s.calls ++ [⟨zones, zones, none, .building s.zones.cached⟩] }

/-- One pass of the loop over the zones up to the sending of the event. -/
def insertNext (s : Insertion) (i : Nat) (call : Call) (newZones : MemberZones) (zone : NewZone)
    (zones : List NewZone) : Option Insertion :=
  if zone.isSecondary then
    if s.runLoop.holdsPending then none
    else
      some { s with
        pendingZones := s.pendingZones.insert zone.zoneId zone.handle
        calls := s.calls.set i { call with zones, announcing := some zone.zoneId } }
  else if zone.zoneId ∈ newZones then
    some { s with calls := s.calls.set i { call with writer := .failed } }
  else
    some { s with
      calls := s.calls.set i
        { call with zones, announcing := some zone.zoneId
                    writer := .building (newZones.insert zone.zoneId zone.handle) } }

/-- The writer of the call stores its tree or refreshes `loaded_arc`. -/
def callWrite (s : Insertion) (i : Nat) (call : Call) : Option Insertion :=
  match s.zones.next call.writer with
  | some (zones, writer) => some { s with zones, calls := s.calls.set i { call with writer } }
  | none => none

def callNext (s : Insertion) (i : Nat) (call : Call) : Option Insertion :=
  match call.announcing, call.writer, call.zones with
  | some _, _, _ => some { s with calls := s.calls.set i { call with announcing := none } }
  | none, .building newZones, zone :: zones => s.insertNext i call newZones zone zones
  | none, _, _ => s.callWrite i call

/-- `insert_active_zone`; the run loop panics when the zone cannot be inserted. -/
def loopNext (s : Insertion) : Option Insertion :=
  match s.runLoop with
  | .promoting zoneId handle =>
    if zoneId ∈ s.zones.cached then some { s with runLoop := .panicked }
    else
      some { s with runLoop := .replacing zoneId (.building (s.zones.cached.insert zoneId handle)) }
  | .replacing zoneId writer =>
    match s.zones.next writer with
    | some (zones, .finished) =>
      some { s with zones, runLoop := .idle, promoted := zoneId :: s.promoted }
    | some (zones, writer) => some { s with zones, runLoop := .replacing zoneId writer }
    | none => none
  | .idle | .panicked => none

/-- The run loop takes a zone out of the pending ones to make it active. -/
def promote (s : Insertion) (zoneId : ZoneId) : Option Insertion :=
  match s.runLoop, s.pendingZones.lookup zoneId with
  | .idle, some handle =>
    some { s with
      pendingZones := s.pendingZones.erase zoneId
      runLoop := .promoting zoneId handle }
  | _, _ => none

def step (s : Insertion) : Action → Option Insertion
  | .insertZones zones => some (s.insertZones zones)
  | .call i =>
    match s.calls[i]? with
    | some call => s.callNext i call
    | none => none
  | .promote zoneId => s.promote zoneId
  | .loop => s.loopNext

/-- Both pointers are the same, and no zone has been inserted yet. -/
def Started (s : Insertion) : Prop :=
  s.zones.stored = s.zones.cached ∧ s.calls = [] ∧ s.runLoop = .idle ∧ s.promoted = []

/-- The call is done with the loop over its zones. -/
def Call.writes (call : Call) : Bool :=
  match call.announcing, call.writer, call.zones with
  | some _, _, _ => false
  | none, .building _, _ :: _ => false
  | none, _, _ => true

/-- Nobody replaces `member_zones` or `loaded_arc` by a tree that lacks one of its zones. -/
def keepsZones (s : Insertion) : Action → Bool
  | .call i => s.calls[i]?.all (fun call ↦ !call.writes || s.zones.keepsKeys call.writer)
  | .loop =>
    match s.runLoop with
    | .replacing _ writer => s.zones.keepsKeys writer
    | _ => true
  | _ => true

/-! ## What is in the tree -/

/-- The zones that the call has taken are where its writer has come to, and it writes when it has
taken all. -/
structure Call.Kept (zones : Pointers ZoneId Handle) (call : Call) : Prop where
  has : ∀ zone ∈ call.given, zone.isSecondary = false →
    zone ∈ call.zones ∨ call.writer.Has zones zone.zoneId
  looped : call.zones = [] ∨ (∃ newZones, call.writer = .building newZones) ∨
    call.writer = .failed

def RunLoop.Kept (zones : Pointers ZoneId Handle) : RunLoop → Prop
  | .replacing zoneId writer => writer.Has zones zoneId
  | _ => True

/-- The invariant: what was inserted and made active is in both trees. -/
structure Lossless (s : Insertion) : Prop where
  calls : ∀ call ∈ s.calls, call.Kept s.zones
  runLoop : s.runLoop.Kept s.zones
  promoted : ∀ zoneId ∈ s.promoted, s.zones.Has zoneId

variable {s s' : Insertion} {i : Nat} {call : Call}

theorem Call.Kept.mono {zones zones' : Pointers ZoneId Handle} (h : call.Kept zones)
    (hbelow : zones.Below zones') : call.Kept zones' := by
  refine ⟨?_, h.looped⟩
  intro zone hzone hprimary
  rcases h.has zone hzone hprimary with hleft | hhas
  · exact Or.inl hleft
  · exact Or.inr (hhas.mono hbelow)

theorem RunLoop.Kept.mono {zones zones' : Pointers ZoneId Handle} {runLoop : RunLoop}
    (h : runLoop.Kept zones) (hbelow : zones.Below zones') : runLoop.Kept zones' := by
  cases runLoop with
  | replacing zoneId writer => exact MapWriter.Has.mono h hbelow
  | idle | promoting | panicked => trivial

theorem lossless_started (h : s.Started) : s.Lossless := by
  have ⟨_, hcalls, hloop, hpromoted⟩ := h
  refine ⟨?_, ?_, ?_⟩
  · rw [hcalls]
    exact fun call hcall ↦ absurd hcall (List.not_mem_nil)
  · rw [hloop]
    trivial
  · rw [hpromoted]
    exact fun zoneId hzone ↦ absurd hzone (List.not_mem_nil)

-- A call goes on, and the pointers keep their zones.
theorem Lossless.setCall (h : s.Lossless) {zones : Pointers ZoneId Handle}
    (hbelow : s.zones.Below zones) {pendingZones : HashMap ZoneId Handle}
    (hcall : call.Kept zones) :
    Lossless { s with zones, pendingZones, calls := s.calls.set i call } := by
  refine ⟨?_, h.runLoop.mono hbelow, fun zoneId hzone ↦ (h.promoted zoneId hzone).mono hbelow⟩
  intro other hother
  rcases List.mem_or_eq_of_mem_set hother with hold | hnew
  · exact (h.calls other hold).mono hbelow
  · rw [hnew]
    exact hcall

theorem Lossless.insertNext (h : s.Lossless) (hcall : call.Kept s.zones)
    {newZones : MemberZones} {zone : NewZone} {zones : List NewZone}
    (hwriter : call.writer = .building newZones) (hzones : call.zones = zone :: zones)
    (hs' : s.insertNext i call newZones zone zones = some s') : s'.Lossless := by
  have hrefl := Pointers.Below.refl s.zones
  unfold Insertion.insertNext at hs'
  by_cases hsecondary : zone.isSecondary = true
  · rw [if_pos hsecondary] at hs'
    split at hs'
    · cases hs'
    · cases hs'
      refine h.setCall hrefl ⟨?_, Or.inr (Or.inl ⟨newZones, hwriter⟩)⟩
      intro other hother hprimary
      rcases hcall.has other hother hprimary with hleft | hhas
      · rw [hzones] at hleft
        rcases List.mem_cons.mp hleft with heq | hleft
        · rw [heq, hsecondary] at hprimary
          cases hprimary
        · exact Or.inl hleft
      · exact Or.inr hhas
  · rw [if_neg hsecondary] at hs'
    split at hs'
    · cases hs'
      exact h.setCall hrefl ⟨fun _ _ _ ↦ Or.inr trivial, Or.inr (Or.inr rfl)⟩
    · cases hs'
      refine h.setCall hrefl ⟨?_, Or.inr (Or.inl ⟨_, rfl⟩)⟩
      intro other hother hprimary
      rcases hcall.has other hother hprimary with hleft | hhas
      · rw [hzones] at hleft
        rcases List.mem_cons.mp hleft with heq | hleft
        · rw [heq]
          exact Or.inr ((AList.mem_insert _).mpr (Or.inl rfl))
        · exact Or.inl hleft
      · rw [hwriter] at hhas
        exact Or.inr ((AList.mem_insert _).mpr (Or.inr hhas))

theorem Lossless.callWrite (h : s.Lossless) (hcall : call.Kept s.zones) (hzones : call.zones = [])
    (hkeeps : s.zones.keepsKeys call.writer = true) (hs' : s.callWrite i call = some s') :
    s'.Lossless := by
  unfold Insertion.callWrite at hs'
  split at hs'
  next zones writer hnext =>
    cases hs'
    refine h.setCall (Pointers.below_next hnext hkeeps) ⟨?_, Or.inl hzones⟩
    intro zone hzone hprimary
    rcases hcall.has zone hzone hprimary with hleft | hhas
    · rw [hzones] at hleft
      cases hleft
    · exact Or.inr (hhas.next hnext)
  · cases hs'

theorem Lossless.callNext (h : s.Lossless) (hmem : call ∈ s.calls)
    (hkeeps : (!call.writes || s.zones.keepsKeys call.writer) = true)
    (hs' : s.callNext i call = some s') : s'.Lossless := by
  have hcall := h.calls call hmem
  unfold Call.writes at hkeeps
  unfold Insertion.callNext at hs'
  cases hannouncing : call.announcing with
  | some zoneId =>
    simp only [hannouncing] at hs'
    cases hs'
    exact h.setCall (Pointers.Below.refl _) ⟨hcall.has, hcall.looped⟩
  | none =>
    cases hzones : call.zones with
    | nil =>
      rw [hannouncing, hzones] at hs' hkeeps
      have hwrites : s.zones.keepsKeys call.writer = true := by
        cases hwriter : call.writer <;> simpa [hwriter] using hkeeps
      have hwrite : s.callWrite i call = some s' := by
        cases hwriter : call.writer <;> simpa [hwriter] using hs'
      exact h.callWrite hcall hzones hwrites hwrite
    | cons zone zones =>
      rcases hcall.looped with hnil | ⟨newZones, hwriter⟩ | hfailed
      · rw [hzones] at hnil
        cases hnil
      · rw [hannouncing, hwriter, hzones] at hs'
        exact h.insertNext hcall hwriter hzones hs'
      · rw [hannouncing, hfailed, hzones] at hs'
        unfold Insertion.callWrite at hs'
        rw [hfailed] at hs'
        cases hs'

-- The loop goes on, and the pointers keep their zones.
theorem Lossless.setLoop (h : s.Lossless) {zones : Pointers ZoneId Handle}
    (hbelow : s.zones.Below zones) {pendingZones : HashMap ZoneId Handle} {runLoop : RunLoop}
    (hloop : runLoop.Kept zones) : Lossless { s with zones, pendingZones, runLoop } :=
  ⟨fun call hcall ↦ (h.calls call hcall).mono hbelow, hloop,
    fun zoneId hzone ↦ (h.promoted zoneId hzone).mono hbelow⟩

theorem Lossless.loopNext (h : s.Lossless) (hkeeps : s.keepsZones .loop = true)
    (hs' : s.loopNext = some s') : s'.Lossless := by
  have hrefl := Pointers.Below.refl s.zones
  unfold Insertion.loopNext at hs'
  unfold keepsZones at hkeeps
  cases hloop : s.runLoop with
  | promoting zoneId handle =>
    rw [hloop] at hs'
    simp only at hs'
    split at hs'
    · cases hs'
      exact h.setLoop hrefl trivial
    · cases hs'
      exact h.setLoop hrefl ((AList.mem_insert _).mpr (Or.inl rfl))
  | replacing zoneId writer =>
    have hwriter : writer.Has s.zones zoneId := by
      have hkept := h.runLoop
      rw [hloop] at hkept
      exact hkept
    rw [hloop] at hs' hkeeps
    simp only at hs' hkeeps
    cases hnext : s.zones.next writer with
    | none =>
      rw [hnext] at hs'
      cases hs'
    | some written =>
      have ⟨zones, writer'⟩ := written
      have hbelow := Pointers.below_next hnext hkeeps
      have hhas := hwriter.next hnext
      rw [hnext] at hs'
      have hreplacing : Lossless { s with zones, runLoop := .replacing zoneId writer' } :=
        h.setLoop hbelow hhas
      cases writer' with
      | finished =>
        cases hs'
        refine ⟨hreplacing.calls, trivial, ?_⟩
        intro other hother
        rcases List.mem_cons.mp hother with heq | hother
        · rw [heq]
          exact hhas
        · exact hreplacing.promoted other hother
      | building | loading | updating | failed =>
        cases hs'
        exact hreplacing
  | idle | panicked =>
    rw [hloop] at hs'
    cases hs'

theorem Lossless.step (h : s.Lossless) {a : Action} (hkeeps : s.keepsZones a = true)
    (hs' : s.step a = some s') : s'.Lossless := by
  have hrefl := Pointers.Below.refl s.zones
  cases a with
  | insertZones zones =>
    cases hs'
    refine ⟨?_, h.runLoop, h.promoted⟩
    intro call hcall
    rcases List.mem_append.mp hcall with hold | hnew
    · exact h.calls call hold
    · rw [List.mem_singleton.mp hnew]
      exact ⟨fun _ hzone _ ↦ Or.inl hzone, Or.inr (Or.inl ⟨_, rfl⟩)⟩
  | call i =>
    simp only [Insertion.step] at hs'
    cases hcall : s.calls[i]? with
    | none =>
      rw [hcall] at hs'
      cases hs'
    | some call =>
      rw [hcall] at hs'
      simp only [keepsZones, hcall, Option.all_some] at hkeeps
      exact h.callNext (List.mem_of_getElem? hcall) hkeeps hs'
  | promote zoneId =>
    simp only [Insertion.step, promote] at hs'
    split at hs'
    · cases hs'
      exact h.setLoop hrefl trivial
    · cases hs'
  | loop => exact h.loopNext hkeeps hs'

/-- In every run in which nobody replaces `member_zones` or `loaded_arc` by a tree that lacks one of
its zones, both have every primary zone of each call of `insert_zones` that has returned `Ok`, and
every zone that was made active. -/
theorem inserted_zones_kept (h : Reach step (fun s a ↦ s.keepsZones a = true) Started s) :
    (∀ call ∈ s.calls, call.writer = .finished →
      ∀ zone ∈ call.given, zone.isSecondary = false → s.zones.Has zone.zoneId) ∧
    ∀ zoneId ∈ s.promoted, s.zones.Has zoneId := by
  have hlossless : s.Lossless :=
    h.invariant (fun _ ↦ lossless_started) (fun _ _ _ hs hkeeps hs' ↦ hs.step hkeeps hs')
  refine ⟨?_, hlossless.promoted⟩
  intro call hmem hfinished zone hzone hprimary
  have hcall := hlossless.calls call hmem
  have hnil : call.zones = [] := by
    rcases hcall.looped with hnil | ⟨newZones, hbuilding⟩ | hfailed
    · exact hnil
    · rw [hfinished] at hbuilding
      cases hbuilding
    · rw [hfinished] at hfailed
      cases hfailed
  rcases hcall.has zone hzone hprimary with hleft | hhas
  · rw [hnil] at hleft
    cases hleft
  · rw [hfinished] at hhas
    exact hhas

/-! ## A zone that is made active during an insertion -/

namespace InsertionExample

/-- A zone in the class `IN` below the root. -/
def zoneId (label : UInt8)
    (h : [[label]].all Label.isValid = true ∧ wireLen [[label]] ≤ 255) : ZoneId :=
  ⟨⟨[[label]], h⟩, .IN⟩

def secondary : ZoneId := zoneId 60 (by decide)

def primary : ZoneId := zoneId 61 (by decide)

def empty : Insertion := ⟨⟨∅, ∅⟩, ∅, [], .idle, []⟩

/-- The call `i` takes `n` steps. -/
def callSteps (i n : Nat) : List Action := List.replicate n (.call i)

/-- The secondary zone is inserted and waits to be made active. -/
def pending : List Action := [.insertZones [⟨secondary, 0, true⟩]] ++ callSteps 0 5

/-- The secondary zone is made active. -/
def promotion : List Action := [.promote secondary] ++ List.replicate 4 .loop

/-- The call that was given just the primary zone has returned `Ok`. -/
def primaryInserted (call : Call) : Bool :=
  match call with
  | ⟨[⟨zoneId, _, false⟩], _, _, .finished⟩ => decide (zoneId = primary)
  | _ => false

end InsertionExample

open InsertionExample in
theorem zones_inserted_in_turn_kept : ∃ s : Insertion, s.zones.Has secondary ∧
    s.zones.Has primary := by
  have hstarted : Started empty := ⟨rfl, rfl, rfl, rfl⟩
  have hrun : ∃ s, Reach step (fun s a ↦ s.keepsZones a = true) Started s ∧
      (decide (secondary ∈ s.promoted) && s.calls.any primaryInserted) = true :=
    Reach.of_exec hstarted
      (pending ++ promotion ++ [.insertZones [⟨primary, 0, false⟩]] ++ callSteps 1 5)
      (by decide) (by decide)
  have ⟨s, hs, hend⟩ := hrun
  have ⟨hpromoted, hany⟩ := Bool.and_eq_true_iff.mp hend
  have ⟨call, hmem, hcall⟩ := List.any_eq_true.mp hany
  have ⟨hcalls, hactive⟩ := inserted_zones_kept hs
  refine ⟨s, hactive _ (of_decide_eq_true hpromoted), ?_⟩
  unfold primaryInserted at hcall
  split at hcall
  next zoneId handle _ _ =>
    rw [← of_decide_eq_true hcall]
    exact hcalls _ hmem rfl ⟨zoneId, handle, false⟩ (List.mem_singleton_self _) rfl
  · cases hcall

open InsertionExample in
/-- The secondary zone is made active after `insert_zones` has copied the tree for the primary zone:
all have returned, and the secondary zone is gone. -/
theorem promoted_zone_lost : ∃ s : Insertion, Reach step anyStep Started s ∧
    secondary ∈ s.promoted ∧ s.runLoop = .idle ∧ (∀ call ∈ s.calls, call.writer = .finished) ∧
    secondary ∉ s.zones.stored ∧ secondary ∉ s.zones.cached := by
  have hstarted : Started empty := ⟨rfl, rfl, rfl, rfl⟩
  have hrun : ∃ s, Reach step anyStep Started s ∧
      (decide (secondary ∈ s.promoted ∧ secondary ∉ s.zones.stored ∧
          secondary ∉ s.zones.cached) &&
        (s.runLoop matches .idle) && s.calls.all (fun call ↦ call.writer matches .finished)) = true :=
    Reach.of_exec_any hstarted
      (pending ++ [.insertZones [⟨primary, 0, false⟩]] ++ promotion ++ callSteps 1 5) (by decide)
  have ⟨s, hs, hend⟩ := hrun
  have ⟨hboth, hcalls⟩ := Bool.and_eq_true_iff.mp hend
  have ⟨hzones, hloop⟩ := Bool.and_eq_true_iff.mp hboth
  have ⟨hpromoted, hstored, hcached⟩ := of_decide_eq_true hzones
  refine ⟨s, hs, hpromoted, ?_, ?_, hstored, hcached⟩
  · split at hloop
    next hidle => exact hidle
    · cases hloop
  · intro call hcall
    have hfinished := List.all_eq_true.mp hcalls call hcall
    split at hfinished
    next heq => exact heq
    · cases hfinished

end Insertion

end Cascade

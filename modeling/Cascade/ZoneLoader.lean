import Cascade.Maintainer

/-!
# The zone loader

The loader registers the zones that are configured, has the zone maintainer spawned, and then handles
the commands and the updates that are sent to it.  The updates of its own zones come over a channel
that it is the only one to receive from, and it sends on that channel itself.
-/

namespace Cascade

open Lib

namespace ZoneLoader

/-- There is room for so many messages in the channel of the loader, and in that of the maintainer. -/
def capacity : Nat := 10

inductive Task
  | loader
  | other (id : Nat)
deriving DecidableEq

/-- What `register_primary_zone` or `register_secondary_zone` comes to.  The first one fails for a zone
file that cannot be loaded or has no SOA record, and either does for a malformed access list. -/
inductive Registration
  | failed
  | primary (serial : Serial) (config : ZoneConfig)
  | secondary (config : ZoneConfig)

abbrev Zones := List (Sigma fun _ : Name ↦ Registration)

/-- In the startup loop the loader goes on with the remaining zones. -/
inductive Round
  | startup (zones : Zones)
  | running

/-- What the loader does next. -/
inductive Turn
  | next (round : Round)
  | register (name : Name) (registration : Registration) (round : Round)
  | insert (name : Name) (config : ZoneConfig) (round : Round)
  | terminated

inductive ApplicationCommand
  | Terminate
  | RegisterZone (name : Name) (registration : Registration)
  | RefreshZone (event : Event)
  | Other

structure State where
  turn : Turn
  memberZones : List Name := []
  zoneUpdated : Channel Task (Name × Serial) := Channel.empty
  event : Channel Task Event := Channel.empty

namespace State

def isWaiting (s : State) (task : Task) : Bool :=
  decide (s.zoneUpdated.Waits task ∨ s.event.Waits task)

/-- An error ends the startup loop, and is logged for a command. -/
def registerZone (s : State) (name : Name) : Registration → Round → State
  | .failed, .startup _ => { s with turn := .terminated }
  | .failed, .running => { s with turn := .next .running }
  | .primary serial config, round =>
    { s with
      zoneUpdated := s.zoneUpdated.send capacity .loader (name, serial)
      turn := .insert name config round }
  | .secondary config, round => { s with turn := .insert name config round }

/-- A secondary zone is not in the tree until it has been refreshed; the others must not be there yet. -/
def insertZone (s : State) (name : Name) (config : ZoneConfig) (round : Round) : State :=
  if config.isSecondary = false ∧ name ∈ s.memberZones then { s with turn := .next round }
  else
    { s with
      memberZones := if config.isSecondary then s.memberZones else name :: s.memberZones
      event := s.event.send capacity .loader (.ZoneAdded ⟨name, .IN⟩)
      turn := .next round }

/-- The loader runs until it sends a message, or until there is nothing to do. -/
def advance (s : State) : Option State :=
  match s.turn with
  | .next (.startup []) => some { s with turn := .next .running }
  | .next (.startup (zone :: zones)) =>
    some { s with turn := .register zone.1 zone.2 (.startup zones) }
  | .register name registration round => some (s.registerZone name registration round)
  | .insert name config round => some (s.insertZone name config round)
  | .next .running | .terminated => none

def onCommand (s : State) : ApplicationCommand → State
  | .Terminate => { s with turn := .terminated }
  | .RegisterZone name registration => { s with turn := .register name registration .running }
  | .RefreshZone event => { s with event := s.event.send capacity .loader event }
  | .Other => s

/-- The maintainer runs from the end of the startup loop on. -/
def spawned (s : State) : Bool :=
  match s.turn with
  | .next .running | .register _ _ .running | .insert _ _ .running => true
  | _ => false

def isIdle (s : State) : Bool :=
  match s.turn with
  | .next .running => !s.isWaiting .loader
  | _ => false

end State

inductive Action
  | advance
  /-- An update is received. -/
  | zoneUpdated
  | command (cmd : ApplicationCommand)
  /-- `NotifyOnCommitZone::commit`, for a zone with a SOA record. -/
  | commit (id : Nat) (name : Name) (serial : Serial)
  /-- The maintainer receives an event. -/
  | event
  /-- Another task sends one. -/
  | sendEvent (id : Nat) (event : Event)

/-- Nothing is sent or received but by the loader until the maintainer runs, or after the loader has
ended. -/
def step (s : State) : Action → Option State
  | .advance => if s.isWaiting .loader then none else s.advance
  | .zoneUpdated =>
    if s.isIdle then s.zoneUpdated.receive.map (fun r ↦ { s with zoneUpdated := r.2 }) else none
  | .command cmd => if s.isIdle then some (s.onCommand cmd) else none
  | .commit id name serial =>
    if s.spawned && !s.isWaiting (.other id) then
      some { s with zoneUpdated := s.zoneUpdated.send capacity (.other id) (name, serial) }
    else none
  | .event => if s.spawned then s.event.receive.map (fun r ↦ { s with event := r.2 }) else none
  | .sendEvent id event =>
    if s.spawned && !s.isWaiting (.other id) then
      some { s with event := s.event.send capacity (.other id) event }
    else none

/-- The loader waits for its own channel, or for that of a maintainer that does not run. -/
def Blocked (s : State) : Prop :=
  s.zoneUpdated.Waits .loader ∨ s.spawned = false ∧ s.event.Waits .loader

instance (s : State) : Decidable (Blocked s) :=
  inferInstanceAs (Decidable (_ ∨ _))

def new (zones : HashMap Name Registration) : State := { turn := .next (.startup zones.entries) }

def Started (s : State) : Prop := ∃ zones, s = new zones

/-- How many zones get to be registered: those before the first one that fails. -/
def due : Zones → Nat
  | [] => 0
  | ⟨_, .failed⟩ :: _ => 0
  | ⟨_, .primary _ _⟩ :: zones | ⟨_, .secondary _⟩ :: zones => due zones + 1

/-- As many zones as there is room for in the channels. -/
def StartedFew (s : State) : Prop := ∃ zones, s = new zones ∧ due zones.entries ≤ capacity

/-- A primary zone is registered when there is room for its update, and while it is loaded that room is
left by other tasks. -/
def leavesRoom (s : State) : Action → Bool
  | .command (.RegisterZone _ (.primary _ _)) => s.zoneUpdated.hasRoom capacity
  | .commit _ _ _ =>
    match s.turn with
    | .register _ (.primary _ _) _ => decide (s.zoneUpdated.events.length + 1 < capacity)
    | _ => true
  | _ => true

/-! ## The loader does not wait -/

/-- Nobody waits, and there is room for so many more updates and events. -/
structure Fits (s : State) (updates events : Nat) : Prop where
  nobody : s.zoneUpdated.waiters = [] ∧ s.event.waiters = []
  updates_le : s.zoneUpdated.events.length + updates ≤ capacity
  events_le : s.event.events.length + events ≤ capacity

/-- What the loader is about to send fits. -/
def Room (s : State) : Prop :=
  match s.turn with
  | .next (.startup zones) => Fits s (due zones) (due zones)
  | .register name registration (.startup zones) =>
    Fits s (due (⟨name, registration⟩ :: zones)) (due (⟨name, registration⟩ :: zones))
  | .insert _ _ (.startup zones) => Fits s (due zones) (due zones + 1)
  | .register _ (.primary _ _) .running => s.zoneUpdated.hasRoom capacity = true
  | .next .running | .register _ _ .running | .insert _ _ .running => ¬s.zoneUpdated.Waits .loader
  | .terminated => s.isWaiting .loader = false

section

variable {s s' : State} {updates events : Nat}

theorem Fits.not_waits (h : Fits s updates events) :
    ¬s.zoneUpdated.Waits .loader ∧ ¬s.event.Waits .loader := by
  unfold Channel.Waits
  rw [h.nobody.1, h.nobody.2]
  exact ⟨List.not_mem_nil, List.not_mem_nil⟩

theorem Fits.hasRoom_updates (h : Fits s (updates + 1) events) :
    s.zoneUpdated.hasRoom capacity = true := by
  have hle := h.updates_le
  exact Channel.hasRoom_iff.mpr ⟨h.nobody.1, by omega⟩

theorem Fits.hasRoom_events (h : Fits s updates (events + 1)) :
    s.event.hasRoom capacity = true := by
  have hle := h.events_le
  exact Channel.hasRoom_iff.mpr ⟨h.nobody.2, by omega⟩

theorem isWaiting_eq_false_iff {task : Task} :
    s.isWaiting task = false ↔ ¬s.zoneUpdated.Waits task ∧ ¬s.event.Waits task := by
  simp [State.isWaiting]

theorem Room.not_waits (h : Room s) : ¬s.zoneUpdated.Waits .loader := by
  unfold Room at h
  split at h
  · exact h.not_waits.1
  · exact h.not_waits.1
  · exact h.not_waits.1
  · exact Channel.not_waits_of_hasRoom h .loader
  · exact h
  · exact h
  · exact h
  · exact (isWaiting_eq_false_iff.mp h).1

-- Before the maintainer runs nobody waits for it.
theorem Room.not_waits_event (h : Room s) (hspawned : s.spawned = false) :
    ¬s.event.Waits .loader := by
  have hrunning {turn : Turn} (hturn : s.turn = turn)
      (htrue : { s with turn := turn }.spawned = true) : False := by
    rw [← hturn, hspawned] at htrue
    cases htrue
  unfold Room at h
  split at h
  · exact h.not_waits.2
  · exact h.not_waits.2
  · exact h.not_waits.2
  next hturn => exact (hrunning hturn rfl).elim
  next hturn => exact (hrunning hturn rfl).elim
  next hturn => exact (hrunning hturn rfl).elim
  next hturn => exact (hrunning hturn rfl).elim
  · exact (isWaiting_eq_false_iff.mp h).2

theorem Room.not_blocked (h : Room s) : ¬Blocked s := by
  intro hblocked
  rcases hblocked with hwaits | ⟨hspawned, hwaits⟩
  · exact h.not_waits hwaits
  · exact h.not_waits_event hspawned hwaits

theorem Fits.mono {updates' events' : Nat} (h : Fits s updates events) (hupdates : updates' ≤ updates)
    (hevents : events' ≤ events) : Fits s updates' events' := by
  have hu := h.updates_le
  have he := h.events_le
  exact ⟨h.nobody, by omega, by omega⟩

theorem Fits.congr (h : Fits s updates events) (hupdated : s'.zoneUpdated = s.zoneUpdated)
    (hevent : s'.event = s.event) : Fits s' updates events := by
  constructor
  · rw [hupdated, hevent]
    exact h.nobody
  · rw [hupdated]
    exact h.updates_le
  · rw [hevent]
    exact h.events_le

-- Registering a zone leads on, or ends the loop.
theorem room_registerZone {name : Name} {registration : Registration} {round : Round}
    (hturn : s.turn = .register name registration round) (h : Room s) :
    Room (s.registerZone name registration round) := by
  cases round with
  | startup zones =>
    have hfits : Fits s (due (⟨name, registration⟩ :: zones))
        (due (⟨name, registration⟩ :: zones)) := by
      simpa only [Room, hturn] using h
    cases registration with
    | failed => exact isWaiting_eq_false_iff.mpr hfits.not_waits
    | secondary config =>
      have hdue : due (⟨name, .secondary config⟩ :: zones) = due zones + 1 := rfl
      rw [hdue] at hfits
      show Fits _ (due zones) (due zones + 1)
      exact (hfits.mono (Nat.le_succ _) (Nat.le_refl _)).congr rfl rfl
    | primary serial config =>
      have hdue : due (⟨name, .primary serial config⟩ :: zones) = due zones + 1 := rfl
      rw [hdue] at hfits
      have hupdates := hfits.updates_le
      show Fits _ (due zones) (due zones + 1)
      constructor
      · show (s.zoneUpdated.send _ _ _).waiters = [] ∧ _
        rw [Channel.send_of_hasRoom hfits.hasRoom_updates]
        exact hfits.nobody
      · show (s.zoneUpdated.send _ _ _).events.length + _ ≤ _
        rw [Channel.send_of_hasRoom hfits.hasRoom_updates, List.length_append, List.length_singleton]
        omega
      · exact hfits.events_le
  | running =>
    have hwaits := h.not_waits
    cases registration with
    | failed => exact hwaits
    | secondary config => exact hwaits
    | primary serial config =>
      have hroom : s.zoneUpdated.hasRoom capacity = true := by
        simpa only [Room, hturn] using h
      show ¬(s.zoneUpdated.send _ _ _).Waits .loader
      intro hsent
      rcases Channel.waits_send.mp hsent with hsent | ⟨hfull, -⟩
      · exact hwaits hsent
      · rw [hroom] at hfull
        cases hfull

theorem room_insertZone {name : Name} {config : ZoneConfig} {round : Round}
    (hturn : s.turn = .insert name config round) (h : Room s) :
    Room (s.insertZone name config round) := by
  cases round with
  | running =>
    have hwaits := h.not_waits
    unfold State.insertZone
    split <;> exact hwaits
  | startup zones =>
    have hfits : Fits s (due zones) (due zones + 1) := by
      simpa only [Room, hturn] using h
    unfold State.insertZone
    split
    · show Fits _ (due zones) (due zones)
      exact (hfits.mono (Nat.le_refl _) (Nat.le_succ _)).congr rfl rfl
    · have hevents := hfits.events_le
      show Fits _ (due zones) (due zones)
      constructor
      · show _ ∧ (s.event.send _ _ _).waiters = []
        rw [Channel.send_of_hasRoom hfits.hasRoom_events]
        exact hfits.nobody
      · exact hfits.updates_le
      · show (s.event.send _ _ _).events.length + _ ≤ _
        rw [Channel.send_of_hasRoom hfits.hasRoom_events, List.length_append, List.length_singleton]
        omega

theorem room_advance (h : Room s) (hstep : s.advance = some s') : Room s' := by
  unfold State.advance at hstep
  split at hstep
  next hturn =>
    cases hstep
    exact h.not_waits
  next zone zones hturn =>
    cases hstep
    have hfits : Fits s (due (zone :: zones)) (due (zone :: zones)) := by
      simpa only [Room, hturn] using h
    exact hfits.congr rfl rfl
  next hturn =>
    cases hstep
    exact room_registerZone hturn h
  next hturn =>
    cases hstep
    exact room_insertZone hturn h
  · cases hstep
  · cases hstep

theorem turn_of_isIdle (h : s.isIdle = true) : s.turn = .next .running ∧ s.isWaiting .loader = false := by
  unfold State.isIdle at h
  split at h
  next hturn => exact ⟨hturn, by simpa using h⟩
  · cases h

-- Once the maintainer runs, its channel does not matter.
theorem Room.congr_event (h : Room s) (hspawned : s.spawned = true) {c : Channel Task Event} :
    Room { s with event := c } := by
  rcases s with ⟨turn, memberZones, zoneUpdated, event⟩
  match turn with
  | .next .running | .insert _ _ .running | .register _ .failed .running
  | .register _ (.primary _ _) .running | .register _ (.secondary _) .running => exact h
  | .next (.startup zones) | .insert _ _ (.startup zones) | .register _ _ (.startup zones)
  | .terminated => cases hspawned

theorem room_command {cmd : ApplicationCommand} (hidle : s.isIdle = true)
    (hok : leavesRoom s (.command cmd) = true) : Room (s.onCommand cmd) := by
  obtain ⟨hturn, hwaiting⟩ := turn_of_isIdle hidle
  have hwaits := (isWaiting_eq_false_iff.mp hwaiting).1
  have hrunning {c : Channel Task Event} : Room { s with event := c } := by
    simp only [Room, hturn]
    exact hwaits
  cases cmd with
  | Terminate => exact hwaiting
  | RegisterZone name registration =>
    cases registration with
    | failed => exact hwaits
    | primary serial config => exact hok
    | secondary config => exact hwaits
  | RefreshZone event => exact hrunning
  | Other => exact hrunning

theorem room_commit {id : Nat} {name : Name} {serial : Serial} (h : Room s)
    (hspawned : s.spawned = true) (hok : leavesRoom s (.commit id name serial) = true) :
    Room { s with zoneUpdated := s.zoneUpdated.send capacity (.other id) (name, serial) } := by
  have hwaits : ¬(s.zoneUpdated.send capacity (.other id) (name, serial)).Waits .loader := by
    intro hsent
    rcases Channel.waits_send.mp hsent with hsent | ⟨-, heq⟩
    · exact h.not_waits hsent
    · cases heq
  rcases s with ⟨turn, memberZones, zoneUpdated, event⟩
  match turn with
  | .next .running | .insert _ _ .running | .register _ .failed .running
  | .register _ (.secondary _) .running => exact hwaits
  | .register _ (.primary _ _) .running =>
    have hroom : zoneUpdated.hasRoom capacity = true := h
    have hleft : zoneUpdated.events.length + 1 < capacity := of_decide_eq_true hok
    show (zoneUpdated.send _ _ _).hasRoom capacity = true
    rw [Channel.send_of_hasRoom hroom, Channel.hasRoom_iff, List.length_append,
      List.length_singleton]
    exact ⟨(Channel.hasRoom_iff.mp hroom).1, hleft⟩
  | .next (.startup zones) | .insert _ _ (.startup zones) | .register _ _ (.startup zones)
  | .terminated => cases hspawned

theorem room_step {a : Action} (h : Room s) (hok : leavesRoom s a = true)
    (hstep : step s a = some s') : Room s' := by
  cases a with
  | advance =>
    obtain ⟨-, hstep⟩ := Option.ite_none_left_eq_some.mp hstep
    exact room_advance h hstep
  | zoneUpdated =>
    obtain ⟨hidle, hstep⟩ := Option.ite_none_right_eq_some.mp hstep
    obtain ⟨⟨update, c⟩, hreceive, heq⟩ := Option.map_eq_some_iff.mp hstep
    cases heq
    have hwaits : ¬c.Waits .loader := fun hwaits ↦ h.not_waits (Channel.waits_of_receive hreceive hwaits)
    simp only [Room, (turn_of_isIdle hidle).1]
    exact hwaits
  | command cmd =>
    obtain ⟨hidle, heq⟩ := Option.ite_none_right_eq_some.mp hstep
    cases heq
    exact room_command hidle hok
  | commit id name serial =>
    obtain ⟨hspawned, heq⟩ := Option.ite_none_right_eq_some.mp hstep
    cases heq
    exact room_commit h (Bool.and_eq_true_iff.mp hspawned).1 hok
  | event =>
    obtain ⟨hspawned, hstep⟩ := Option.ite_none_right_eq_some.mp hstep
    obtain ⟨r, -, heq⟩ := Option.map_eq_some_iff.mp hstep
    cases heq
    exact h.congr_event hspawned
  | sendEvent id event =>
    obtain ⟨hspawned, heq⟩ := Option.ite_none_right_eq_some.mp hstep
    cases heq
    exact h.congr_event (Bool.and_eq_true_iff.mp hspawned).1

end

/-- When there are few zones, and a primary zone is only registered while there is room for its update,
the loader never waits for its own channel, nor for a maintainer that does not run yet. -/
theorem loader_never_blocked {s : State}
    (h : Reach step (fun s a ↦ leavesRoom s a = true) StartedFew s) : ¬Blocked s := by
  have hroom : Room s := by
    apply Reach.invariant ?_ ?_ h
    · intro s hstart
      obtain ⟨zones, rfl, hfew⟩ := hstart
      refine ⟨⟨rfl, rfl⟩, ?_, ?_⟩
      · show 0 + due zones.entries ≤ capacity
        omega
      · show 0 + due zones.entries ≤ capacity
        omega
    · exact fun s a s' h hok hstep ↦ room_step h hok hstep
  exact hroom.not_blocked

namespace ShortRun

def nameOf (i : Fin 20) : Name := ⟨[[UInt8.ofNat (97 + i)]], by revert i; decide⟩

/-- Primary zones without secondaries. -/
def zones (n : Nat) : HashMap Name Registration :=
  ((List.finRange 20).take n).foldl (fun zones i ↦ zones.insert (nameOf i) (.primary ⟨1⟩ {})) ∅

/-- The second zone is registered by a command. -/
def registered : List Action :=
  List.replicate 4 .advance ++
    [.event, .zoneUpdated, .command (.RegisterZone (nameOf 1) (.primary ⟨1⟩ {})),
      .commit 0 (nameOf 0) ⟨2⟩, .advance, .advance]

end ShortRun

open ShortRun in
theorem loader_not_blocked : ∃ s, Reach step (fun s a ↦ leavesRoom s a = true) StartedFew s ∧
    s.memberZones = [nameOf 1, nameOf 0] ∧ ¬Blocked s := by
  have hstart : StartedFew (new (zones 1)) := ⟨zones 1, rfl, by decide⟩
  have hok : execOk step leavesRoom (new (zones 1)) registered = true := by decide
  have hend : (exec step (new (zones 1)) registered).any
      (fun s ↦ decide (s.memberZones = [nameOf 1, nameOf 0])) = true := by decide
  obtain ⟨s, hs, hmembers⟩ := Reach.of_exec hstart registered hok hend
  exact ⟨s, hs, of_decide_eq_true hmembers, loader_never_blocked hs⟩

-- While a primary zone is loaded the room for its update is all there is: without it the loader waits.
theorem blocked_of_no_room {s s' : State} {name : Name} {serial : Serial} {config : ZoneConfig}
    {round : Round} (hturn : s.turn = .register name (.primary serial config) round)
    (hfull : s.zoneUpdated.hasRoom capacity = false) (hstep : step s .advance = some s') :
    Blocked s' := by
  simp only [step] at hstep
  split at hstep
  · cases hstep
  · simp only [State.advance, hturn, State.registerZone] at hstep
    cases hstep
    exact Or.inl (Channel.waits_send.mpr (Or.inr ⟨hfull, rfl⟩))

/-! ## A loader that waits for itself -/

namespace ShortRun

/-- Ten zones come to be registered, and the loader goes on to the eleventh. -/
def eleventh : List Action := List.replicate 32 .advance

/-- While a zone is loaded another one is committed again and again. -/
def filled : List Action :=
  List.replicate 4 .advance ++ [.command (.RegisterZone (nameOf 1) (.primary ⟨1⟩ {}))] ++
    (List.range 10).map (fun id ↦ .commit id (nameOf 0) ⟨2⟩) ++ [.advance]

end ShortRun

open ShortRun in
/-- The loader waits with eleven zones at startup, and for a zone that is registered later. -/
theorem loader_blocked : (∃ s, Reach step anyStep Started s ∧ s.spawned = false ∧ Blocked s) ∧
    ∃ s, Reach step anyStep Started s ∧ s.spawned = true ∧ Blocked s := by
  constructor
  · have hend : (exec step (new (zones 11)) eleventh).any
        (fun s ↦ decide (s.spawned = false ∧ Blocked s)) = true := by decide
    have started : Started (new (zones 11)) := ⟨zones 11, rfl⟩
    obtain ⟨s, hs, hblocked⟩ := Reach.of_exec_any started eleventh hend
    exact ⟨s, hs, of_decide_eq_true hblocked⟩
  · have hend : (exec step (new (zones 1)) filled).any
        (fun s ↦ decide (s.spawned = true ∧ Blocked s)) = true := by decide
    have started : Started (new (zones 1)) := ⟨zones 1, rfl⟩
    obtain ⟨s, hs, hblocked⟩ := Reach.of_exec_any started filled hend
    exact ⟨s, hs, of_decide_eq_true hblocked⟩

end ZoneLoader

end Cascade

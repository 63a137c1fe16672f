import Cascade.Config
import Cascade.Policy

/-!
# The registry of zones and policies

The global state behind the daemon's one lock: the known zones with their own state, and the
policies with the zones that use them.  The functions below are the operations of the HTTP API on
it.  A call ends in `Except.error` with the message of the `expect` or `assert!` that fired, and
else in the result the source returns, an error of the operation included.
-/

namespace Cascade

open Lib

inductive Change
  | ConfigChanged
  | ZoneAdded (name : Name)
  | ZonePolicyChanged (name : Name) (policy : PolicyVersion)
  | ZoneRemoved (name : Name)
deriving DecidableEq

/-- What the units report to the central command. -/
inductive Update
  | Changed (change : Change)
  | RefreshZone (zoneName : Name) (source : Option IpAddr) (serial : Option Serial)
  | UnsignedZoneUpdatedEvent (zoneName : Name) (zoneSerial : Serial)
  | UnsignedZoneApprovedEvent (zoneName : Name) (zoneSerial : Serial)
  | ZoneSignedEvent (zoneName : Name) (zoneSerial : Serial)
  | SignedZoneApprovedEvent (zoneName : Name) (zoneSerial : Serial)
  | ResignZoneEvent (zoneName : Name)
deriving DecidableEq

/-- Spawned tasks are numbered in the order in which they are spawned. -/
abbrev TaskId := Nat

structure ZoneState where
  policy : Option PolicyVersion := none
  enqueuedSave : Option TaskId := none
deriving DecidableEq

/-- The global state.  Its zones are a set keyed by zone name: a map from the name to the state of
the zone.  The TSIG store has its own module. -/
structure State where
  config : Config
  zones : HashMap Name ZoneState
  policies : HashMap String Policy
  enqueuedSave : Option TaskId

def State.new (config : Config) : State :=
  { config, zones := ∅, policies := ∅, enqueuedSave := none }

/-- The global state, the updates sent to the central command and not yet received, and the
number of the next task. -/
structure Center where
  state : State
  updateTx : List Update
  nextTask : TaskId

inductive ZoneAddError
  | AlreadyExists
deriving DecidableEq

inductive ZoneRemoveError
  | NotFound
deriving DecidableEq

inductive ChangePolicyError
  | NoSuchZone
  | NoSuchPolicy
  | PolicyMidDeletion
deriving DecidableEq

/-- `Option::expect`. -/
def expect {α : Type} (message : String) : Option α → Except String α
  | some a => .ok a
  | none => .error message

/-- `assert!` with a message. -/
def assertThat (cond : Bool) (message : String) : Except String Unit :=
  if cond then .ok () else .error message

@[simp] theorem expect_some {α : Type} (message : String) (a : α) :
    expect message (some a) = .ok a := rfl

@[simp] theorem assertThat_true (message : String) : assertThat true message = .ok () := rfl

theorem ok_bind {ε α β : Type} (a : α) (f : α → Except ε β) :
    ((Except.ok a : Except ε α) >>= f) = f a := rfl

theorem except_bind_ok {ε α β : Type} {x : Except ε α} {f : α → Except ε β} {b : β}
    (h : (x >>= f) = .ok b) : ∃ a, x = .ok a ∧ f a = .ok b := by
  cases x with
  | error e => cases h
  | ok a => exact ⟨a, rfl, h⟩

def Center.send (c : Center) (update : Update) : Center :=
  { c with updateTx := c.updateTx ++ [update] }

/-- `State::mark_dirty` -/
def Center.markDirty (c : Center) : Center :=
  match c.state.enqueuedSave with
  | some _ => c
  | none =>
    { c with
      state := { c.state with enqueuedSave := some c.nextTask }
      nextTask := c.nextTask + 1 }

def Center.setZone (c : Center) (name : Name) (zone : ZoneState) : Center :=
  { c with state := { c.state with zones := c.state.zones.insert name zone } }

def Center.setPolicy (c : Center) (name : String) (policy : Policy) : Center :=
  { c with state := { c.state with policies := c.state.policies.insert name policy } }

/-- `Zone::mark_dirty` -/
def Center.markZoneDirty (c : Center) (name : Name) (zone : ZoneState) : Center :=
  match zone.enqueuedSave with
  | some _ => c.setZone name zone
  | none =>
    { c.setZone name { zone with enqueuedSave := some c.nextTask } with
      nextTask := c.nextTask + 1 }

def addZone (c : Center) (name : Name) : Except ZoneAddError Unit × Center :=
  if name ∈ c.state.zones then (.error .AlreadyExists, c)
  else
    let zone : ZoneState := {}
    let c := c.setZone name zone
    let c := c.send (.Changed (.ZoneAdded name))
    let c := c.markDirty
    (.ok (), c.markZoneDirty name zone)

def removeZone (c : Center) (name : Name) :
    Except String (Except ZoneRemoveError Unit × Center) :=
  let c := c.send (.Changed (.ZoneRemoved name))
  match c.state.zones.lookup name with
  | none => .ok (.error .NotFound, c)
  | some zoneState =>
    let c := { c with state := { c.state with zones := c.state.zones.erase name } }
    match zoneState.policy with
    | none => .ok (.ok (), c)
    | some version => do
      let policy ← expect "every zone policy exists" (c.state.policies.lookup version.name)
      assertThat (decide (name ∈ policy.zones)) "zone policies are consistent"
      let c := c.setPolicy version.name { policy with zones := policy.zones.erase name }
      .ok (.ok (), c.markDirty)

/-- The part of `change_policy` that unlinks the previous policy of the zone. -/
def unlinkPolicy (c : Center) (name : Name) (zoneState : ZoneState) : Except String Center :=
  match zoneState.policy with
  | none => .ok c
  | some version => do
    let policy ← expect "zones and policies are consistent"
      (c.state.policies.lookup version.name)
    assertThat (decide (name ∈ policy.zones)) "zones and policies are consistent"
    .ok (c.setPolicy version.name { policy with zones := policy.zones.erase name })

/-- The part of `change_policy` that links the zone, now without a policy, to the selected one. -/
def linkPolicy (c : Center) (name : Name) (zoneState : ZoneState) (policyName : String) :
    Except ChangePolicyError Unit × Center :=
  match c.state.policies.lookup policyName with
  | none => (.error .NoSuchPolicy, c)
  | some policy =>
    if policy.midDeletion then (.error .PolicyMidDeletion, c)
    else
      let zoneState := { zoneState with policy := some policy.latest }
      let c := c.setPolicy policyName { policy with zones := policy.zones.insert name () }
      let c := c.send (.Changed (.ZonePolicyChanged name policy.latest))
      (.ok (), c.markZoneDirty name zoneState)

def changePolicy (c : Center) (name : Name) (policyName : String) :
    Except String (Except ChangePolicyError Unit × Center) :=
  match c.state.zones.lookup name, c.state.policies.lookup policyName with
  | none, _ => .ok (.error .NoSuchZone, c)
  | some _, none => .ok (.error .NoSuchPolicy, c)
  | some zoneState, some policy =>
    if policy.midDeletion then .ok (.error .PolicyMidDeletion, c)
    else do
      let c ← unlinkPolicy c name zoneState
      let zoneState := { zoneState with policy := none }
      .ok (linkPolicy (c.setZone name zoneState) name zoneState policyName)

end Cascade

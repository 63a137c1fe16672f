import Cascade.Center
import Cascade.Lib.Router

/-!
# Communication between the units

The updates that the units report, the commands that the units are given, and the central command,
which turns the one into the other.
-/

namespace Cascade

open Lib

/-- The units that take commands: the zone loader, the review servers for unsigned and signed
zones, the key manager, the zone signer and the publication server. -/
inductive UnitName
  | ZL
  | RS
  | KM
  | ZS
  | RS2
  | PS
deriving DecidableEq

inductive ZoneSource
  | Zonefile (path : Utf8Path)
  | Server (addr : SocketAddr)

structure ZoneAdd where
  name : Name
  source : ZoneSource
  policy : String

abbrev Uuid := BitVec 128

/-- The HTTP server lets no other operation through. -/
inductive ReviewOperation
  | approve
  | reject
deriving DecidableEq

/-- An approval token is what `Uuid::from_str` makes of the text in the request. -/
inductive ApplicationCommand
  | Changed (change : Change)
  | HandleZoneReviewApi (zoneName : Name) (zoneSerial : Serial) (approvalToken : Option Uuid)
      (operation : ReviewOperation)
  | SeekApprovalForUnsignedZone (zoneName : Name) (zoneSerial : Serial)
  | RefreshZone (zoneName : Name) (source : Option IpAddr) (serial : Option Serial)
  | SignZone (zoneName : Name) (zoneSerial : Option Serial)
  | SeekApprovalForSignedZone (zoneName : Name) (zoneSerial : Serial)
  | PublishSignedZone (zoneName : Name) (zoneSerial : Serial)
  | RegisterZone (register : ZoneAdd)

/-- `CentralCommand::direct_update` -/
def directUpdate : Update → List (UnitName × ApplicationCommand)
  | .Changed change =>
    [UnitName.ZL, .RS, .KM, .ZS, .RS2, .PS].map (fun name ↦ (name, .Changed change))
  | .RefreshZone zoneName source serial => [(.ZL, .RefreshZone zoneName source serial)]
  | .UnsignedZoneUpdatedEvent zoneName zoneSerial =>
    [(.RS, .SeekApprovalForUnsignedZone zoneName zoneSerial)]
  | .UnsignedZoneApprovedEvent zoneName zoneSerial =>
    [(.ZS, .SignZone zoneName (some zoneSerial))]
  | .ResignZoneEvent zoneName => [(.ZS, .SignZone zoneName none)]
  | .ZoneSignedEvent zoneName zoneSerial =>
    [(.RS2, .SeekApprovalForSignedZone zoneName zoneSerial)]
  | .SignedZoneApprovedEvent zoneName zoneSerial =>
    [(.PS, .PublishSignedZone zoneName zoneSerial)]

abbrev Net := Router Update UnitName ApplicationCommand

namespace Net

/-- The commands that the unit has not received yet. -/
def inFlight (net : Net) (u : UnitName) : List ApplicationCommand :=
  Router.inFlight directUpdate net u

-- A change is no more than a notice to the units.
theorem mem_inFlight_sendAll_changed {net : Net} {changes : List Change} {u : UnitName}
    {c : ApplicationCommand} (hc : ∀ change, c ≠ .Changed change) :
    c ∈ inFlight (net.sendAll (changes.map .Changed)) u ↔ c ∈ inFlight net u := by
  unfold inFlight
  rw [Router.inFlight_sendAll, List.mem_append, Router.mem_addressed]
  constructor
  · intro h
    cases h with
    | inl h => exact h
    | inr h =>
      simp only [List.mem_flatMap, List.mem_map, directUpdate] at h
      rcases h with ⟨_, ⟨change, -, rfl⟩, hmem⟩
      simp only [List.mem_map] at hmem
      rcases hmem with ⟨name, -, heq⟩
      cases heq
      exact absurd rfl (hc change)
  · exact Or.inl

end Net

end Cascade

import Mathlib.Data.List.Basic

/-!
# Names, serials and records

The vocabulary of the DNS library the daemon is written against: absolute domain names, SOA
serials, record types and RRsets, network addresses, and the times of `std::time`.
-/

namespace Cascade

abbrev Label := List UInt8

/-- A label has 1 to 63 bytes.  Names compare without regard to ASCII case, so a name is held in
lower case and equality of names is `=`. -/
def Label.isValid (l : Label) : Bool :=
  decide (0 < l.length) && decide (l.length ≤ 63) && l.all (fun b ↦ decide (b < 65 ∨ 90 < b))

def lowerByte (b : UInt8) : UInt8 := if 65 ≤ b ∧ b ≤ 90 then b + 32 else b

/-- The length of a name on the wire, the root label included. -/
def wireLen (labels : List Label) : Nat := labels.foldr (fun l n ↦ l.length + 1 + n) 1

/-- An absolute domain name: its labels from the leftmost one up to the one below the root. -/
structure Name where
  labels : List Label
  valid : labels.all Label.isValid = true ∧ wireLen labels ≤ 255
deriving DecidableEq

namespace Name

/-- The name one label below `n`; there is none when it would be longer than 255 bytes. -/
def child (n : Name) (label : Label) : Option Name :=
  if h : label.isValid = true ∧ wireLen (label :: n.labels) ≤ 255 then
    some ⟨label :: n.labels, by simp [h.1, n.valid.1], h.2⟩
  else none

/-- The names that `n` is equal to or below, the nearest first. -/
def ancestors (n : Name) : List Name :=
  n.labels.tails.filterMap (fun labels ↦
    if h : labels.all Label.isValid = true ∧ wireLen labels ≤ 255 then some ⟨labels, h⟩ else none)

/-- `n` is `apex` or a name below it. -/
def endsWith (n apex : Name) : Bool := apex.labels.isSuffixOf n.labels

/-- The canonical order of names: label by label from the right. -/
def canonicalLe (a b : Name) : Prop := a.labels.reverse ≤ b.labels.reverse

instance (a b : Name) : Decidable (a.canonicalLe b) :=
  inferInstanceAs (Decidable (a.labels.reverse ≤ b.labels.reverse))

theorem canonicalLe_antisymm (a b : Name) (h1 : a.canonicalLe b) (h2 : b.canonicalLe a) :
    a = b := by
  have h : a.labels.reverse = b.labels.reverse := List.le_antisymm h1 h2
  cases a
  cases b
  simpa using h

end Name

/-- A serial number (RFC 1982). -/
structure Serial where
  val : UInt32
deriving DecidableEq

/-- `>` on serials (RFC 1982). -/
def Serial.gt (a b : Serial) : Bool :=
  decide (0 < a.val - b.val) && decide (a.val - b.val < 0x80000000)

inductive Class
  | IN
  | other (code : UInt16)
deriving DecidableEq

structure Rtype where
  code : UInt16
deriving DecidableEq

namespace Rtype

def A : Rtype := ⟨1⟩
def NS : Rtype := ⟨2⟩
def SOA : Rtype := ⟨6⟩
def DS : Rtype := ⟨43⟩
def RRSIG : Rtype := ⟨46⟩
def NSEC : Rtype := ⟨47⟩
def DNSKEY : Rtype := ⟨48⟩
def NSEC3 : Rtype := ⟨50⟩
def NSEC3PARAM : Rtype := ⟨51⟩
def CDS : Rtype := ⟨59⟩
def CDNSKEY : Rtype := ⟨60⟩

end Rtype

/-- The fields of a SOA record; the timers are in seconds. -/
structure Soa where
  mname : Name
  rname : Name
  serial : Serial
  refresh : UInt32
  retry : UInt32
  expire : UInt32
  minimum : UInt32
deriving DecidableEq

/-- Record data.  Only the data of SOA records is looked into by the daemon. -/
inductive ZoneRecordData
  | soa (soa : Soa)
  | other (rtype : Rtype) (data : List UInt8)
deriving DecidableEq

def ZoneRecordData.rtype : ZoneRecordData → Rtype
  | .soa _ => Rtype.SOA
  | .other rtype _ => rtype

structure Rrset where
  rtype : Rtype
  ttl : UInt32
  data : List ZoneRecordData
deriving DecidableEq

structure StoredRecord where
  owner : Name
  ttl : UInt32
  data : ZoneRecordData
deriving DecidableEq

def StoredRecord.rtype (r : StoredRecord) : Rtype := r.data.rtype

inductive IpAddr
  | V4 (octets : BitVec 32)
  | V6 (octets : BitVec 128)
deriving DecidableEq

/-- The address of an IPv6 socket has a scope.  Its flow label is left out: one that is read from a text
has none. -/
inductive SocketAddr
  | V4 (octets : BitVec 32) (port : UInt16)
  | V6 (octets : BitVec 128) (port : UInt16) (scopeId : UInt32)
deriving DecidableEq

namespace SocketAddr

def new : IpAddr → UInt16 → SocketAddr
  | .V4 octets, port => .V4 octets port
  | .V6 octets, port => .V6 octets port 0

def ip : SocketAddr → IpAddr
  | .V4 octets _ => .V4 octets
  | .V6 octets _ _ => .V6 octets

def port : SocketAddr → UInt16
  | .V4 _ port => port
  | .V6 _ port _ => port

@[simp] theorem ip_new (ip : IpAddr) (port : UInt16) : (new ip port).ip = ip := by
  cases ip <;> rfl

@[simp] theorem port_new (ip : IpAddr) (port : UInt16) : (new ip port).port = port := by
  cases ip <;> rfl

end SocketAddr

/-- `std::time::Duration`. -/
structure Duration where
  secs : UInt64
  nanos : UInt32
  nanos_lt : nanos < 1000000000
deriving DecidableEq

namespace Duration

def fromSecs (secs : UInt64) : Duration := ⟨secs, 0, by decide⟩

def asSecs (d : Duration) : UInt64 := d.secs

@[simp] theorem asSecs_fromSecs (secs : UInt64) : (fromSecs secs).asSecs = secs := rfl

-- The fraction of a second is not in `asSecs`.
theorem fromSecs_asSecs_iff (d : Duration) : fromSecs d.asSecs = d ↔ d.nanos = 0 := by
  cases d with
  | mk secs nanos nanos_lt =>
    rw [fromSecs, asSecs, mk.injEq]
    exact ⟨fun h ↦ h.2.symm, fun h ↦ ⟨rfl, h.symm⟩⟩

end Duration

/-- `std::time::Instant`, in nanoseconds since the daemon was started. -/
abbrev Instant := Nat

/-- That many seconds in nanoseconds. -/
def seconds (n : Nat) : Nat := 1000000000 * n

/-- `Instant::checked_duration_since`, in nanoseconds. -/
def checkedDurationSince (instant earlier : Instant) : Option Nat :=
  if earlier ≤ instant then some (instant - earlier) else none

theorem checkedDurationSince_eq_none_iff {instant earlier : Instant} :
    checkedDurationSince instant earlier = none ↔ instant < earlier := by
  unfold checkedDurationSince
  split
  next hle => simp only [reduceCtorEq, false_iff, Nat.not_lt, hle]
  next hlt => simp only [Nat.not_le.mp hlt]

theorem any_checkedDurationSince (instant earlier : Instant) (bound : Nat) :
    (checkedDurationSince instant earlier).any (fun duration ↦ decide (bound < duration)) =
      decide (bound < instant - earlier) := by
  unfold checkedDurationSince
  split
  · rfl
  next hlt =>
    have hzero : instant - earlier = 0 := Nat.sub_eq_zero_of_le (Nat.le_of_not_le hlt)
    simp [hzero]

/-- `Ttl::into_duration`, in nanoseconds. -/
def intoDuration (ttl : UInt32) : Nat := seconds ttl.toNat

end Cascade

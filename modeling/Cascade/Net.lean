import Cascade.Base
import Cascade.Lib.Reader

/-!
# Addresses in texts

The texts that `core::net` takes for IP addresses and for socket addresses, which have a port.  No text
is both.
-/

namespace Cascade

open Lib

namespace Net

/-! ## Readers -/

def readDecOctet : Reader Nat := Reader.number 10 (some 3) false 256

def readIpv4Addr : Reader (BitVec 32) := do
  let a ← readDecOctet
  Reader.givenChar '.'
  let b ← readDecOctet
  Reader.givenChar '.'
  let c ← readDecOctet
  Reader.givenChar '.'
  let d ← readDecOctet
  pure (BitVec.ofNat 32 (((a * 256 + b) * 256 + c) * 256 + d))

/-- The separator stands before each group but the first one. -/
def readSeparator (first : Bool) : Reader Unit :=
  if first then pure () else Reader.givenChar ':'

def readGroup (first : Bool) : Reader Nat := do
  readSeparator first
  Reader.number 16 (some 4) true 65536

def readEmbedded (first : Bool) : Reader (BitVec 32) := do
  readSeparator first
  readIpv4Addr

/-- As many groups as there are, up to a limit, and whether the last two of them were an IPv4
address. -/
def readGroups : Nat → Bool → Reader (List Nat × Bool)
  | 0, _ => pure ([], false)
  | limit + 1, first => fun s ↦
    match if 0 < limit then readEmbedded first s else none with
    | some (v4, rest) => some (([v4.toNat / 65536, v4.toNat % 65536], true), rest)
    | none =>
      match readGroup first s with
      | some (group, rest) =>
        (readGroups limit false rest).map (fun r ↦ ((group :: r.1.1, r.1.2), r.2))
      | none => some (([], false), s)

def ofGroups (groups : List Nat) : BitVec 128 :=
  BitVec.ofNat 128 (groups.foldl (fun n group ↦ n * 65536 + group) 0)

def readIpv6Addr : Reader (BitVec 128) := do
  let (head, headIpv4) ← readGroups 8 true
  if head.length = 8 then pure (ofGroups head)
  else if headIpv4 then StateT.lift none
  else do
    Reader.givenChar ':'
    Reader.givenChar ':'
    let (tail, _) ← readGroups (8 - (head.length + 1)) true
    pure (ofGroups (head ++ List.replicate (8 - head.length - tail.length) 0 ++ tail))

def readIpAddr : Reader IpAddr :=
  Reader.orElse (do pure (.V4 (← readIpv4Addr))) (do pure (.V6 (← readIpv6Addr)))

def readPort : Reader UInt16 := do
  Reader.givenChar ':'
  pure (UInt16.ofNat (← Reader.number 10 none true 65536))

def readScopeId : Reader UInt32 := do
  Reader.givenChar '%'
  pure (UInt32.ofNat (← Reader.number 10 none true 4294967296))

def readSocketAddrV4 : Reader SocketAddr := do
  let ip ← readIpv4Addr
  pure (.V4 ip (← readPort))

def readSocketAddrV6 : Reader SocketAddr := do
  Reader.givenChar '['
  let ip ← readIpv6Addr
  let scopeId ← Reader.orElse readScopeId (pure 0)
  Reader.givenChar ']'
  pure (.V6 ip (← readPort) scopeId)

def readSocketAddr : Reader SocketAddr := Reader.orElse readSocketAddrV4 readSocketAddrV6

end Net

def IpAddr.fromStr (s : List Char) : Option IpAddr := Reader.parseWith Net.readIpAddr s

def SocketAddr.fromStr (s : List Char) : Option SocketAddr :=
  Reader.parseWith Net.readSocketAddr s

example : SocketAddr.fromStr "[fe80::1.2.3.4%7]:053".toList =
    some (.V6 0xfe800000000000000000000001020304 53 7) := by decide +kernel

example : IpAddr.fromStr "192.0.02.1".toList = none := by decide +kernel

namespace Net

section

variable {α : Type} {s rest : List Char}

/-- A character of an address. -/
abbrev IsAddrChar (c : Char) : Prop := c ≠ ' '

theorem isAddrChar_of_digit (radix : Nat) (c : Char) (h : (Reader.toDigit radix c).isSome = true) :
    IsAddrChar c := by
  intro hc
  rw [hc] at h
  cases h

theorem reads_number {radix bound : Nat} {maxDigits : Option Nat} {allowZeroPrefix : Bool} :
    Reader.Reads IsAddrChar (Reader.number radix maxDigits allowZeroPrefix bound) :=
  .number (isAddrChar_of_digit radix)

theorem reads_ipv4Addr : Reader.Reads IsAddrChar readIpv4Addr := by
  have hdot : Reader.Reads IsAddrChar (Reader.givenChar '.') := .givenChar (by decide)
  exact .bind reads_number (fun _ ↦ .bind hdot (fun _ ↦ .bind reads_number (fun _ ↦
    .bind hdot (fun _ ↦ .bind reads_number (fun _ ↦ .bind hdot (fun _ ↦
      .bind reads_number (fun _ ↦ .pure _)))))))

theorem reads_separator (first : Bool) : Reader.Reads IsAddrChar (readSeparator first) := by
  cases first with
  | true => exact .pure ()
  | false => exact .givenChar (by decide)

theorem reads_groups (limit : Nat) (first : Bool) :
    Reader.Reads IsAddrChar (readGroups limit first) := by
  induction limit generalizing first with
  | zero => exact .pure _
  | succ limit ih =>
    intro s r rest h
    simp only [readGroups] at h
    split at h
    next v4 t hembedded =>
      cases h
      split at hembedded
      · exact (Reader.Reads.bind (reads_separator first) (fun _ ↦ reads_ipv4Addr)) s v4 _ hembedded
      · cases hembedded
    · split at h
      next group t hgroup =>
        obtain ⟨⟨r', t'⟩, hgroups, heq⟩ := Option.map_eq_some_iff.mp h
        cases heq
        have hboth : Reader.Reads IsAddrChar (do
            let group ← readGroup first
            let r ← readGroups limit false
            pure (group :: r.1, r.2)) :=
          .bind (.bind (reads_separator first) (fun _ ↦ reads_number))
            (fun _ ↦ .bind (ih false) (fun _ ↦ .pure _))
        apply hboth s
        exact Reader.bind_eq_some.mpr ⟨group, t, hgroup, Reader.bind_eq_some.mpr ⟨r', t', hgroups, rfl⟩⟩
      · cases h
        exact ⟨[], rfl, fun c hc ↦ by cases hc⟩

theorem reads_ipv6Addr : Reader.Reads IsAddrChar readIpv6Addr := by
  have hcolon : Reader.Reads IsAddrChar (Reader.givenChar ':') := .givenChar (by decide)
  refine .bind (reads_groups 8 true) (fun r ↦ ?_)
  obtain ⟨head, headIpv4⟩ := r
  show Reader.Reads IsAddrChar (if head.length = 8 then _ else _)
  split
  · exact .pure _
  · split
    · intro s ip rest h
      cases h
    · exact .bind hcolon (fun _ ↦ .bind hcolon (fun _ ↦ .bind (reads_groups _ true)
        (fun _ ↦ .pure _)))

theorem reads_ipAddr : Reader.Reads IsAddrChar readIpAddr :=
  .orElse (.bind reads_ipv4Addr (fun _ ↦ .pure _)) (.bind reads_ipv6Addr (fun _ ↦ .pure _))

theorem reads_port : Reader.Reads IsAddrChar readPort :=
  .bind (.givenChar (by decide)) (fun _ ↦ .bind reads_number (fun _ ↦ .pure _))

theorem reads_scopeId : Reader.Reads IsAddrChar readScopeId :=
  .bind (.givenChar (by decide)) (fun _ ↦ .bind reads_number (fun _ ↦ .pure _))

theorem reads_socketAddr : Reader.Reads IsAddrChar readSocketAddr := by
  apply Reader.Reads.orElse
  · exact .bind reads_ipv4Addr (fun _ ↦ .bind reads_port (fun _ ↦ .pure _))
  · exact .bind (.givenChar (by decide)) (fun _ ↦ .bind reads_ipv6Addr (fun _ ↦
      .bind (.orElse reads_scopeId (.pure 0)) (fun _ ↦ .bind (.givenChar (by decide)) (fun _ ↦
        .bind reads_port (fun _ ↦ .pure _)))))

-- Neither kind of address has a space.
theorem no_space_of_ipAddr {ip : IpAddr} (h : IpAddr.fromStr s = some ip) : ' ' ∉ s :=
  fun hmem ↦ Reader.Reads.of_parseWith reads_ipAddr h ' ' hmem rfl

theorem no_space_of_socketAddr {addr : SocketAddr} (h : SocketAddr.fromStr s = some addr) :
    ' ' ∉ s :=
  fun hmem ↦ Reader.Reads.of_parseWith reads_socketAddr h ' ' hmem rfl

/-! ## No text is both an IP address and a socket address -/

theorem number_bracket (radix bound : Nat) (maxDigits : Option Nat) (allowZeroPrefix : Bool) :
    Reader.number radix maxDigits allowZeroPrefix bound ('[' :: s) = none := by
  have hnot : (Reader.toDigit radix '[').isSome = false := rfl
  simp [Reader.number, hnot]

-- An IPv6 address in brackets is no IP address.
theorem readIpAddr_bracket : readIpAddr ('[' :: s) = none := by
  have hv4 : readIpv4Addr ('[' :: s) = none :=
    Reader.bind_of_none (number_bracket 10 256 (some 3) false)
  have hgroups : readGroups 8 true ('[' :: s) = some (([], false), '[' :: s) := by
    have hembedded : readEmbedded true ('[' :: s) = none := hv4
    have hgroup : readGroup true ('[' :: s) = none := by
      show Reader.number 16 (some 4) true 65536 ('[' :: s) = none
      exact number_bracket 16 65536 (some 4) true
    simp only [readGroups, hembedded, hgroup]
    rfl
  have hv6 : readIpv6Addr ('[' :: s) = none := (Reader.bind_of_some hgroups).trans rfl
  have h4 : (do pure (IpAddr.V4 (← readIpv4Addr)) : Reader IpAddr) ('[' :: s) = none :=
    Reader.bind_of_none hv4
  have h6 : (do pure (IpAddr.V6 (← readIpv6Addr)) : Reader IpAddr) ('[' :: s) = none :=
    Reader.bind_of_none hv6
  exact Option.or_eq_none_iff.mpr ⟨h4, h6⟩

theorem fromStr_disjoint {ip : IpAddr} {addr : SocketAddr} (hip : IpAddr.fromStr s = some ip)
    (haddr : SocketAddr.fromStr s = some addr) : False := by
  have hread := Reader.parseWith_eq_some.mp hip
  rcases Option.or_eq_some_iff.mp (Reader.parseWith_eq_some.mp haddr) with hv4 | ⟨-, hv6⟩
  · -- what follows the IPv4 address is left over
    obtain ⟨v4, t, hread4, hport⟩ := Reader.bind_eq_some.mp hv4
    obtain ⟨port, t', hread', -⟩ := Reader.bind_eq_some.mp hport
    obtain ⟨u, t'', hcolon, -⟩ := Reader.bind_eq_some.mp hread'
    have hfirst : readIpAddr s = some (.V4 v4, t) :=
      Option.or_eq_some_iff.mpr (Or.inl (Reader.bind_of_some hread4))
    rw [hread] at hfirst
    cases hfirst
    cases hcolon
  · obtain ⟨u, t, hbracket, -⟩ := Reader.bind_eq_some.mp hv6
    rw [Reader.givenChar_eq_some.mp hbracket, readIpAddr_bracket] at hread
    cases hread

end

end Net

end Cascade

import Cascade.Acl
import Cascade.Net

/-!
# Access lists in the settings

The access list of a zone is written as one server with an optional port and an optional key.  The key
is looked up by its name in the store of the keys for transfers.
-/

namespace Cascade

open Lib

/-- The keys that transfers may be signed with. -/
structure TsigKeyStore (Key : Type) [Tsig.KeyLib Key] where
  inner : HashMap TsigKey Key := ∅
  wellKeyed : ∀ id key, inner.lookup id = some key →
    id = (Tsig.KeyLib.name key, Tsig.KeyLib.algorithm key) := by
      intro id key h
      cases h

namespace TsigKeyStore

variable {Key : Type} [Tsig.KeyLib Key]

def insert (store : TsigKeyStore Key) (key : Key) : TsigKeyStore Key where
  inner := store.inner.insert (Tsig.KeyLib.name key, Tsig.KeyLib.algorithm key) key
  wellKeyed := by
    intro id key' h
    by_cases hid : id = (Tsig.KeyLib.name key, Tsig.KeyLib.algorithm key)
    · rw [hid, AList.lookup_insert] at h
      cases h
      exact hid
    · rw [AList.lookup_insert_ne hid] at h
      exact store.wellKeyed id key' h

/-- Any key of that name. -/
def getKeyByName (store : TsigKeyStore Key) (encodedKeyName : Tsig.KeyName) : Option Key :=
  store.inner.entries.findSome? (fun e ↦ if e.1.1 = encodedKeyName then some e.2 else none)

variable {store : TsigKeyStore Key} {keyName : Tsig.KeyName} {key : Key}

theorem mem_of_getKeyByName (h : store.getKeyByName keyName = some key) :
    (keyName, Tsig.KeyLib.algorithm key) ∈ store.inner := by
  obtain ⟨e, hmem, he⟩ := List.exists_of_findSome?_eq_some h
  split at he
  next hname =>
    cases he
    have hlookup : store.inner.lookup e.1 = some e.2 := HashMap.lookup_eq_some_iff.mpr hmem
    have hid := store.wellKeyed e.1 e.2 hlookup
    have heq : (keyName, Tsig.KeyLib.algorithm e.2) = e.1 := by
      rw [← hname, hid]
    rw [heq]
    exact HashMap.mem_iff_lookup.mpr ⟨e.2, hlookup⟩
  · cases he

theorem getKeyByName_isSome {alg : Tsig.Algorithm} (h : (keyName, alg) ∈ store.inner) :
    ∃ key, store.getKeyByName keyName = some key := by
  obtain ⟨key, hlookup⟩ := HashMap.mem_iff_lookup.mp h
  apply Option.isSome_iff_exists.mp
  apply List.findSome?_isSome_iff.mpr
  exact ⟨⟨(keyName, alg), key⟩, HashMap.lookup_eq_some_iff.mp hlookup, by simp⟩

end TsigKeyStore

/-- The settings that come with a server. -/
structure XfrSettings where
  xfrCfg : XfrConfig
  notifyCfg : NotifyConfig
deriving DecidableEq

def XfrSettings.withKey (settings : XfrSettings) (tsigKey : Option TsigKey) : XfrSettings :=
  ⟨{ settings.xfrCfg with tsigKey := tsigKey }, { settings.notifyCfg with tsigKey := tsigKey }⟩

def keySep : List Char := " KEY ".toList

/-- An address without a port has the port 0. -/
def parseXfrAddr (addr : List Char) : Option SocketAddr :=
  (SocketAddr.fromStr addr).or ((IpAddr.fromStr addr).map (fun ip ↦ .new ip 0))

section

variable {Key : Type} [Tsig.KeyLib Key] (keyNameFromStr : List Char → Option Tsig.KeyName)

/-- The address, and the settings as they are left behind. -/
def parseXfrParts (addr : List Char) (keyName : Option (List Char)) (settings : XfrSettings)
    (keyStore : TsigKeyStore Key) : Except Unit SocketAddr × XfrSettings :=
  match parseXfrAddr addr with
  | none => (.error (), settings)
  | some addr =>
    let settings := settings.withKey none
    match keyName with
    | none => (.ok addr, settings)
    | some keyName =>
      match keyNameFromStr keyName with
      | none => (.error (), settings)
      | some encodedKeyName =>
        match keyStore.getKeyByName encodedKeyName with
        | some key =>
          (.ok addr, settings.withKey (some (encodedKeyName, Tsig.KeyLib.algorithm key)))
        | none => (.ok addr, settings)

def parseXfrAcl (xfrIn : List Char) (settings : XfrSettings) (keyStore : TsigKeyStore Key) :
    Except Unit SocketAddr × XfrSettings :=
  match split keySep xfrIn with
  | [addr] => parseXfrParts keyNameFromStr addr none settings keyStore
  | [addr, keyName] => parseXfrParts keyNameFromStr addr (some keyName) settings keyStore
  | _ => (.error (), settings)

variable {keyNameFromStr} {s addr name : List Char} {settings : XfrSettings}
  {keyStore : TsigKeyStore Key} {a : SocketAddr} {keyName : Tsig.KeyName}

theorem no_space_of_parseXfrAddr (h : parseXfrAddr s = some a) : ' ' ∉ s := by
  rcases Option.or_eq_some_iff.mp h with haddr | ⟨-, hip⟩
  · exact Net.no_space_of_socketAddr haddr
  · obtain ⟨ip, hip, -⟩ := Option.map_eq_some_iff.mp hip
    exact Net.no_space_of_ipAddr hip

-- The two kinds of address do not get into each other's way.
theorem parseXfrAddr_of_ipAddr {ip : IpAddr} (h : IpAddr.fromStr s = some ip) :
    parseXfrAddr s = some (.new ip 0) := by
  have hnone : SocketAddr.fromStr s = none :=
    Option.eq_none_iff_forall_ne_some.mpr (fun a ha ↦ Net.fromStr_disjoint h ha)
  simp [parseXfrAddr, hnone, h]

theorem parseXfrAddr_of_socketAddr (h : SocketAddr.fromStr s = some a) :
    parseXfrAddr s = some a := by
  simp [parseXfrAddr, h]

theorem parseXfrAcl_of_no_key (h : ¬keySep <:+: s) :
    parseXfrAcl keyNameFromStr s settings keyStore =
      parseXfrParts keyNameFromStr s none settings keyStore := by
  rw [parseXfrAcl, split_of_not_infix h]

theorem split_key (h : parseXfrAddr addr = some a) :
    split keySep (addr ++ keySep ++ name) = addr :: split keySep name :=
  split_append (no_space_of_parseXfrAddr h)

theorem parseXfrAcl_of_key (haddr : parseXfrAddr addr = some a) (hname : ¬keySep <:+: name) :
    parseXfrAcl keyNameFromStr (addr ++ keySep ++ name) settings keyStore =
      parseXfrParts keyNameFromStr addr (some name) settings keyStore := by
  rw [parseXfrAcl, split_key haddr, split_of_not_infix hname]

-- A name with another separator in it is an error.
theorem not_infix_of_parseXfrAcl {b : SocketAddr} (haddr : parseXfrAddr addr = some a)
    (h : (parseXfrAcl keyNameFromStr (addr ++ keySep ++ name) settings keyStore).1 = .ok b) :
    ¬keySep <:+: name := by
  rw [parseXfrAcl, split_key haddr] at h
  cases hparts : split keySep name with
  | nil => exact absurd hparts (splitFrom_ne_nil 0)
  | cons first parts =>
    cases parts with
    | nil => exact (eq_and_not_infix_of_split (by decide) hparts).2
    | cons second parts =>
      rw [hparts] at h
      cases h

-- The strategy stays as it is.
theorem parseXfrParts_strategy {keyName : Option (List Char)} :
    (parseXfrParts keyNameFromStr addr keyName settings keyStore).2.xfrCfg.strategy =
      settings.xfrCfg.strategy := by
  unfold parseXfrParts
  split
  · rfl
  · split
    · rfl
    · split
      · rfl
      · split <;> rfl

theorem parseXfrAcl_strategy :
    (parseXfrAcl keyNameFromStr s settings keyStore).2.xfrCfg.strategy =
      settings.xfrCfg.strategy := by
  unfold parseXfrAcl
  split
  · exact parseXfrParts_strategy
  · exact parseXfrParts_strategy
  · rfl

/-- Both settings have a key of the name that is written, and without a name they have none; an address
is as it is written. -/
structure KeyKept (keyNameFromStr : List Char → Option Tsig.KeyName) (keyStore : TsigKeyStore Key)
    (s : List Char) (result : Except Unit SocketAddr × XfrSettings) : Prop where
  keyed : ∀ addr name, s = addr ++ keySep ++ name → (parseXfrAddr addr).isSome = true →
    ∀ a, result.1 = .ok a → ∃ keyName alg, keyNameFromStr name = some keyName ∧
      (keyName, alg) ∈ keyStore.inner ∧ result.2.xfrCfg.tsigKey = some (keyName, alg) ∧
      result.2.notifyCfg.tsigKey = some (keyName, alg)
  unkeyed : ¬keySep <:+: s → ∀ a, result.1 = .ok a →
    result.2.xfrCfg.tsigKey = none ∧ result.2.notifyCfg.tsigKey = none
  ip : ∀ ip, IpAddr.fromStr s = some ip → result.1 = .ok (.new ip 0)
  addr : ∀ a, SocketAddr.fromStr s = some a → result.1 = .ok a

/-- Every key that is named is in the store. -/
def KeyKnown (keyNameFromStr : List Char → Option Tsig.KeyName) (keyStore : TsigKeyStore Key)
    (s : List Char) : Prop :=
  ∀ addr name keyName, s = addr ++ keySep ++ name → (parseXfrAddr addr).isSome = true →
    ¬keySep <:+: name → keyNameFromStr name = some keyName →
    ∃ alg, (keyName, alg) ∈ keyStore.inner

theorem parseXfrParts_of_known {key : Key} (haddr : parseXfrAddr addr = some a)
    (hname : keyNameFromStr name = some keyName)
    (hkey : keyStore.getKeyByName keyName = some key) :
    parseXfrParts keyNameFromStr addr (some name) settings keyStore =
      (.ok a, (settings.withKey none).withKey (some (keyName, Tsig.KeyLib.algorithm key))) := by
  simp only [parseXfrParts, haddr, hname, hkey]

theorem parseXfrParts_of_unknown (haddr : parseXfrAddr addr = some a)
    (hname : keyNameFromStr name = some keyName) (hkey : keyStore.getKeyByName keyName = none) :
    parseXfrParts keyNameFromStr addr (some name) settings keyStore =
      (.ok a, settings.withKey none) := by
  simp only [parseXfrParts, haddr, hname, hkey]

theorem parseXfrParts_unkeyed (haddr : parseXfrAddr addr = some a) :
    parseXfrParts keyNameFromStr addr none settings keyStore = (.ok a, settings.withKey none) := by
  simp only [parseXfrParts, haddr]

theorem keyed_of_known (hknown : KeyKnown keyNameFromStr keyStore s) (hs : s = addr ++ keySep ++ name)
    (haddr : (parseXfrAddr addr).isSome = true)
    (hok : (parseXfrAcl keyNameFromStr s settings keyStore).1 = .ok a) :
    ∃ keyName alg, keyNameFromStr name = some keyName ∧ (keyName, alg) ∈ keyStore.inner ∧
      (parseXfrAcl keyNameFromStr s settings keyStore).2.xfrCfg.tsigKey = some (keyName, alg) ∧
      (parseXfrAcl keyNameFromStr s settings keyStore).2.notifyCfg.tsigKey =
        some (keyName, alg) := by
  obtain ⟨b, hb⟩ := Option.isSome_iff_exists.mp haddr
  rw [hs] at hok
  have hname := not_infix_of_parseXfrAcl hb hok
  rw [parseXfrAcl_of_key hb hname] at hok
  rw [hs, parseXfrAcl_of_key hb hname]
  cases hread : keyNameFromStr name with
  | none =>
    simp only [parseXfrParts, hb, hread] at hok
    cases hok
  | some keyName =>
    obtain ⟨alg, halg⟩ := hknown addr name keyName hs haddr hname hread
    obtain ⟨key, hkey⟩ := TsigKeyStore.getKeyByName_isSome halg
    rw [parseXfrParts_of_known hb hread hkey]
    exact ⟨keyName, Tsig.KeyLib.algorithm key, rfl, TsigKeyStore.mem_of_getKeyByName hkey, rfl, rfl⟩

theorem unkeyed_of_no_key (hs : ¬keySep <:+: s)
    (hok : (parseXfrAcl keyNameFromStr s settings keyStore).1 = .ok a) :
    (parseXfrAcl keyNameFromStr s settings keyStore).2 = settings.withKey none := by
  rw [parseXfrAcl_of_no_key hs] at hok ⊢
  cases haddr : parseXfrAddr s with
  | none =>
    simp only [parseXfrParts, haddr] at hok
    cases hok
  | some b => rw [parseXfrParts_unkeyed haddr]

theorem parseXfrAcl_addr (haddr : parseXfrAddr s = some a) :
    parseXfrAcl keyNameFromStr s settings keyStore = (.ok a, settings.withKey none) := by
  have hs : ¬keySep <:+: s := by
    intro hwithin
    exact no_space_of_parseXfrAddr haddr (hwithin.subset (by decide))
  rw [parseXfrAcl_of_no_key hs, parseXfrParts_unkeyed haddr]

/-- The key is kept if and only if it is known: a name that is not in the store is passed over, and the
settings are left without a key. -/
theorem key_kept_iff (keyNameFromStr : List Char → Option Tsig.KeyName)
    (keyStore : TsigKeyStore Key) (s : List Char) (settings : XfrSettings) :
    KeyKept keyNameFromStr keyStore s (parseXfrAcl keyNameFromStr s settings keyStore) ↔
      KeyKnown keyNameFromStr keyStore s := by
  constructor
  · intro hkept addr name keyName hs haddr hname hread
    obtain ⟨a, ha⟩ := Option.isSome_iff_exists.mp haddr
    cases hkey : keyStore.getKeyByName keyName with
    | some key => exact ⟨Tsig.KeyLib.algorithm key, TsigKeyStore.mem_of_getKeyByName hkey⟩
    | none =>
      have hparse : parseXfrAcl keyNameFromStr s settings keyStore =
          (.ok a, settings.withKey none) := by
        rw [hs, parseXfrAcl_of_key ha hname, parseXfrParts_of_unknown ha hread hkey]
      obtain ⟨keyName', alg, -, -, hxfr, -⟩ := hkept.keyed addr name hs haddr a (by rw [hparse])
      rw [hparse] at hxfr
      cases hxfr
  · intro hknown
    constructor
    · exact fun addr name hs haddr a hok ↦ keyed_of_known hknown hs haddr hok
    · intro hs a hok
      rw [unkeyed_of_no_key hs hok]
      exact ⟨rfl, rfl⟩
    · intro ip hip
      rw [parseXfrAcl_addr (parseXfrAddr_of_ipAddr hip)]
    · intro a ha
      rw [parseXfrAcl_addr (parseXfrAddr_of_socketAddr ha)]

end

/-! ## A key that is not known -/

namespace ShortAcl

/-- A name of one label. -/
def keyNameFromStr (s : List Char) : Option Tsig.KeyName :=
  let labels := [s.map (fun c ↦ UInt8.ofNat c.toNat)]
  if h : labels.all Label.isValid = true ∧ wireLen labels ≤ 255 then some ⟨labels, h⟩ else none

def knownKey : Tsig.KeyName := ⟨[[107, 50]], by decide⟩

def keyStore : TsigKeyStore Tsig.PlainKey := TsigKeyStore.insert {} ⟨.Sha256, [], knownKey⟩

end ShortAcl

open ShortAcl in
/-- The transfer is not signed. -/
theorem unknown_key_lost : ∃ settings,
    parseXfrAcl keyNameFromStr "192.0.2.1:53 KEY x".toList settings keyStore =
      (.ok (.V4 0xc0000201 53), settings) ∧
    settings.xfrCfg.tsigKey = none ∧ settings.notifyCfg.tsigKey = none ∧
    ¬KeyKept keyNameFromStr keyStore "192.0.2.1:53 KEY x".toList
      (parseXfrAcl keyNameFromStr "192.0.2.1:53 KEY x".toList settings keyStore) := by
  have hparse : parseXfrAcl keyNameFromStr "192.0.2.1:53 KEY x".toList ⟨{}, {}⟩ keyStore =
      (.ok (.V4 0xc0000201 53), ⟨{}, {}⟩) := by
    have haddr : parseXfrAddr "192.0.2.1:53".toList = some (.V4 0xc0000201 53) := by
      decide +kernel
    have hname : keyNameFromStr "x".toList = some ⟨[[120]], by decide⟩ := by decide
    have hkey : keyStore.getKeyByName ⟨[[120]], by decide⟩ = none := by decide
    show parseXfrAcl keyNameFromStr ("192.0.2.1:53".toList ++ keySep ++ "x".toList) _ _ = _
    rw [parseXfrAcl_of_key haddr (by decide), parseXfrParts_of_unknown haddr hname hkey]
    rfl
  refine ⟨⟨{}, {}⟩, hparse, rfl, rfl, ?_⟩
  intro hkept
  obtain ⟨keyName, alg, -, -, hxfr, -⟩ := hkept.keyed "192.0.2.1:53".toList "x".toList rfl
    (by decide +kernel) _ (congrArg Prod.fst hparse)
  rw [hparse] at hxfr
  cases hxfr

end Cascade

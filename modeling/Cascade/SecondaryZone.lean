import Cascade.XfrAcl

/-!
# Where secondary zones come from

A secondary zone may be registered with the server it is to be transferred from, and there may be an
access list for it.  Only the access list ends up in the configuration of the zone, and its settings are
used only if it is for the very server that the zone is registered with.
-/

namespace Cascade

open Lib

namespace ZoneLoader

section

variable {Key : Type} [Tsig.KeyLib Key] (keyNameFromStr : List Char → Option Tsig.KeyName)

/-- The settings before those of an access list. -/
def initialSettings : XfrSettings :=
  ⟨{ strategy := .IxfrWithAxfrFallback, ixfrTransport := .Tcp }, {}⟩

def determineSecondaryZoneCfg (zoneName : Name) (source : Option SocketAddr)
    (xfrIn : HashMap Name (List Char)) (keyStore : TsigKeyStore Key) : Except Unit ZoneConfig :=
  match xfrIn.lookup zoneName with
  | none => .ok {}
  | some xfrIn =>
    match parseXfrAcl keyNameFromStr xfrIn initialSettings keyStore with
    | (.error _, _) => .error ()
    | (.ok src, settings) =>
      -- the settings that were found are for a different source
      let settings := if some src ≠ source then ⟨{}, {}⟩ else settings
      let zoneCfg : ZoneConfig :=
        { allowNotifyFrom := SrcDstConfig.addSrc ∅ src.ip settings.notifyCfg }
      if src.port ≠ 0 then
        .ok { zoneCfg with requestXfrFrom := SrcDstConfig.addDst ∅ src settings.xfrCfg }
      else .ok zoneCfg

/-- The access list that there is for a zone. -/
structure XfrAcl where
  server : SocketAddr
  settings : XfrSettings

def zoneAcl (zoneName : Name) (xfrIn : HashMap Name (List Char)) (keyStore : TsigKeyStore Key) :
    Except Unit (Option XfrAcl) :=
  match xfrIn.lookup zoneName with
  | none => .ok none
  | some xfrIn =>
    match parseXfrAcl keyNameFromStr xfrIn initialSettings keyStore with
    | (.error _, _) => .error ()
    | (.ok server, settings) => .ok (some ⟨server, settings⟩)

end

/-- A transfer from the server is configured with these settings. -/
def RequestsFrom (cfg : ZoneConfig) (server : SocketAddr) (tsigKey : Option TsigKey)
    (strategy : XfrStrategy) : Prop :=
  cfg.requestXfrFrom.addrs = [server] ∧ ∃ xfrCfg, cfg.requestXfrFrom.dst server = some xfrCfg ∧
    xfrCfg.tsigKey = tsigKey ∧ xfrCfg.strategy = strategy

/-- The zone is transferred from the server it is registered with, or from that of the access list. -/
structure UsesSource (acl : Option XfrAcl) (source : Option SocketAddr) (cfg : ZoneConfig) :
    Prop where
  registered : ∀ addr, source = some addr → cfg.isSecondary = true ∧
    cfg.requestXfrFrom.addrs = [addr] ∧ cfg.allowNotifyFrom.hasSrc addr.ip = true
  same : ∀ addr acl', source = some addr → acl = some acl' → acl'.server = addr →
    RequestsFrom cfg addr acl'.settings.xfrCfg.tsigKey acl'.settings.xfrCfg.strategy ∧
      cfg.allowNotifyFrom.src addr.ip = some acl'.settings.notifyCfg
  different : ∀ addr acl', source = some addr → acl = some acl' → acl'.server ≠ addr →
    cfg.requestXfrFrom.dst addr = some {} ∧ cfg.allowNotifyFrom.src addr.ip = some {}
  unregistered : ∀ acl', source = none → acl = some acl' → acl'.server.port ≠ 0 →
    RequestsFrom cfg acl'.server acl'.settings.xfrCfg.tsigKey acl'.settings.xfrCfg.strategy

/-- The access list is for the server the zone is registered with, and without such a server it has no
key. -/
def SettingsFit (acl : Option XfrAcl) : Option SocketAddr → Prop
  | some addr => ∃ acl', acl = some acl' ∧ acl'.server = addr ∧ addr.port ≠ 0
  | none => ∀ acl', acl = some acl' → acl'.server.port ≠ 0 → acl'.settings.xfrCfg.tsigKey = none

/-- The configuration that is made from an access list. -/
def cfgOf (source : Option SocketAddr) (acl : XfrAcl) : ZoneConfig :=
  let settings := if some acl.server ≠ source then ⟨{}, {}⟩ else acl.settings
  { allowNotifyFrom := SrcDstConfig.addSrc ∅ acl.server.ip settings.notifyCfg
    requestXfrFrom :=
      if acl.server.port ≠ 0 then SrcDstConfig.addDst ∅ acl.server settings.xfrCfg else ∅ }

section

variable {Key : Type} [Tsig.KeyLib Key] {keyNameFromStr : List Char → Option Tsig.KeyName}
  {zoneName : Name} {source : Option SocketAddr} {addr : SocketAddr}
  {xfrIn : HashMap Name (List Char)} {keyStore : TsigKeyStore Key} {acl : XfrAcl}

theorem determineSecondaryZoneCfg_eq :
    determineSecondaryZoneCfg keyNameFromStr zoneName source xfrIn keyStore =
      (zoneAcl keyNameFromStr zoneName xfrIn keyStore).map
        (fun acl ↦ acl.elim {} (cfgOf source)) := by
  unfold determineSecondaryZoneCfg zoneAcl
  cases xfrIn.lookup zoneName with
  | none => rfl
  | some s =>
    cases hparse : parseXfrAcl keyNameFromStr s initialSettings keyStore with
    | mk result settings =>
      simp only [hparse]
      cases result with
      | error err => rfl
      | ok src =>
        simp only [Except.map, Option.elim_some, cfgOf]
        split
        · rfl
        · rfl

theorem strategy_of_zoneAcl (h : zoneAcl keyNameFromStr zoneName xfrIn keyStore = .ok (some acl)) :
    acl.settings.xfrCfg.strategy = .IxfrWithAxfrFallback := by
  unfold zoneAcl at h
  split at h
  · cases h
  next s hlookup =>
    split at h
    · cases h
    next server settings hparse =>
      cases h
      have hstrategy := congrArg (fun r ↦ r.2.xfrCfg.strategy) hparse
      exact hstrategy.symm.trans parseXfrAcl_strategy

-- One server at most is asked for the zone, that of the access list.
theorem addrs_cfgOf : (cfgOf source acl).requestXfrFrom.addrs =
    if acl.server.port ≠ 0 then [acl.server] else [] := by
  unfold cfgOf
  by_cases hport : acl.server.port ≠ 0
  · simp only [if_pos hport]
    rfl
  · simp only [if_neg hport]
    rfl

theorem dst_cfgOf (hport : acl.server.port ≠ 0) :
    (cfgOf source acl).requestXfrFrom.dst acl.server =
      some (if some acl.server ≠ source then {} else acl.settings.xfrCfg) := by
  unfold cfgOf
  simp only [if_pos hport]
  show AList.lookup acl.server (AList.insert acl.server _ ∅) = _
  rw [AList.lookup_insert]
  split <;> rfl

theorem src_cfgOf : (cfgOf source acl).allowNotifyFrom.src acl.server.ip =
    some (if some acl.server ≠ source then {} else acl.settings.notifyCfg) := by
  show AList.lookup _ (AList.insert _ _ ∅) = _
  rw [AList.lookup_insert]
  split <;> rfl

-- Without an access list the configuration has no server.
theorem usesSource_none_iff : UsesSource none source {} ↔ SettingsFit none source := by
  cases source with
  | none =>
    constructor
    · intro _ acl hacl
      cases hacl
    · intro _
      constructor
      · exact fun addr h ↦ (by cases h)
      · exact fun addr acl h ↦ (by cases h)
      · exact fun addr acl h ↦ (by cases h)
      · exact fun acl _ hacl ↦ (by cases hacl)
  | some addr =>
    constructor
    · intro huses
      cases (huses.registered addr rfl).1
    · intro hfit
      obtain ⟨acl, hacl, -⟩ := hfit
      cases hacl

theorem server_of_usesSource (h : UsesSource (some acl) (some addr) (cfgOf (some addr) acl)) :
    acl.server = addr ∧ addr.port ≠ 0 := by
  have haddrs := (h.registered addr rfl).2.1
  rw [addrs_cfgOf] at haddrs
  split at haddrs
  next hport =>
    cases haddrs
    exact ⟨rfl, hport⟩
  · cases haddrs

theorem usesSource_of_server (hserver : acl.server = addr) (hport : addr.port ≠ 0) :
    UsesSource (some acl) (some addr) (cfgOf (some addr) acl) := by
  subst hserver
  have haddrs : (cfgOf (some acl.server) acl).requestXfrFrom.addrs = [acl.server] := by
    rw [addrs_cfgOf, if_pos hport]
  have hdst : (cfgOf (some acl.server) acl).requestXfrFrom.dst acl.server =
      some acl.settings.xfrCfg := by
    rw [dst_cfgOf hport, if_neg (fun hne ↦ hne rfl)]
  have hsrc : (cfgOf (some acl.server) acl).allowNotifyFrom.src acl.server.ip =
      some acl.settings.notifyCfg := by
    rw [src_cfgOf, if_neg (fun hne ↦ hne rfl)]
  constructor
  · intro addr heq
    cases heq
    refine ⟨?_, haddrs, decide_eq_true (HashMap.mem_iff_lookup.mpr ⟨_, hsrc⟩)⟩
    unfold ZoneConfig.isSecondary
    rw [Bool.not_eq_true', Bool.eq_false_iff]
    intro hempty
    exact HashMap.isEmpty_iff.mp hempty acl.server (HashMap.mem_iff_lookup.mpr ⟨_, hdst⟩)
  · intro addr acl' heq hacl _
    cases heq
    cases hacl
    exact ⟨⟨haddrs, _, hdst, rfl, rfl⟩, hsrc⟩
  · intro addr acl' heq hacl hne
    cases heq
    cases hacl
    exact absurd rfl hne
  · intro acl' heq
    cases heq

-- Every server is different from none, so that the settings of the access list are never used.
theorem usesSource_unregistered_iff (hstrategy : acl.settings.xfrCfg.strategy = .IxfrWithAxfrFallback) :
    UsesSource (some acl) none (cfgOf none acl) ↔ SettingsFit (some acl) none := by
  have hdst (hport : acl.server.port ≠ 0) :
      (cfgOf none acl).requestXfrFrom.dst acl.server = some {} := by
    rw [dst_cfgOf hport, if_pos (fun heq ↦ by cases heq)]
  constructor
  · intro huses acl' hacl hport
    cases hacl
    obtain ⟨-, xfrCfg, hxfr, hkey, -⟩ := huses.unregistered acl rfl rfl hport
    rw [hdst hport] at hxfr
    cases hxfr
    exact hkey.symm
  · intro hfit
    constructor
    · exact fun addr h ↦ (by cases h)
    · exact fun addr acl h ↦ (by cases h)
    · exact fun addr acl h ↦ (by cases h)
    · intro acl' _ hacl hport
      cases hacl
      refine ⟨?_, {}, hdst hport, (hfit acl rfl hport).symm, hstrategy.symm⟩
      rw [addrs_cfgOf, if_pos hport]

/-- A zone is transferred from its source with the settings that belong to it if and only if the access
list is for that source, or for no source has no key. -/
theorem source_used_iff (keyNameFromStr : List Char → Option Tsig.KeyName) (zoneName : Name)
    (source : Option SocketAddr) (xfrIn : HashMap Name (List Char)) (keyStore : TsigKeyStore Key) :
    (∀ acl cfg, zoneAcl keyNameFromStr zoneName xfrIn keyStore = .ok acl →
      determineSecondaryZoneCfg keyNameFromStr zoneName source xfrIn keyStore = .ok cfg →
        UsesSource acl source cfg) ↔
      ∀ acl, zoneAcl keyNameFromStr zoneName xfrIn keyStore = .ok acl → SettingsFit acl source := by
  rw [determineSecondaryZoneCfg_eq]
  cases hacl : zoneAcl keyNameFromStr zoneName xfrIn keyStore with
  | error err => simp
  | ok acl =>
    have hiff : UsesSource acl source (acl.elim {} (cfgOf source)) ↔ SettingsFit acl source := by
      cases acl with
      | none => exact usesSource_none_iff
      | some acl =>
        cases source with
        | none => exact usesSource_unregistered_iff (strategy_of_zoneAcl hacl)
        | some addr =>
          constructor
          · intro huses
            exact ⟨acl, rfl, server_of_usesSource huses⟩
          · intro hfit
            obtain ⟨acl', heq, hserver, hport⟩ := hfit
            cases heq
            exact usesSource_of_server hserver hport
    constructor
    · intro huses acl' heq
      cases heq
      exact hiff.mp (huses acl _ rfl rfl)
    · intro hfit acl' cfg heq hcfg
      cases heq
      cases hcfg
      exact hiff.mpr (hfit acl rfl)

end

/-! ## Settings that are not used -/

end ZoneLoader

namespace ShortAcl

def zoneName : Name := ⟨[[97]], by decide⟩

def server : SocketAddr := .V4 0xc0000201 53

/-- The server is asked with a key. -/
def xfrIn : HashMap Name (List Char) := AList.insert zoneName "192.0.2.1:53 KEY k2".toList ∅

def tsigKey : TsigKey := (knownKey, .Sha256)

def acl : ZoneLoader.XfrAcl := ⟨server, ZoneLoader.initialSettings.withKey (some tsigKey)⟩

theorem zoneAcl_eq : ZoneLoader.zoneAcl keyNameFromStr zoneName xfrIn keyStore = .ok (some acl) := by
  have haddr : parseXfrAddr "192.0.2.1:53".toList = some server := by decide +kernel
  have hname : keyNameFromStr "k2".toList = some tsigKey.1 := by decide
  have hkey : keyStore.getKeyByName tsigKey.1 = some ⟨.Sha256, [], tsigKey.1⟩ := rfl
  have hparse : parseXfrAcl keyNameFromStr ("192.0.2.1:53".toList ++ keySep ++ "k2".toList)
      ZoneLoader.initialSettings keyStore = (.ok acl.server, acl.settings) := by
    rw [parseXfrAcl_of_key haddr (by decide), parseXfrParts_of_known haddr hname hkey]
    rfl
  unfold ZoneLoader.zoneAcl
  have hlookup : xfrIn.lookup zoneName =
      some ("192.0.2.1:53".toList ++ keySep ++ "k2".toList) := AList.lookup_insert _
  simp only [hlookup, hparse]

end ShortAcl

namespace ZoneLoader

open ShortAcl in
/-- A zone with a source but no access list is no secondary zone, and a source from the access list is
asked without the key. -/
theorem source_not_used :
    (∃ cfg, determineSecondaryZoneCfg keyNameFromStr zoneName (some server) ∅ keyStore = .ok cfg ∧
      cfg.isSecondary = false) ∧
    ∃ acl cfg, zoneAcl keyNameFromStr zoneName xfrIn keyStore = .ok (some acl) ∧
      determineSecondaryZoneCfg keyNameFromStr zoneName none xfrIn keyStore = .ok cfg ∧
      acl.settings.xfrCfg.tsigKey = some tsigKey ∧ ¬UsesSource (some acl) none cfg := by
  refine ⟨⟨{}, rfl, rfl⟩, acl, cfgOf none acl, zoneAcl_eq, ?_, rfl, ?_⟩
  · rw [determineSecondaryZoneCfg_eq, zoneAcl_eq]
    rfl
  · intro huses
    have hfit := (usesSource_unregistered_iff rfl).mp huses
    cases hfit acl rfl (by decide)

end ZoneLoader

end Cascade

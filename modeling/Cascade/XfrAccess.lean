import Cascade.Expiry

/-!
# Who may transfer a zone

Transfer requests arrive with or without a TSIG key, depending on the server, and there is a provider
for either kind.  Both look the client up in the access list of the zone; only one of them looks at
the key, and neither knows the strategy that permits no transfer at all.
-/

namespace Cascade

open Lib

namespace XfrStrategy

/-- What a strategy is for. -/
def permits : XfrStrategy → XfrType → Bool
  | .None, _ => false
  | .AxfrOnly, qtype => decide (qtype = .AXFR)
  | .IxfrOnly, qtype => decide (qtype = .IXFR)
  | .IxfrWithAxfrFallback, _ => true

/-- What `check_xfr_access` refuses by the strategy. -/
def refuses : XfrStrategy → XfrType → Bool
  | .IxfrOnly, .AXFR | .AxfrOnly, .IXFR => true
  | _, _ => false

-- The two agree but for the strategy that permits nothing.
theorem permits_iff {strategy : XfrStrategy} {qtype : XfrType} :
    strategy.permits qtype = true ↔ strategy ≠ .None ∧ strategy.refuses qtype = false := by
  cases strategy <;> cases qtype <;> decide

end XfrStrategy

/-- The client has an entry, whose strategy permits the kind of transfer and whose key the request is
signed with. -/
def Permitted (config : ZoneConfig) (clientIp : IpAddr) (qtype : XfrType)
    (keyName : Option Tsig.KeyName) : Prop :=
  ∃ xfrConfig, config.provideXfrTo.src clientIp = some xfrConfig ∧
    xfrConfig.strategy.permits qtype = true ∧ keyName = xfrConfig.tsigKey.map Prod.fst

/-- What a transfer is made from. -/
structure XfrData (D : Type) where
  zone : MaintainedZone
  diffs : List D
  backwardCompatible : Bool

namespace ZoneMaintainer

def checkXfrAccess (config : ZoneConfig) (clientIp : IpAddr) (qtype : XfrType) :
    Except XfrDataProviderError XfrConfig :=
  if config.provideXfrTo.isEmpty then .error .Refused
  else
    match config.provideXfrTo.src clientIp with
    | none => .error .Refused
    | some xfrConfig =>
      if xfrConfig.strategy.refuses qtype then .error .Refused else .ok xfrConfig

/-- The reason is logged only. -/
def tsigKeyMismatch : Option Tsig.KeyName → Option Tsig.KeyName → Bool
  | none, some _ => true
  | some _, none => true
  | some expected, some actual => decide (actual ≠ expected)
  | none, none => false

/-- What the two providers have in common.  `access` decides on a zone that is found, and
`diffsForZone` are the differences that are offered for it. -/
def provide {D : Type} (m : ZoneMaintainer) (question : Option (Name × Class × XfrType))
    (access : ZoneConfig → XfrType → Except XfrDataProviderError XfrConfig)
    (diffsForZone : MaintainedZone → List D) : Except XfrDataProviderError (XfrData D) :=
  match question with
  | none => .error .Refused
  | some (qname, qclass, qtype) =>
    match m.findZone qname qclass with
    | .ok (some zone) => do
      let xfrConfig ← access zone.config qtype
      .ok ⟨zone, diffsForZone zone, decide (xfrConfig.compatibilityMode = .BackwardCompatible)⟩
    | .ok none => .error .UnknownZone
    | .error .TemporarilyUnavailable => .error .TemporarilyUnavailable

/-- `XfrDataProvider<()>::request` -/
def requestUnkeyed {D : Type} (m : ZoneMaintainer) (question : Option (Name × Class × XfrType))
    (clientIp : IpAddr) (diffsForZone : MaintainedZone → List D) :
    Except XfrDataProviderError (XfrData D) :=
  m.provide question (fun config qtype ↦ checkXfrAccess config clientIp qtype) diffsForZone

/-- The access check of `XfrDataProvider<Option<Key>>::request`. -/
def checkKeyedAccess (config : ZoneConfig) (clientIp : IpAddr) (qtype : XfrType)
    (keyName : Option Tsig.KeyName) : Except XfrDataProviderError XfrConfig := do
  let xfrConfig ← checkXfrAccess config clientIp qtype
  if tsigKeyMismatch (xfrConfig.tsigKey.map Prod.fst) keyName then .error .Refused
  else .ok xfrConfig

/-- `XfrDataProvider<Option<Key>>::request` -/
def requestKeyed {D : Type} (m : ZoneMaintainer) (question : Option (Name × Class × XfrType))
    (clientIp : IpAddr) (keyName : Option Tsig.KeyName) (diffsForZone : MaintainedZone → List D) :
    Except XfrDataProviderError (XfrData D) :=
  m.provide question (fun config qtype ↦ checkKeyedAccess config clientIp qtype keyName)
    diffsForZone

section

variable {D : Type} {m : ZoneMaintainer} {config : ZoneConfig} {zone : MaintainedZone}
  {clientIp : IpAddr} {qname : Name} {qclass : Class} {qtype : XfrType}
  {keyName : Option Tsig.KeyName} {xfrConfig : XfrConfig} {diffsForZone : MaintainedZone → List D}

theorem tsigKeyMismatch_iff {expected actual : Option Tsig.KeyName} :
    tsigKeyMismatch expected actual = true ↔ actual ≠ expected := by
  cases expected with
  | none => cases actual <;> simp [tsigKeyMismatch]
  | some expected => cases actual <;> simp [tsigKeyMismatch]

theorem provideXfrTo_not_empty (h : config.provideXfrTo.src clientIp = some xfrConfig) :
    config.provideXfrTo.isEmpty = false := by
  apply Bool.eq_false_iff.mpr
  intro hempty
  exact HashMap.isEmpty_iff.mp hempty _ (HashMap.mem_iff_lookup.mpr ⟨_, h⟩)

-- A client without an entry is refused, whether or not there are others.
theorem checkXfrAccess_none (h : config.provideXfrTo.src clientIp = none) :
    checkXfrAccess config clientIp qtype = .error .Refused := by
  rw [checkXfrAccess, h]
  split <;> rfl

theorem checkXfrAccess_some (h : config.provideXfrTo.src clientIp = some xfrConfig) :
    checkXfrAccess config clientIp qtype =
      if xfrConfig.strategy.refuses qtype then .error .Refused else .ok xfrConfig := by
  rw [checkXfrAccess, provideXfrTo_not_empty h, h]
  rfl

theorem checkKeyedAccess_none (h : config.provideXfrTo.src clientIp = none) :
    checkKeyedAccess config clientIp qtype keyName = .error .Refused := by
  rw [checkKeyedAccess, checkXfrAccess_none h]
  rfl

theorem checkKeyedAccess_some (h : config.provideXfrTo.src clientIp = some xfrConfig) :
    checkKeyedAccess config clientIp qtype keyName =
      if xfrConfig.strategy.refuses qtype = false ∧ keyName = xfrConfig.tsigKey.map Prod.fst then
        .ok xfrConfig
      else .error .Refused := by
  rw [checkKeyedAccess, checkXfrAccess_some h]
  cases hrefuses : xfrConfig.strategy.refuses qtype with
  | true =>
    simp only [if_true, Bool.true_eq_false, false_and, if_false]
    rfl
  | false =>
    simp only [Bool.false_eq_true, if_false, true_and, ok_bind]
    by_cases hkey : keyName = xfrConfig.tsigKey.map Prod.fst
    · have hmatch : ¬tsigKeyMismatch (xfrConfig.tsigKey.map Prod.fst) keyName = true :=
        fun hmismatch ↦ tsigKeyMismatch_iff.mp hmismatch hkey
      rw [if_neg hmatch, if_pos hkey]
    · rw [if_pos (tsigKeyMismatch_iff.mpr hkey), if_neg hkey]

theorem provide_found {access : ZoneConfig → XfrType → Except XfrDataProviderError XfrConfig}
    (hfind : m.findZone qname qclass = .ok (some zone)) :
    m.provide (some (qname, qclass, qtype)) access diffsForZone =
      (access zone.config qtype).map (fun xfrConfig ↦ ⟨zone, diffsForZone zone,
        decide (xfrConfig.compatibilityMode = .BackwardCompatible)⟩) := by
  simp only [provide, hfind]
  cases access zone.config qtype with
  | error err => rfl
  | ok xfrConfig => rfl

end

/-- The request is not refused by a strategy of `None` alone, and an unsigned one for which a signature
is asked is refused by the strategy. -/
def Enforced (config : ZoneConfig) (clientIp : IpAddr) (qtype : XfrType)
    (keyName : Option Tsig.KeyName) : Prop :=
  ∀ xfrConfig, config.provideXfrTo.src clientIp = some xfrConfig →
    (xfrConfig.strategy = .None → keyName ≠ xfrConfig.tsigKey.map Prod.fst) ∧
      (keyName = none → xfrConfig.tsigKey.isSome = true →
        xfrConfig.strategy.refuses qtype = true)

section

variable {D : Type} {m : ZoneMaintainer} {config : ZoneConfig} {zone : MaintainedZone}
  {clientIp : IpAddr} {qname : Name} {qclass : Class} {qtype : XfrType}
  {keyName : Option Tsig.KeyName} {xfrConfig : XfrConfig} {diffsForZone : MaintainedZone → List D}

theorem isOk_map {ε α β : Type} {x : Except ε α} {f : α → β} : (x.map f).isOk = x.isOk := by
  cases x <;> rfl

theorem map_eq_iff {ε α β : Type} {x y : Except ε α} {f : α → β}
    (hsame : ∀ a b, x = .ok a → y = .ok b → a = b) : x.map f = y.map f ↔ x = y := by
  constructor
  · intro heq
    cases x with
    | error e =>
      cases y with
      | error e' =>
        cases heq
        rfl
      | ok b => cases heq
    | ok a =>
      cases y with
      | error e' => cases heq
      | ok b => rw [hsame a b rfl rfl]
  · intro heq
    rw [heq]

-- The configuration that the access is granted with is the entry of the client.
theorem src_of_checkXfrAccess (h : checkXfrAccess config clientIp qtype = .ok xfrConfig) :
    config.provideXfrTo.src clientIp = some xfrConfig := by
  cases hentry : config.provideXfrTo.src clientIp with
  | none =>
    rw [checkXfrAccess_none hentry] at h
    cases h
  | some entry =>
    rw [checkXfrAccess_some hentry] at h
    split at h
    · cases h
    · cases h
      rfl

theorem src_of_checkKeyedAccess
    (h : checkKeyedAccess config clientIp qtype keyName = .ok xfrConfig) :
    config.provideXfrTo.src clientIp = some xfrConfig := by
  obtain ⟨entry, hentry, hkey⟩ := except_bind_ok h
  split at hkey
  · cases hkey
  · cases hkey
    exact src_of_checkXfrAccess hentry

-- The provider that looks at keys misses the strategy of `None` only.
theorem keyed_access_iff (h : config.provideXfrTo.src clientIp = some xfrConfig) :
    ((checkKeyedAccess config clientIp qtype keyName).isOk = true ↔
      Permitted config clientIp qtype keyName) ↔
      (xfrConfig.strategy = .None → keyName ≠ xfrConfig.tsigKey.map Prod.fst) := by
  have hpermitted : Permitted config clientIp qtype keyName ↔
      xfrConfig.strategy.permits qtype = true ∧ keyName = xfrConfig.tsigKey.map Prod.fst := by
    unfold Permitted
    rw [h]
    constructor
    · intro hentry
      obtain ⟨xfrConfig', heq, hok⟩ := hentry
      cases heq
      exact hok
    · exact fun hok ↦ ⟨xfrConfig, rfl, hok⟩
  have hok : (checkKeyedAccess config clientIp qtype keyName).isOk = true ↔
      xfrConfig.strategy.refuses qtype = false ∧ keyName = xfrConfig.tsigKey.map Prod.fst := by
    rw [checkKeyedAccess_some h]
    by_cases hyes : xfrConfig.strategy.refuses qtype = false ∧
        keyName = xfrConfig.tsigKey.map Prod.fst
    · rw [if_pos hyes]
      exact ⟨fun _ ↦ hyes, fun _ ↦ rfl⟩
    · rw [if_neg hyes]
      exact ⟨(fun hfalse ↦ by cases hfalse), (fun hok ↦ absurd hok hyes)⟩
  rw [hok, hpermitted, XfrStrategy.permits_iff]
  constructor
  · intro hiff hnone hkey
    have hrefuses : xfrConfig.strategy.refuses qtype = false := by
      rw [hnone]
      cases qtype <;> rfl
    exact (hiff.mp ⟨hrefuses, hkey⟩).1.1 hnone
  · intro hnone
    constructor
    · exact fun hyes ↦ ⟨⟨fun heq ↦ hnone heq hyes.2, hyes.1⟩, hyes.2⟩
    · exact fun hyes ↦ ⟨hyes.1.2, hyes.2⟩

-- On unsigned requests the providers differ when a signature is asked for.
theorem unkeyed_access_iff (h : config.provideXfrTo.src clientIp = some xfrConfig) :
    checkXfrAccess config clientIp qtype = checkKeyedAccess config clientIp qtype none ↔
      (xfrConfig.tsigKey.isSome = true → xfrConfig.strategy.refuses qtype = true) := by
  rw [checkXfrAccess_some h, checkKeyedAccess_some h]
  cases hkey : xfrConfig.tsigKey with
  | none =>
    cases xfrConfig.strategy.refuses qtype <;> simp
  | some key =>
    cases xfrConfig.strategy.refuses qtype <;> simp

/-- The provider for signed requests gives out the zone exactly to those to whom it is permitted, and
the other one decides on an unsigned request like it, if and only if the access list does not rely on
what they leave out. -/
theorem access_enforced_iff (m : ZoneMaintainer) (diffsForZone : MaintainedZone → List D)
    (hfind : m.findZone qname qclass = .ok (some zone)) (clientIp : IpAddr) (qtype : XfrType)
    (keyName : Option Tsig.KeyName) :
    ((m.requestKeyed (some (qname, qclass, qtype)) clientIp keyName diffsForZone).isOk = true ↔
        Permitted zone.config clientIp qtype keyName) ∧
      (keyName = none →
        m.requestUnkeyed (some (qname, qclass, qtype)) clientIp diffsForZone =
          m.requestKeyed (some (qname, qclass, qtype)) clientIp none diffsForZone) ↔
      Enforced zone.config clientIp qtype keyName := by
  have hkeyed : (m.requestKeyed (some (qname, qclass, qtype)) clientIp keyName diffsForZone).isOk =
      (checkKeyedAccess zone.config clientIp qtype keyName).isOk := by
    rw [requestKeyed, provide_found hfind, isOk_map]
  have hunkeyed : m.requestUnkeyed (some (qname, qclass, qtype)) clientIp diffsForZone =
      m.requestKeyed (some (qname, qclass, qtype)) clientIp none diffsForZone ↔
      checkXfrAccess zone.config clientIp qtype =
        checkKeyedAccess zone.config clientIp qtype none := by
    rw [requestUnkeyed, requestKeyed, provide_found hfind, provide_found hfind]
    apply map_eq_iff
    intro xfrConfig xfrConfig' hunkeyed hkeyed
    have hsame := (src_of_checkXfrAccess hunkeyed).symm.trans (src_of_checkKeyedAccess hkeyed)
    exact Option.some.inj hsame
  rw [hkeyed, hunkeyed]
  unfold Enforced
  cases hentry : zone.config.provideXfrTo.src clientIp with
  | none =>
    rw [checkXfrAccess_none hentry, checkKeyedAccess_none hentry, checkKeyedAccess_none hentry]
    simp [Permitted, hentry, Except.isOk, Except.toBool]
  | some xfrConfig =>
    rw [keyed_access_iff hentry, unkeyed_access_iff hentry]
    simp

end

namespace ShortRun

def client : IpAddr := .V4 1

def keyName : Tsig.KeyName := ⟨[[107, 49]], by decide⟩

/-- A primary zone that is given to one client only. -/
def provided (xfrConfig : XfrConfig) : List Action :=
  [.insertZone zone { provideXfrTo := SrcDstConfig.addSrc ∅ client xfrConfig } (some soa)] ++
    steps 0 5

/-- The zone is found, with this access list. -/
def provides (xfrConfig : XfrConfig) (m : ZoneMaintainer) : Bool :=
  match m.findZone zone.name .IN with
  | .ok (some found) => decide (found.config.provideXfrTo.src client = some xfrConfig)
  | _ => false

theorem of_provides {xfrConfig : XfrConfig} {m : ZoneMaintainer}
    (h : provides xfrConfig m = true) : ∃ found, m.findZone zone.name .IN = .ok (some found) ∧
      found.config.provideXfrTo.src client = some xfrConfig := by
  unfold provides at h
  split at h
  next found hfind => exact ⟨found, hfind, of_decide_eq_true h⟩
  · cases h

/-- AXFR, for those who sign with the key. -/
def signedAxfr : XfrConfig := { strategy := .AxfrOnly, tsigKey := some (keyName, .Sha256) }

end ShortRun

open ShortRun in
theorem signed_transfer_enforced : ∃ (m : ZoneMaintainer) (found : MaintainedZone),
    m.findZone zone.name .IN = .ok (some found) ∧
      Permitted found.config client .AXFR (some keyName) ∧
      (m.requestKeyed (some (zone.name, .IN, .AXFR)) client (some keyName)
        (fun _ ↦ ([] : List Unit))).isOk = true := by
  have hrun : ∃ m, Reach ZoneMaintainer.step anyStep Started m ∧ provides signedAxfr m = true :=
    Reach.of_exec_any new_started (provided signedAxfr) (by decide)
  obtain ⟨m, -, hend⟩ := hrun
  obtain ⟨found, hfind, hentry⟩ := of_provides hend
  have hpermitted : Permitted found.config client .AXFR (some keyName) :=
    ⟨signedAxfr, hentry, rfl, rfl⟩
  have henforced : Enforced found.config client .AXFR (some keyName) := by
    intro xfrConfig heq
    rw [hentry] at heq
    cases heq
    exact ⟨(fun hnone ↦ by cases hnone), (fun hnone ↦ by cases hnone)⟩
  have hboth := (access_enforced_iff m (fun _ ↦ ([] : List Unit)) hfind client .AXFR
    (some keyName)).mpr henforced
  exact ⟨m, found, hfind, hpermitted, hboth.1.mpr hpermitted⟩

open ShortRun in
/-- The strategy of `None` is ignored by both providers, and the key by the one for unsigned requests. -/
theorem access_not_enforced :
    (∃ m found, Reach ZoneMaintainer.step anyStep Started m ∧
      m.findZone zone.name .IN = .ok (some found) ∧ ¬Permitted found.config client .AXFR none ∧
      (m.requestKeyed (some (zone.name, .IN, .AXFR)) client none
        (fun _ ↦ ([] : List Unit))).isOk = true) ∧
    ∃ m found, Reach ZoneMaintainer.step anyStep Started m ∧
      m.findZone zone.name .IN = .ok (some found) ∧
      (m.requestUnkeyed (some (zone.name, .IN, .AXFR)) client
        (fun _ ↦ ([] : List Unit))).isOk = true ∧
      (m.requestKeyed (some (zone.name, .IN, .AXFR)) client none
        (fun _ ↦ ([] : List Unit))).isOk = false := by
  constructor
  · have hrun : ∃ m, Reach ZoneMaintainer.step anyStep Started m ∧
        provides { strategy := .None } m = true :=
      Reach.of_exec_any new_started (provided { strategy := .None }) (by decide)
    obtain ⟨m, hm, hend⟩ := hrun
    obtain ⟨found, hfind, hentry⟩ := of_provides hend
    refine ⟨m, found, hm, hfind, ?_, ?_⟩
    · intro hpermitted
      obtain ⟨xfrConfig, heq, hpermits, -⟩ := hpermitted
      rw [hentry] at heq
      cases heq
      cases hpermits
    · rw [requestKeyed, provide_found hfind, isOk_map, checkKeyedAccess_some hentry]
      rfl
  · have hrun : ∃ m, Reach ZoneMaintainer.step anyStep Started m ∧ provides signedAxfr m = true :=
      Reach.of_exec_any new_started (provided signedAxfr) (by decide)
    obtain ⟨m, hm, hend⟩ := hrun
    obtain ⟨found, hfind, hentry⟩ := of_provides hend
    refine ⟨m, found, hm, hfind, ?_, ?_⟩
    · rw [requestUnkeyed, provide_found hfind, isOk_map, checkXfrAccess_some hentry]
      rfl
    · rw [requestKeyed, provide_found hfind, isOk_map, checkKeyedAccess_some hentry]
      rfl

end ZoneMaintainer

end Cascade

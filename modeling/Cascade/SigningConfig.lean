import Cascade.PolicyEncodings
import Cascade.Serials

/-!
# The validity of signatures

The signer computes the inception and the expiration of the signatures from the current time and the
policy of the zone.  Both are 32-bit times that wrap around and are compared as serial numbers.
-/

namespace Cascade

/-- A time in seconds since 1970, modulo the range of the type. -/
abbrev Timestamp := Serial

inductive Nsec3ParamTtlMode
  | Soa
deriving DecidableEq

/-- `GenerateNsec3Config`, as far as the signer sets it. -/
structure GenerateNsec3Config where
  optOutFlag : Bool := false
  ttlMode : Nsec3ParamTtlMode
  optOutExcludeOwnerNamesOfUnsignedDelegations : Bool := true
deriving DecidableEq

inductive DenialConfig
  | Nsec
  | Nsec3 (config : GenerateNsec3Config)
deriving DecidableEq

structure SigningConfig where
  denial : DenialConfig
  inception : Timestamp
  expiration : Timestamp
deriving DecidableEq

def parseNsec3Config (optOut : Nsec3OptOutPolicy) : GenerateNsec3Config :=
  let config : GenerateNsec3Config :=
    { optOutFlag := decide (optOut = .FlagOnly ∨ optOut = .Enabled), ttlMode := .Soa }
  if optOut = .FlagOnly then
    { config with optOutExcludeOwnerNamesOfUnsignedDelegations := false }
  else config

/-- `signing_config` at the time `now`.  The seconds of a duration are cut to 32 bits. -/
def signingConfig (now : Timestamp) (policy : PolicyVersion) : SigningConfig :=
  { denial :=
      match policy.signer.denial with
      | .NSec => .Nsec
      | .NSec3 optOut => .Nsec3 (parseNsec3Config optOut)
    inception := ⟨now.val - policy.signer.sigInceptionOffset.asSecs.toUInt32⟩
    expiration := ⟨now.val + policy.signer.sigValidityTime.asSecs.toUInt32⟩ }

/-- Signatures made `now` are valid, and for as long as configured. -/
structure CoversNow (spec : SignerPolicySpec) (now : Timestamp) (config : SigningConfig) : Prop where
  inception_le_now : now.ge config.inception = true
  now_lt_expiration : config.expiration.gt now = true
  inception_lt_expiration : config.expiration.gt config.inception = true
  validity : (config.expiration.val - now.val).toNat = spec.sigValidityTime.toNat
  offset : (now.val - config.inception.val).toNat = spec.sigInceptionOffset.toNat

/-! ## Distances between times -/

section

variable (now offset validity : UInt32)

theorem toNat_add_sub_self : (now + validity - now).toNat = validity.toNat := by
  rw [UInt32.toNat_sub, UInt32.toNat_add]
  have hnow := now.toNat_lt
  have hvalidity := validity.toNat_lt
  omega

theorem toNat_sub_sub_self : (now - (now - offset)).toNat = offset.toNat := by
  rw [UInt32.toNat_sub, UInt32.toNat_sub]
  have hnow := now.toNat_lt
  have hoffset := offset.toNat_lt
  omega

theorem toNat_add_sub_sub :
    (now + validity - (now - offset)).toNat = (offset.toNat + validity.toNat) % 4294967296 := by
  rw [UInt32.toNat_sub, UInt32.toNat_add, UInt32.toNat_sub]
  have hnow := now.toNat_lt
  have hoffset := offset.toNat_lt
  have hvalidity := validity.toNat_lt
  omega

end

theorem Serial.gt_iff (a b : Serial) :
    a.gt b = true ↔ 0 < (a.val - b.val).toNat ∧ (a.val - b.val).toNat < 2147483648 := by
  rw [Serial.gt, Bool.and_eq_true, decide_eq_true_eq, decide_eq_true_eq,
    UInt32.lt_iff_toNat_lt, UInt32.lt_iff_toNat_lt]
  rfl

theorem Serial.ge_iff (a b : Serial) :
    a.ge b = true ↔ (a.val - b.val).toNat < 2147483648 := by
  have heq : a = b ↔ (a.val - b.val).toNat = 0 := by
    have ha := a.val.toNat_lt
    have hb := b.val.toNat_lt
    rw [UInt32.toNat_sub]
    constructor
    · intro h
      subst h
      omega
    · intro h
      obtain ⟨a⟩ := a
      obtain ⟨b⟩ := b
      rw [Serial.mk.injEq, ← UInt32.toNat_inj]
      dsimp only at ha hb h
      omega
  rw [Serial.ge, Bool.or_eq_true, decide_eq_true_eq, Serial.gt_iff, heq]
  omega

/-! ## The window -/

section

variable (spec : PolicyFile.V1.Spec) (name : String) (now : Timestamp)

theorem expiration_sub_now :
    ((signingConfig now (spec.parse name)).expiration.val - now.val).toNat =
      spec.signer.sigValidityTime.toNat % 4294967296 := by
  show (now.val + spec.signer.sigValidityTime.toUInt32 - now.val).toNat = _
  rw [toNat_add_sub_self, UInt64.toNat_toUInt32]

theorem now_sub_inception :
    (now.val - (signingConfig now (spec.parse name)).inception.val).toNat =
      spec.signer.sigInceptionOffset.toNat % 4294967296 := by
  show (now.val - (now.val - spec.signer.sigInceptionOffset.toUInt32)).toNat = _
  rw [toNat_sub_sub_self, UInt64.toNat_toUInt32]

theorem expiration_sub_inception :
    ((signingConfig now (spec.parse name)).expiration.val -
        (signingConfig now (spec.parse name)).inception.val).toNat =
      (spec.signer.sigInceptionOffset.toNat % 4294967296 +
        spec.signer.sigValidityTime.toNat % 4294967296) % 4294967296 := by
  show (now.val + spec.signer.sigValidityTime.toUInt32 -
    (now.val - spec.signer.sigInceptionOffset.toUInt32)).toNat = _
  rw [toNat_add_sub_sub, UInt64.toNat_toUInt32, UInt64.toNat_toUInt32]

/-- The signatures of a policy file are valid when they are made, for as long as it says, exactly
where offset and validity together are less than half of the range of times. -/
theorem coversNow_iff (hvalidity : 0 < spec.signer.sigValidityTime) :
    CoversNow spec.signer now (signingConfig now (spec.parse name)) ↔
      spec.signer.sigInceptionOffset.toNat + spec.signer.sigValidityTime.toNat < 2147483648 := by
  have hexpiration := expiration_sub_now spec name now
  have hinception := now_sub_inception spec name now
  have hwindow := expiration_sub_inception spec name now
  rw [UInt64.lt_iff_toNat_lt] at hvalidity
  have hzero : (0 : UInt64).toNat = 0 := rfl
  constructor
  · intro h
    have hlength := h.validity
    have hoffset := h.offset
    have hnow := (Serial.ge_iff _ _).mp h.inception_le_now
    have hlater := (Serial.gt_iff _ _).mp h.now_lt_expiration
    have hordered := (Serial.gt_iff _ _).mp h.inception_lt_expiration
    omega
  · intro h
    constructor
    · rw [Serial.ge_iff]
      omega
    · rw [Serial.gt_iff]
      omega
    · rw [Serial.gt_iff]
      omega
    · omega
    · omega

end

namespace SigningExample

/-- A policy with an offset of a day. -/
def policyOf (validity : UInt64) : PolicyFile.V1.Spec :=
  { loader := { review := { required := false, cmdHook := none } }
    keyManager := {}
    signer :=
      { serialPolicy := .Counter
        sigInceptionOffset := 86400
        sigValidityTime := validity
        denial := .NSec
        review := { required := false, cmdHook := none } }
    server := {} }

def now : Timestamp := ⟨1760000000⟩

end SigningExample

open SigningExample in
theorem two_weeks_cover_now :
    CoversNow (policyOf 1209600).signer now
      (signingConfig now ((policyOf 1209600).parse "default")) :=
  (coversNow_iff (policyOf 1209600) "default" now (by decide)).mpr (by decide)

open SigningExample in
/-- Signatures that are to be valid for 2^32 seconds are not valid at all. -/
theorem longest_not_covers_now :
    0 < (policyOf 4294967296).signer.sigValidityTime ∧
      ¬CoversNow (policyOf 4294967296).signer now
        (signingConfig now ((policyOf 4294967296).parse "default")) := by
  constructor
  · decide
  · intro h
    have hlater := h.now_lt_expiration
    revert hlater
    decide

end Cascade

import Cascade.Base
import Cascade.Lib.HashMap

/-!
# Policies

A policy is a template for the configuration of zones.  The registry holds the latest version of
every policy under its name, together with the names of the zones that use it.  The state file,
the zone state files and the policy files all write a policy in the same shape; its parts
(`ReviewPolicySpec` and so on) are defined once here, and each format adds its own outer structure.
-/

namespace Cascade

open Lib

structure ReviewPolicy where
  required : Bool
  cmdHook : Option String
deriving DecidableEq

structure LoaderPolicy where
  review : ReviewPolicy
deriving DecidableEq

structure KeyManagerPolicy where
deriving DecidableEq

inductive SignerSerialPolicy
  | Keep
  | Counter
  | UnixTime
  | DateCounter
deriving DecidableEq

inductive Nsec3OptOutPolicy
  | Disabled
  | FlagOnly
  | Enabled
deriving DecidableEq

inductive SignerDenialPolicy
  | NSec
  | NSec3 (optOut : Nsec3OptOutPolicy)
deriving DecidableEq

structure SignerPolicy where
  serialPolicy : SignerSerialPolicy
  sigInceptionOffset : Duration
  sigValidityTime : Duration
  denial : SignerDenialPolicy
  review : ReviewPolicy
deriving DecidableEq

structure ServerPolicy where
deriving DecidableEq

/-- A particular version of a policy. -/
structure PolicyVersion where
  name : String
  loader : LoaderPolicy
  keyManager : KeyManagerPolicy
  signer : SignerPolicy
  server : ServerPolicy
deriving DecidableEq

/-- The latest version of a policy and the zones using it.  A policy that is being deleted takes
no new zones. -/
structure Policy where
  latest : PolicyVersion
  midDeletion : Bool
  zones : HashSet Name
deriving DecidableEq

/-! ## The parts of a policy in a file -/

structure ReviewPolicySpec where
  required : Bool
  cmdHook : Option String
deriving DecidableEq

namespace ReviewPolicySpec

def parse (spec : ReviewPolicySpec) : ReviewPolicy :=
  { required := spec.required, cmdHook := spec.cmdHook }

def build (policy : ReviewPolicy) : ReviewPolicySpec :=
  { required := policy.required, cmdHook := policy.cmdHook }

@[simp] theorem parse_build (policy : ReviewPolicy) : (build policy).parse = policy := rfl

end ReviewPolicySpec

structure LoaderPolicySpec where
  review : ReviewPolicySpec
deriving DecidableEq

namespace LoaderPolicySpec

def parse (spec : LoaderPolicySpec) : LoaderPolicy := { review := spec.review.parse }

def build (policy : LoaderPolicy) : LoaderPolicySpec :=
  { review := ReviewPolicySpec.build policy.review }

@[simp] theorem parse_build (policy : LoaderPolicy) : (build policy).parse = policy := rfl

end LoaderPolicySpec

structure KeyManagerPolicySpec where
deriving DecidableEq

namespace KeyManagerPolicySpec

def parse (_ : KeyManagerPolicySpec) : KeyManagerPolicy := {}

def build (_ : KeyManagerPolicy) : KeyManagerPolicySpec := {}

@[simp] theorem parse_build (policy : KeyManagerPolicy) : (build policy).parse = policy := rfl

end KeyManagerPolicySpec

inductive SignerSerialPolicySpec
  | Keep
  | Counter
  | UnixTime
  | DateCounter
deriving DecidableEq

namespace SignerSerialPolicySpec

def parse : SignerSerialPolicySpec → SignerSerialPolicy
  | .Keep => .Keep
  | .Counter => .Counter
  | .UnixTime => .UnixTime
  | .DateCounter => .DateCounter

def build : SignerSerialPolicy → SignerSerialPolicySpec
  | .Keep => .Keep
  | .Counter => .Counter
  | .UnixTime => .UnixTime
  | .DateCounter => .DateCounter

@[simp] theorem parse_build (policy : SignerSerialPolicy) : (build policy).parse = policy := by
  cases policy <;> rfl

end SignerSerialPolicySpec

inductive Nsec3OptOutPolicySpec
  | Disabled
  | FlagOnly
  | Enabled
deriving DecidableEq

namespace Nsec3OptOutPolicySpec

def parse : Nsec3OptOutPolicySpec → Nsec3OptOutPolicy
  | .Disabled => .Disabled
  | .FlagOnly => .FlagOnly
  | .Enabled => .Enabled

def build : Nsec3OptOutPolicy → Nsec3OptOutPolicySpec
  | .Disabled => .Disabled
  | .FlagOnly => .FlagOnly
  | .Enabled => .Enabled

@[simp] theorem parse_build (policy : Nsec3OptOutPolicy) : (build policy).parse = policy := by
  cases policy <;> rfl

end Nsec3OptOutPolicySpec

inductive SignerDenialPolicySpec
  | NSec
  | NSec3 (optOut : Nsec3OptOutPolicySpec)
deriving DecidableEq

namespace SignerDenialPolicySpec

def parse : SignerDenialPolicySpec → SignerDenialPolicy
  | .NSec => .NSec
  | .NSec3 optOut => .NSec3 optOut.parse

def build : SignerDenialPolicy → SignerDenialPolicySpec
  | .NSec => .NSec
  | .NSec3 optOut => .NSec3 (Nsec3OptOutPolicySpec.build optOut)

@[simp] theorem parse_build (policy : SignerDenialPolicy) : (build policy).parse = policy := by
  cases policy with
  | NSec => rfl
  | NSec3 optOut => simp [build, parse]

end SignerDenialPolicySpec

/-- Durations are written in whole seconds. -/
structure SignerPolicySpec where
  serialPolicy : SignerSerialPolicySpec
  sigInceptionOffset : UInt64
  sigValidityTime : UInt64
  denial : SignerDenialPolicySpec
  review : ReviewPolicySpec
deriving DecidableEq

namespace SignerPolicySpec

def parse (spec : SignerPolicySpec) : SignerPolicy :=
  { serialPolicy := spec.serialPolicy.parse
    sigInceptionOffset := Duration.fromSecs spec.sigInceptionOffset
    sigValidityTime := Duration.fromSecs spec.sigValidityTime
    denial := spec.denial.parse
    review := spec.review.parse }

def build (policy : SignerPolicy) : SignerPolicySpec :=
  { serialPolicy := SignerSerialPolicySpec.build policy.serialPolicy
    sigInceptionOffset := policy.sigInceptionOffset.asSecs
    sigValidityTime := policy.sigValidityTime.asSecs
    denial := SignerDenialPolicySpec.build policy.denial
    review := ReviewPolicySpec.build policy.review }

end SignerPolicySpec

structure ServerPolicySpec where
deriving DecidableEq

namespace ServerPolicySpec

def parse (_ : ServerPolicySpec) : ServerPolicy := {}

def build (_ : ServerPolicy) : ServerPolicySpec := {}

@[simp] theorem parse_build (policy : ServerPolicy) : (build policy).parse = policy := rfl

end ServerPolicySpec

end Cascade

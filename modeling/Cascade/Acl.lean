import Cascade.Tsig

/-!
# Access lists

Which servers a zone is transferred from and to, and who is told or may tell of its changes.  An
access list maps the address of a server to the settings for it.  A server that calls is looked up by
its IP address alone, for which the list has an entry with the port of DNS.
-/

namespace Cascade

open Lib

/-- The key that a message is to be signed with. -/
abbrev TsigKey := Tsig.KeyName × Tsig.Algorithm

inductive XfrStrategy
  | None
  | AxfrOnly
  | IxfrOnly
  | IxfrWithAxfrFallback
deriving DecidableEq

inductive TransportStrategy
  | None
  | Udp
  | Tcp
deriving DecidableEq

inductive CompatibilityMode
  | Default
  | BackwardCompatible
deriving DecidableEq

structure XfrConfig where
  strategy : XfrStrategy := .IxfrWithAxfrFallback
  ixfrTransport : TransportStrategy := .None
  compatibilityMode : CompatibilityMode := .Default
  tsigKey : Option TsigKey := none
deriving DecidableEq

structure NotifyConfig where
  tsigKey : Option TsigKey := none
deriving DecidableEq

def ianaDnsPortNumber : UInt16 := 53

abbrev SrcDstConfig (T : Type) := HashMap SocketAddr T

namespace SrcDstConfig

variable {T : Type}

def addSrc (config : SrcDstConfig T) (addr : IpAddr) (v : T) : SrcDstConfig T :=
  config.insert (.new addr ianaDnsPortNumber) v

def addDst (config : SrcDstConfig T) (addr : SocketAddr) (v : T) : SrcDstConfig T :=
  config.insert addr v

def addrs (config : SrcDstConfig T) : List SocketAddr := config.keys

def dst (config : SrcDstConfig T) (addr : SocketAddr) : Option T := config.lookup addr

def src (config : SrcDstConfig T) (ip : IpAddr) : Option T :=
  config.lookup (.new ip ianaDnsPortNumber)

def hasSrc (config : SrcDstConfig T) (ip : IpAddr) : Bool :=
  decide (SocketAddr.new ip ianaDnsPortNumber ∈ config)

end SrcDstConfig

/-- The settings of a zone that decide on transfers and notifications. -/
structure ZoneConfig where
  provideXfrTo : SrcDstConfig XfrConfig := ∅
  sendNotifyTo : SrcDstConfig NotifyConfig := ∅
  allowNotifyFrom : SrcDstConfig NotifyConfig := ∅
  requestXfrFrom : SrcDstConfig XfrConfig := ∅

def ZoneConfig.isSecondary (config : ZoneConfig) : Bool := !config.requestXfrFrom.isEmpty

end Cascade

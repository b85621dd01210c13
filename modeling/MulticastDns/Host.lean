import MulticastDns.Log
import MulticastDns.Name
import MulticastDns.Net.Address
import MulticastDns.Net.Link
import MulticastDns.Text.Basic

namespace MulticastDns

structure Host where
  name : String
  ipv4 : Option IPv4
  ipv6 : Option IPv6
  ttl : UInt32
  deriving DecidableEq

namespace Host

def named (name : String) (ipv4 : Option IPv4) (ipv6 : Option IPv6) (ttl : UInt32) : Host :=
  ⟨Name.ensureLocal (Name.dropDot name), ipv4, ipv6, ttl⟩

def answersTo (h : Host) (name : String) : Bool := Text.same (Name.dropDot name) h.name

end Host

inductive HostError
  | emptyName
  deriving DecidableEq

namespace HostError

def message : HostError → String
  | .emptyName => "Hostname is empty"

end HostError

namespace Host

def firstIPv4 (addresses : List Address) : Option IPv4 :=
  addresses.findSome? fun | .v4 a => some a | .v6 _ => none

def firstIPv6 (addresses : List Address) : Option IPv6 :=
  addresses.findSome? fun | .v4 _ => none | .v6 a => some a

def shown : Option String → String
  | none => "None"
  | some s => s!"Some({s})"

def discover (l : Link) (name interface : String) (ttl : UInt32) :
    Logged (Except HostError Host) := do
  let name := Text.trim name
  if name = "" ∨ name = "." then return .error .emptyName
  let addresses := l.addresses interface
  let host := Host.named name (firstIPv4 addresses) (firstIPv6 addresses) ttl
  if addresses.isEmpty then
    .tell .warn .responder
      s!"Interface {interface} has no addresses; host queries will go unanswered"
  .tell .debug .responder (s!"Host record {host.name} ipv4={shown (host.ipv4.map (·.text))} "
    ++ s!"ipv6={shown (host.ipv6.map (·.text))}")
  return .ok host

end Host

end MulticastDns

import MulticastDns.Client.Printer
import MulticastDns.Log
import MulticastDns.Net.Link
import MulticastDns.Wire.Message
import MulticastDns.Wire.Packet

namespace MulticastDns.Client

inductive Failure
  | familyWithoutHostname
  | emptyKind
  | interface (name : String) (cause : InterfaceError)
  | invalidName (name : String) (cause : WireError)
  | invalidKind (kind : String) (cause : WireError)
  deriving DecidableEq

namespace Failure

def chain : Failure → List String
  | .familyWithoutHostname => ["-4/-6 only apply to --type hostname"]
  | .emptyKind => ["Service type is empty"]
  | .interface name cause => [s!"Failed to resolve interface {name}", cause.message]
  | .invalidName name cause => [s!"Invalid query name: {name}", cause.message]
  | .invalidKind kind cause => [s!"Invalid service type: {kind}", cause.message]

end Failure

def interfaceIndex (l : Link) : Option String → Except Failure UInt32
  | none => .ok 0
  | some name => (l.interfaceIndex name).mapError (.interface name)

structure Session where
  outcome : Except Failure Bool
  sent : List (List UInt8)
  output : List String

namespace Session

def failed (e : Failure) (sent : List (List UInt8)) : Session := ⟨.error e, sent, []⟩

end Session

def debug (message : String) : Logged Unit := .tell .debug .client message

def response? (d : Datagram) : Logged (Option Message) := do
  match ← Message.read d.bytes with
  | .error e =>
    debug s!"Ignoring malformed packet from {d.source.text}: {e.message}"
    return none
  | .ok m => return if m.header.isResponse then some m else none

def responses : List Datagram → Logged (List (Endpoint × Message))
  | [] => pure []
  | d :: rest => do
    let found ← response? d
    let later ← responses rest
    return (found.map (d.source, ·)).toList ++ later

def nothingFound (name : String) (wait : Nat) : String :=
  s!"No responses for {name} within {wait} second(s)"

end MulticastDns.Client

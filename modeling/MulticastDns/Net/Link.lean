import MulticastDns.Net.Address
import MulticastDns.Wire.Writer

namespace MulticastDns

structure Interface where
  name : String
  index : UInt32
  addresses : List Address
  deriving DecidableEq

inductive InterfaceError
  | nulInName
  | unknown (name : String)
  deriving DecidableEq

namespace InterfaceError

def message : InterfaceError → String
  | .nulInName => "interface name contains NUL"
  | .unknown name => s!"no such interface: {name}"

end InterfaceError

inductive DeliveryError
  | unreachable
  deriving DecidableEq

namespace DeliveryError

def message : DeliveryError → String
  | .unreachable => "Network is unreachable"

end DeliveryError

structure Link where
  interfaces : List Interface
  carries : Bool
  deriving DecidableEq

namespace Link

def silentLoopback : Link := ⟨[⟨"lo", 1, []⟩], false⟩

def interfaceIndex (l : Link) (name : String) : Except InterfaceError UInt32 :=
  if '\x00' ∈ name.toList then .error .nulInName
  else
    match l.interfaces.find? (·.name = name) with
    | some i => .ok i.index
    | none => .error (.unknown name)

def addresses (l : Link) (name : String) : List Address :=
  (l.interfaces.filter (·.name = name)).flatMap (·.addresses)

/-- What arrives of these datagrams: all of them, or the first one already fails. -/
def deliver {α : Type} (l : Link) (datagrams : List α) : Except DeliveryError (List α) :=
  if datagrams.isEmpty ∨ l.carries then .ok datagrams else .error .unreachable

end Link

structure Datagram where
  source : Endpoint
  bytes : Packet
  deriving DecidableEq

namespace Inbox

def capacity : Nat := 1500

def fresh : Array UInt8 := Array.replicate capacity 0

/-- Takes the start of a datagram into the buffer: the buffer afterwards, and the bytes in it that
belong to the datagram. -/
def receive (buffer : Array UInt8) (bytes : Packet) : Array UInt8 × Packet :=
  let n := min bytes.size buffer.size
  let buffer := Writer.overwrite buffer 0 (bytes.toList.take n)
  (buffer, buffer.extract 0 n)

def collectInto (buffer : Array UInt8) : List Datagram → List Datagram
  | [] => []
  | d :: rest =>
    let (buffer, bytes) := receive buffer d.bytes
    ⟨d.source, bytes⟩ :: collectInto buffer rest

def collect (arrivals : List Datagram) : List Datagram := collectInto fresh arrivals

end Inbox

end MulticastDns

import MulticastDns.Text.Hex

namespace MulticastDns

structure IPv4 where
  octets : Vector UInt8 4
  deriving DecidableEq

structure IPv6 where
  octets : Vector UInt8 16
  deriving DecidableEq

namespace IPv4

def text (a : IPv4) : String :=
  ".".intercalate (a.octets.toList.map fun b => toString b.toNat)

end IPv4

namespace IPv6

def loopback : IPv6 := ⟨#v[0, 0, 0, 0, 0, 0, 0, 0, 0, 0, 0, 0, 0, 0, 0, 1]⟩

def pairs : List UInt8 → List Nat
  | hi :: lo :: rest => (hi.toNat * 256 + lo.toNat) :: pairs rest
  | _ => []

def groups (a : IPv6) : List Nat := pairs a.octets.toList

def leadingZeros (gs : List Nat) : Nat := (gs.takeWhile (· == 0)).length

def longestZeros (start : Nat) : List Nat → Nat × Nat
  | [] => (start, 0)
  | g :: rest =>
    let here := leadingZeros (g :: rest)
    let later := longestZeros (start + 1) rest
    if later.2 ≤ here then (start, here) else later

def colons (gs : List Nat) : String := ":".intercalate (gs.map Text.hex)

/-- The groups with colons between them. The longest run of two or more zero groups becomes `::`,
and an address that embeds an IPv4 one shows that in dotted form. -/
def text (a : IPv6) : String :=
  match a.groups with
  | [0, 0, 0, 0, 0, 0xffff, _, _] =>
    "::ffff:" ++ ".".intercalate ((a.octets.toList.drop 12).map fun b => toString b.toNat)
  | gs =>
    let (start, count) := longestZeros 0 gs
    if 1 < count then colons (gs.take start) ++ "::" ++ colons (gs.drop (start + count))
    else colons gs

end IPv6

inductive Address
  | v4 (a : IPv4)
  | v6 (a : IPv6)
  deriving DecidableEq

inductive Endpoint
  | v4 (address : IPv4) (port : UInt16)
  | v6 (address : IPv6) (port : UInt16) (scope : UInt32)
  deriving DecidableEq

namespace Endpoint

def text : Endpoint → String
  | .v4 a port => a.text ++ ":" ++ toString port.toNat
  | .v6 a port scope =>
    let zone := if scope = 0 then "" else "%" ++ toString scope.toNat
    "[" ++ a.text ++ zone ++ "]:" ++ toString port.toNat

def multicastPort : UInt16 := 5353

def groupAddress : IPv6 := ⟨#v[0xff, 0x02, 0, 0, 0, 0, 0, 0, 0, 0, 0, 0, 0, 0, 0, 0xfb]⟩

def group (interface : UInt32) : Endpoint := .v6 groupAddress multicastPort interface

end Endpoint

end MulticastDns

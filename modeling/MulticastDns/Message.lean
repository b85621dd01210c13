import MulticastDns.Net.Address

namespace MulticastDns

namespace RecordType

def a : UInt16 := 1

def ptr : UInt16 := 12

def txt : UInt16 := 16

def aaaa : UInt16 := 28

def srv : UInt16 := 33

def mnemonic (rtype : UInt16) : String :=
  if rtype = a then "A"
  else if rtype = ptr then "PTR"
  else if rtype = txt then "TXT"
  else if rtype = aaaa then "AAAA"
  else if rtype = srv then "SRV"
  else "UNKNOWN"

end RecordType

namespace RecordClass

def internet : UInt16 := 1

def hasTopBit (c : UInt16) : Bool := 0x8000 ≤ c.toNat

def withoutTopBit (c : UInt16) : UInt16 := .ofNat (c.toNat % 0x8000)

def internetWith (top : Bool) : UInt16 := if top then 0x8001 else internet

end RecordClass

structure Header where
  id : UInt16
  flags : UInt16
  questions : UInt16
  answers : UInt16
  authority : UInt16
  additional : UInt16
  deriving DecidableEq

namespace Header

def size : Nat := 12

def isResponse (h : Header) : Bool := 0x8000 ≤ h.flags.toNat

def records (h : Header) : Nat := h.answers.toNat + h.authority.toNat + h.additional.toNat

end Header

structure Question where
  name : String
  qtype : UInt16
  qclass : UInt16
  deriving DecidableEq

/-- The data of a record, by its type. Data of another type, or that does not have its type's form,
is kept as bytes. -/
inductive RData
  | a (address : IPv4)
  | aaaa (address : IPv6)
  | ptr (name : String)
  | srv (priority weight port : UInt16) (target : String)
  | txt (strings : List String)
  | other (bytes : List UInt8)
  deriving DecidableEq

namespace RData

def text : RData → String
  | .a address => address.text
  | .aaaa address => address.text
  | .ptr name => "-> " ++ name
  | .srv priority weight port target =>
    s!"port={port.toNat} priority={priority.toNat} weight={weight.toNat} target={target}"
  | .txt strings => "\"" ++ "; ".intercalate strings ++ "\""
  | .other bytes => s!"<{bytes.length} bytes>"

end RData

/-- A resource record. Its class is kept without the top bit, which is `cacheFlush`. -/
structure Record where
  name : String
  rtype : UInt16
  rclass : UInt16
  cacheFlush : Bool
  ttl : UInt32
  data : RData
  deriving DecidableEq

structure Message where
  header : Header
  questions : List Question
  answers : List Record
  authority : List Record
  additional : List Record
  deriving DecidableEq

namespace Message

def records (m : Message) : List Record := m.answers ++ m.authority ++ m.additional

end Message

end MulticastDns

import MulticastDns.Text.Quoted

namespace MulticastDns

inductive WireError
  | packetTooShort (expected actual : Nat)
  | badLabelType (offset : Nat) (byte : UInt8)
  | labelOverrun (offset : Nat)
  | pointerOutOfRange (offset target : Nat)
  | pointerLoop (offset : Nat)
  | nameTooLong (max : Nat)
  | invalidUtf8 (offset : Nat)
  | invalidLabel (label : String)
  | txtTooLong (length : Nat)
  | rdataOverrun (offset : Nat)
  | bufferFull
  deriving DecidableEq

namespace WireError

def message : WireError → String
  | .packetTooShort expected actual =>
    s!"packet too short: expected at least {expected} bytes, got {actual}"
  | .badLabelType offset byte =>
    s!"reserved label type 0x{Text.hexPadded 2 byte.toNat} at offset {offset}"
  | .labelOverrun offset => s!"label at offset {offset} runs past the end of the packet"
  | .pointerOutOfRange offset target =>
    s!"compression pointer at offset {offset} targets {target}, outside the packet"
  | .pointerLoop offset => s!"compression pointer loop detected at offset {offset}"
  | .nameTooLong max => s!"domain name exceeds {max} bytes"
  | .invalidUtf8 offset => s!"invalid UTF-8 in label at offset {offset}"
  | .invalidLabel label => s!"invalid label {Text.quoted label}: length must be 1..=63"
  | .txtTooLong length => s!"TXT string of {length} bytes exceeds 255"
  | .rdataOverrun offset => s!"record data at offset {offset} overruns its length field"
  | .bufferFull => "output buffer full"

end WireError

abbrev Packet := Array UInt8

namespace Packet

def slice? (p : Packet) (start n : Nat) : Option (Array UInt8) :=
  if start + n ≤ p.size then some (p.extract start (start + n)) else none

def u16 (p : Packet) (start : Nat) : Except WireError UInt16 :=
  if h : start + 2 ≤ p.size then
    .ok (.ofNat (p[start].toNat * 256 + p[start + 1].toNat))
  else .error (.packetTooShort (start + 2) p.size)

def u32 (p : Packet) (start : Nat) : Except WireError UInt32 :=
  if h : start + 4 ≤ p.size then
    .ok (.ofNat (((p[start].toNat * 256 + p[start + 1].toNat) * 256 + p[start + 2].toNat) * 256
      + p[start + 3].toNat))
  else .error (.packetTooShort (start + 4) p.size)

theorem size_of_slice? {p : Packet} {start n : Nat} {bytes : Array UInt8}
    (h : p.slice? start n = some bytes) : bytes.size = n := by
  simp only [slice?] at h
  split at h
  · cases h
    simp
    omega
  · cases h

end Packet

def bytesOfU16 (n : UInt16) : List UInt8 := [.ofNat (n.toNat / 256), .ofNat n.toNat]

def bytesOfU32 (n : UInt32) : List UInt8 :=
  [.ofNat (n.toNat / 0x1000000), .ofNat (n.toNat / 0x10000), .ofNat (n.toNat / 0x100),
    .ofNat n.toNat]

@[simp] theorem length_bytesOfU16 (n : UInt16) : (bytesOfU16 n).length = 2 := rfl

@[simp] theorem length_bytesOfU32 (n : UInt32) : (bytesOfU32 n).length = 4 := rfl

end MulticastDns

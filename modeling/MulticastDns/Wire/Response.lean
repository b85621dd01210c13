import MulticastDns.Host
import MulticastDns.Log
import MulticastDns.Message
import MulticastDns.Registry
import MulticastDns.Wire.Name

namespace MulticastDns.Response

/-- What building left in the buffer: a response of `length` bytes with every answer or with the
first of them, or nothing. -/
inductive Outcome
  | complete (length : Nat) (answers : UInt16)
  | truncated (length : Nat) (answers : UInt16)
  | noAnswers
  deriving DecidableEq

namespace Outcome

def length? : Outcome → Option Nat
  | .complete length _ => some length
  | .truncated length _ => some length
  | .noAnswers => none

def answers : Outcome → UInt16
  | .complete _ answers => answers
  | .truncated _ answers => answers
  | .noAnswers => 0

end Outcome

def flags : UInt16 := 0x8400

def answersOffset : Nat := 6

def questionPointer : UInt16 := 0xC00C

def emitQuestion (q : Question) : Emit Unit := do
  Emit.u16 0
  Emit.u16 flags
  Emit.u16 1
  Emit.u16 0
  Emit.u16 0
  Emit.u16 0
  Name.emit q.name
  Emit.u16 q.qtype
  Emit.u16 q.qclass

def address? (q : Question) (h : Host) : Option Address :=
  if q.qtype = RecordType.a then h.ipv4.map .v4
  else if q.qtype = RecordType.aaaa then h.ipv6.map .v6
  else none

def emitAddress : Address → Emit Unit
  | .v4 a => do
    Emit.u16 4
    Emit.bytes a.octets.toList
  | .v6 a => do
    Emit.u16 16
    Emit.bytes a.octets.toList

def addressType : Address → UInt16
  | .v4 _ => RecordType.a
  | .v6 _ => RecordType.aaaa

def emitHost (q : Question) (address : Address) (rclass : UInt16) (ttl : UInt32) :
    Emit Outcome := do
  emitQuestion q
  Emit.u16 questionPointer
  Emit.u16 (addressType address)
  Emit.u16 rclass
  Emit.u32 ttl
  emitAddress address
  Emit.patch answersOffset 1
  return .complete (← Emit.position) 1

def ofHost (q : Question) (h : Host) (cacheFlush : Bool) (buffer : Array UInt8) :
    Except WireError Outcome × Array UInt8 :=
  match address? q h with
  | none => (.ok .noAnswers, buffer)
  | some address =>
    let (outcome, w) :=
      emitHost q address (RecordClass.internetWith cacheFlush) h.ttl (.ofBuffer buffer)
    (outcome, w.buffer)

def emitRecord (owner : String) (rtype rclass : UInt16) (ttl : UInt32) (data : Emit Unit) :
    Emit Unit := do
  Name.emit owner
  Emit.u16 rtype
  Emit.u16 rclass
  Emit.u32 ttl
  let lengthAt ← Emit.reserve
  let start ← Emit.position
  data
  let length := (← Emit.position) - start
  if length ≤ 0xFFFF then Emit.patch lengthAt (.ofNat length) else Emit.fail .bufferFull

def emitStrings : List String → Emit Unit
  | [] => pure ()
  | s :: rest => do
    if s.utf8ByteSize ≤ 0xFF then
      Emit.u8 (.ofNat s.utf8ByteSize)
      Emit.bytes (Text.utf8 s)
      emitStrings rest
    else Emit.fail (.txtTooLong s.utf8ByteSize)

def emitTxt (entries : List String) : Emit Unit :=
  if entries.isEmpty then Emit.u8 0 else emitStrings entries

def emitSrv (s : Service) : Emit Unit := do
  Emit.u16 s.priority
  Emit.u16 s.weight
  Emit.u16 s.port
  Name.emit s.target

def emitService (rclass : UInt16) (s : Service) : Emit Unit := do
  emitRecord s.key RecordType.srv rclass s.effectiveTtl (emitSrv s)
  emitRecord s.key RecordType.txt rclass s.effectiveTtl (emitTxt s.txt)

structure Progress where
  answers : UInt16
  full : Bool
  writer : Writer

/-- Writes the services in order. One that does not fit ends the response, and one that cannot be
written at all is left out; either leaves the cursor where it was. -/
def writeServices (rclass : UInt16) : List Service → UInt16 → Writer → Logged Progress
  | [], answers, w => pure ⟨answers, false, w⟩
  | s :: rest, answers, w =>
    let start := w.position
    match emitService rclass s w with
    | (.ok _, w) => writeServices rclass rest (answers + 2) w
    | (.error .bufferFull, w) => pure ⟨answers, true, w.truncate start⟩
    | (.error e, w) => do
      .tell .warn .core s!"Skipping service {s.key} in response: {e.message}"
      writeServices rclass rest answers (w.truncate start)

def Progress.finish (r : Progress) : Except WireError Outcome × Array UInt8 :=
  if r.answers = 0 then
    (if r.full then .error .bufferFull else .ok .noAnswers, r.writer.buffer)
  else
    let length := r.writer.position
    let w := r.writer.patch answersOffset r.answers
    (.ok (if r.full then .truncated length r.answers else .complete length r.answers), w.buffer)

def ofServices (q : Question) (services : List Service) (cacheFlush : Bool)
    (buffer : Array UInt8) : Logged (Except WireError Outcome × Array UInt8) :=
  if services.isEmpty then pure (.ok .noAnswers, buffer)
  else
    match emitQuestion q (.ofBuffer buffer) with
    | (.error e, w) => pure (.error e, w.buffer)
    | (.ok _, w) => do
      let progress ← writeServices (RecordClass.internetWith cacheFlush) services 0 w
      return progress.finish

end MulticastDns.Response

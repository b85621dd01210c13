import MulticastDns.Log
import MulticastDns.Message
import MulticastDns.Wire.Name

namespace MulticastDns

namespace Header

def read (p : Packet) : Except WireError Header := do
  if p.size < size then throw (.packetTooShort size p.size)
  return {
    id := ← p.u16 0
    flags := ← p.u16 2
    questions := ← p.u16 4
    answers := ← p.u16 6
    authority := ← p.u16 8
    additional := ← p.u16 10 }

end Header

namespace Question

def read (p : Packet) (offset : Nat) : Except WireError (Question × Nat) := do
  let (name, next) ← Name.decode p offset
  let qtype ← p.u16 next
  let qclass ← p.u16 (next + 2)
  return (⟨name, qtype, qclass⟩, next + 4)

def readMany (p : Packet) : Nat → Nat → Except WireError (List Question × Nat)
  | 0, offset => .ok ([], offset)
  | count + 1, offset =>
    match read p offset with
    | .error e => .error e
    | .ok (question, next) =>
      match readMany p count next with
      | .error e => .error e
      | .ok (questions, stop) => .ok (question :: questions, stop)

def first? (p : Packet) : Except WireError (Option Question) := do
  let header ← Header.read p
  if header.questions = 0 then return none
  let (question, _) ← read p Header.size
  return some question

end Question

namespace RData

def readName (p : Packet) (offset stop : Nat) : Except WireError String := do
  if stop ≤ offset then throw (.rdataOverrun offset)
  let (name, next) ← Name.decode p offset
  if stop < next then throw (.rdataOverrun offset)
  return name

def splitStrings (bytes : List UInt8) (offset : Nat) : Except WireError (List (List UInt8)) :=
  match bytes with
  | [] => .ok []
  | n :: rest =>
    if rest.length < n.toNat then .error (.rdataOverrun offset)
    else
      match splitStrings (rest.drop n.toNat) (offset + 1 + n.toNat) with
      | .error e => .error e
      | .ok strings => .ok (rest.take n.toNat :: strings)
termination_by bytes.length
decreasing_by
  rw [List.length_drop]
  exact Nat.lt_succ_of_le (Nat.sub_le rest.length n.toNat)

def readTexts (bytes : List UInt8) (offset : Nat) : Except WireError (List String) :=
  match splitStrings bytes offset with
  | .error e => .error e
  | .ok strings =>
    .ok ((strings.filter (!·.isEmpty)).map fun s => Text.ofUtf8Lossy s.toArray)

def read (p : Packet) (rtype : UInt16) (start : Nat) (bytes : Array UInt8) :
    Except WireError RData :=
  let stop := start + bytes.size
  if rtype = RecordType.a then
    if h : bytes.size = 4 then .ok (.a ⟨⟨bytes, h⟩⟩) else .ok (.other bytes.toList)
  else if rtype = RecordType.aaaa then
    if h : bytes.size = 16 then .ok (.aaaa ⟨⟨bytes, h⟩⟩) else .ok (.other bytes.toList)
  else if rtype = RecordType.ptr then do
    return .ptr (← readName p start stop)
  else if rtype = RecordType.srv then
    if bytes.size < 6 then .ok (.other bytes.toList)
    else do
      let priority ← Packet.u16 bytes 0
      let weight ← Packet.u16 bytes 2
      let port ← Packet.u16 bytes 4
      return .srv priority weight port (← readName p (start + 6) stop)
  else if rtype = RecordType.txt then do
    return .txt (← readTexts bytes.toList start)
  else .ok (.other bytes.toList)

end RData

namespace Record

structure Reading where
  record : Record
  next : Nat
  fault : Option WireError

def read (p : Packet) (offset : Nat) : Except WireError Reading := do
  let (name, next) ← Name.decode p offset
  let rtype ← p.u16 next
  let rawClass ← p.u16 (next + 2)
  let ttl ← p.u32 (next + 4)
  let length ← p.u16 (next + 8)
  let start := next + 10
  let stop := start + length.toNat
  match p.slice? start length.toNat with
  | none => throw (.packetTooShort stop p.size)
  | some bytes =>
    let (data, fault) :=
      match RData.read p rtype start bytes with
      | .ok data => (data, none)
      | .error e => (.other bytes.toList, some e)
    let record :=
      ⟨name, rtype, RecordClass.withoutTopBit rawClass, RecordClass.hasTopBit rawClass, ttl, data⟩
    return ⟨record, stop, fault⟩

def readMany (p : Packet) : Nat → Nat → List Reading × Except WireError Nat
  | 0, offset => ([], .ok offset)
  | count + 1, offset =>
    match read p offset with
    | .error e => ([], .error e)
    | .ok reading =>
      let (later, stop) := readMany p count reading.next
      (reading :: later, stop)

def Reading.report (r : Reading) : Logged Unit :=
  match r.fault with
  | none => pure ()
  | some e =>
    .tell .debug .core s!"Undecodable {r.record.rtype.toNat} RDATA for {r.record.name}: {e.message}"

end Record

namespace Message

def ofParts (header : Header) (questions : List Question) (records : List Record) : Message :=
  let answers := header.answers.toNat
  let authority := header.authority.toNat
  ⟨header, questions, records.take answers, (records.drop answers).take authority,
    records.drop (answers + authority)⟩

def read (p : Packet) : Logged (Except WireError Message) :=
  match Header.read p with
  | .error e => pure (.error e)
  | .ok header =>
    match Question.readMany p header.questions.toNat Header.size with
    | .error e => pure (.error e)
    | .ok (questions, offset) => do
      let (readings, stop) := Record.readMany p header.records offset
      readings.forM Record.Reading.report
      return stop.map fun _ => ofParts header questions (readings.map (·.record))

end Message

namespace Query

def header : List UInt8 := [0, 0, 0, 0, 0, 1, 0, 0, 0, 0, 0, 0]

def encode (name : String) (qtype : UInt16) (unicast : Bool) : Except WireError (List UInt8) :=
  match Name.encode name with
  | .error e => .error e
  | .ok encoded =>
    .ok (header ++ encoded ++ bytesOfU16 qtype
      ++ bytesOfU16 (RecordClass.internetWith unicast))

end Query

end MulticastDns

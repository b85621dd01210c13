import MulticastDns.Proofs.Machine.Decoding
import MulticastDns.Proofs.Message

namespace MulticastDns

namespace Scan

open Machine (add index slice sum)

variable (words : Nat)

section Questions

def header (p : Packet) : Scan Header :=
  if p.size < Header.size then throw (.packetTooShort Header.size p.size)
  else return {
    id := ← u16 words p 0
    flags := ← u16 words p 2
    questions := ← u16 words p 4
    answers := ← u16 words p 6
    authority := ← u16 words p 8
    additional := ← u16 words p 10 }

def question (p : Packet) (offset : Nat) : Scan (Question × Nat) := do
  let (name, next) ← decode words p offset
  let qtype ← u16 words p next
  let second ← add words next 2
  let qclass ← u16 words p second
  let stop ← add words next 4
  return (⟨name, qtype, qclass⟩, stop)

def questions (p : Packet) : Nat → Nat → Scan (List Question × Nat)
  | 0, offset => return ([], offset)
  | count + 1, offset => do
    let (first, next) ← question words p offset
    let (rest, stop) ← questions p count next
    return (first :: rest, stop)

def firstQuestion? (p : Packet) : Scan (Option Question) := do
  let head ← header words p
  if head.questions = 0 then return none
  else
    let (first, _) ← question words p Header.size
    return some first

variable {words : Nat} {p : Packet}

theorem runs_header (fits : p.Addressable words) : Runs (header words p) (Header.read p) := by
  have field (offset : Nat) (small : offset ≤ 10) : Runs (u16 words p offset) (p.u16 offset) :=
    runs_u16 (fits.lt (by omega))
  unfold header Header.read
  split
  · exact .throw _
  · exact .bind (field 0 (by decide)) fun _ _ => .bind (field 2 (by decide)) fun _ _ =>
      .bind (field 4 (by decide)) fun _ _ => .bind (field 6 (by decide)) fun _ _ =>
      .bind (field 8 (by decide)) fun _ _ => .map (field 10 (by decide)) fun _ => rfl

theorem runs_question (fits : p.Addressable words) (offset : Nat) :
    Runs (question words p offset) (Question.read p offset) := by
  refine .bind (runs_decode fits offset) ?_
  rintro ⟨name, next⟩ named
  have inside := (Name.bounds_of_decode named).2
  refine .bind (runs_u16 (fits.lt (by omega))) fun qtype _ => ?_
  refine .lift (Machine.add_eq (fits.lt (by omega))) ?_
  refine .bind (runs_u16 (fits.lt (by omega))) fun qclass _ => ?_
  exact .lift (Machine.add_eq (fits.lt (by omega))) (.pure _)

theorem runs_questions (fits : p.Addressable words) (count offset : Nat) :
    Runs (questions words p count offset) (Question.readMany p count offset) := by
  induction count generalizing offset with
  | zero => exact .pure _
  | succ count ih =>
    rw [Question.readMany_succ]
    exact .bind (runs_question fits offset) fun first _ => .map (ih first.2) fun _ => rfl

theorem runs_firstQuestion? (fits : p.Addressable words) :
    Runs (firstQuestion? words p) (Question.first? p) := by
  refine .bind (runs_header fits) fun head _ => ?_
  split
  · exact .pure _
  · exact .map (runs_question fits Header.size) fun _ => rfl

end Questions

section Data

def nameWithin (p : Packet) (offset stop : Nat) : Scan String :=
  if stop ≤ offset then throw (.rdataOverrun offset)
  else do
    let (name, next) ← decode words p offset
    if stop < next then throw (.rdataOverrun offset) else return name

def strings (bytes : Array UInt8) (base pos : Nat) : Scan (List (List UInt8)) :=
  if pos < bytes.size then do
    let n ← index bytes pos
    let ⟨start, _⟩ ← sum words pos 1
    let ⟨stop, _⟩ ← sum words start n.toNat
    let ⟨place, _⟩ ← sum words base pos
    match within? bytes start stop with
    | none => throw (.rdataOverrun place)
    | some string => do
      let rest ← strings bytes base stop
      return string.toList :: rest
  else return []
termination_by bytes.size - pos

def texts (bytes : Array UInt8) (base : Nat) : Scan (List String) := do
  let found ← strings words bytes base 0
  return (found.filter (!·.isEmpty)).map fun s => Text.ofUtf8Lossy s.toArray

def data (p : Packet) (rtype : UInt16) (start stop : Nat) : Scan RData := do
  let bytes ← slice p start stop
  if rtype = RecordType.a then
    if bytes.size = 4 then
      return .a ⟨#v[← index bytes 0, ← index bytes 1, ← index bytes 2, ← index bytes 3]⟩
    else return .other bytes.toList
  else if rtype = RecordType.aaaa then
    if h : bytes.size = 16 then return .aaaa ⟨⟨bytes, h⟩⟩ else return .other bytes.toList
  else if rtype = RecordType.ptr then return .ptr (← nameWithin words p start stop)
  else if rtype = RecordType.srv then
    if bytes.size < 6 then return .other bytes.toList
    else
      let priority ← u16 words bytes 0
      let weight ← u16 words bytes 2
      let port ← u16 words bytes 4
      let target ← add words start 6
      return .srv priority weight port (← nameWithin words p target stop)
  else if rtype = RecordType.txt then return .txt (← texts words bytes start)
  else return .other bytes.toList

variable {words : Nat} {p : Packet}

theorem runs_nameWithin (fits : p.Addressable words) (offset stop : Nat) :
    Runs (nameWithin words p offset stop) (RData.readName p offset stop) := by
  unfold nameWithin RData.readName
  split
  · exact .throw _
  · refine .bind (runs_decode fits offset) ?_
    rintro ⟨name, next⟩ -
    dsimp only
    split
    · exact .throw _
    · exact .pure _

theorem runs_strings {bytes : Array UInt8} {base : Nat} (pos : Nat)
    (fits : base + bytes.size + 0x200 < words) :
    Runs (strings words bytes base pos)
      (RData.splitStrings (bytes.toList.drop pos) (base + pos)) := by
  rw [strings]
  split
  · rename_i inside
    have byte : bytes[pos].toNat < 256 := bytes[pos].toNat_lt
    have left : (bytes.toList.drop (pos + 1)).length = bytes.size - (pos + 1) := by simp
    rw [List.drop_eq_getElem_cons (by rwa [Array.length_toList]), Array.getElem_toList]
    refine .lift (Machine.index_eq inside) ?_
    refine .lift (Machine.sum_eq (by omega)) ?_
    refine .lift (Machine.sum_eq (by omega)) ?_
    refine .lift (Machine.sum_eq (by omega)) ?_
    dsimp only
    by_cases whole : pos + 1 + bytes[pos].toNat ≤ bytes.size
    · have string : (bytes.extract (pos + 1) (pos + 1 + bytes[pos].toNat)).toList =
          (bytes.toList.drop (pos + 1)).take bytes[pos].toNat := by
        rw [Array.toList_extract, List.extract_eq_take_drop, Nat.add_sub_cancel_left]
      rw [within?, if_pos ⟨Nat.le_add_right _ _, whole⟩, RData.splitStrings_of_inside (by omega),
        List.drop_drop, ← string, Nat.add_assoc base, Nat.add_assoc base]
      exact .map (runs_strings (pos + 1 + bytes[pos].toNat) fits) fun _ => rfl
    · rw [within?, if_neg fun h => whole h.2, RData.splitStrings_of_overrun (by omega)]
      exact .throw _
  · rename_i past
    rw [List.drop_of_length_le (by rw [Array.length_toList]; omega), RData.splitStrings]
    exact .pure _
termination_by bytes.size - pos

theorem runs_texts {bytes : Array UInt8} {base : Nat}
    (fits : base + bytes.size + 0x200 < words) :
    Runs (texts words bytes base) (RData.readTexts bytes.toList base) := by
  rw [RData.readTexts_eq_map]
  exact .map (runs_strings 0 fits) fun _ => rfl

theorem fourOctets_eq {bytes : Array UInt8} (h : bytes.size = 4) :
    #v[bytes[0], bytes[1], bytes[2], bytes[3]] = (⟨bytes, h⟩ : Vector UInt8 4) := by
  ext i hi
  match i with
  | 0 | 1 | 2 | 3 => rfl
  | i + 4 => omega

theorem runs_data {bytes : Array UInt8} {start n : Nat} (fits : p.Addressable words)
    (rtype : UInt16) (found : p.slice? start n = some bytes) :
    Runs (data words p rtype start (start + n)) (RData.read p rtype start bytes) := by
  obtain rfl := Packet.size_of_slice? found
  obtain ⟨inside, cut⟩ := Packet.slice?_eq_some_iff.1 found
  refine .lift (Machine.slice_eq (Nat.le_add_right _ _) inside) ?_
  rw [cut]
  have number {offset : Nat} (small : offset ≤ 4) :
      Runs (u16 words bytes offset) (Packet.u16 bytes offset) :=
    runs_u16 (fits.lt (by omega))
  unfold RData.read
  split
  · split
    · -- an IPv4 address, byte by byte
      rename_i four
      refine .lift (Machine.index_eq (by omega)) (.lift (Machine.index_eq (by omega))
        (.lift (Machine.index_eq (by omega)) (.lift (Machine.index_eq (by omega)) ?_)))
      rw [fourOctets_eq four]
      exact .pure _
    · exact .pure _
  · split
    · split
      · exact .pure _
      · exact .pure _
    · split
      · exact .map (runs_nameWithin fits _ _) fun _ => rfl
      · split
        · split
          · exact .pure _
          · -- three numbers and a target, in data long enough for the numbers
            refine .bind (number (by decide)) fun priority _ => ?_
            refine .bind (number (by decide)) fun weight _ => ?_
            refine .bind (number (by decide)) fun port _ => ?_
            refine .lift (Machine.add_eq (fits.lt (by omega))) ?_
            exact .map (runs_nameWithin fits _ _) fun _ => rfl
        · split
          · exact .map (runs_texts (fits.lt (by omega))) fun _ => rfl
          · exact .pure _

end Data

section Messages

def record (p : Packet) (offset : Nat) : Scan Record.Reading := do
  let (name, next) ← decode words p offset
  let rtype ← u16 words p next
  let classAt ← add words next 2
  let rawClass ← u16 words p classAt
  let ttlAt ← add words next 4
  let ttl ← u32 words p ttlAt
  let lengthAt ← add words next 8
  let length ← u16 words p lengthAt
  let start ← add words next 10
  let stop ← add words start length.toNat
  match within? p start stop with
  | none => throw (.packetTooShort stop p.size)
  | some bytes =>
    let outcome ← (data words p rtype start stop).attempt
    let (content, fault) :=
      match outcome with
      | .ok content => (content, none)
      | .error e => (.other bytes.toList, some e)
    return ⟨⟨name, rtype, RecordClass.withoutTopBit rawClass, RecordClass.hasTopBit rawClass, ttl,
      content⟩, stop, fault⟩

def records (p : Packet) : Nat → Nat → Scan (List Record × Nat)
  | 0, offset => return ([], offset)
  | count + 1, offset => do
    let first ← record words p offset
    let (rest, stop) ← records p count first.next
    return (first.record :: rest, stop)

def message (p : Packet) : Scan Message := do
  let head ← header words p
  let asked ← questions words p head.questions.toNat Header.size
  let found ← records words p head.records asked.2
  return .ofParts head asked.1 found.1

variable {words : Nat} {p : Packet}

theorem runs_record (fits : p.Addressable words) (offset : Nat) :
    Runs (record words p offset) (Record.read p offset) := by
  refine .bind (runs_decode fits offset) ?_
  rintro ⟨name, next⟩ named
  have inside := (Name.bounds_of_decode named).2
  refine .bind (runs_u16 (fits.lt (by omega))) fun rtype _ => ?_
  refine .lift (Machine.add_eq (fits.lt (by omega))) ?_
  refine .bind (runs_u16 (fits.lt (by omega))) fun rawClass _ => ?_
  refine .lift (Machine.add_eq (fits.lt (by omega))) ?_
  refine .bind (runs_u32 (fits.lt (by omega))) fun ttl _ => ?_
  refine .lift (Machine.add_eq (fits.lt (by omega))) ?_
  refine .bind (runs_u16 (fits.lt (by omega))) fun length _ => ?_
  have word : length.toNat < 65536 := length.toNat_lt
  refine .lift (Machine.add_eq (fits.lt (by omega))) ?_
  refine .lift (Machine.add_eq (fits.lt (by omega))) ?_
  dsimp only
  rw [within?_eq_slice?]
  cases found : p.slice? (next + 10) length.toNat with
  | none => exact .throw _
  | some bytes => exact .attempt (runs_data fits rtype found) (.pure _)

theorem runs_records (fits : p.Addressable words) (count offset : Nat) :
    Runs (records words p count offset) (Record.readAll p count offset) := by
  induction count generalizing offset with
  | zero => exact .pure _
  | succ count ih =>
    rw [Record.readAll_succ]
    exact .bind (runs_record fits offset) fun first _ => .map (ih first.next) fun _ => rfl

theorem runs_message (fits : p.Addressable words) :
    Runs (message words p) (Message.read p).value := by
  rw [Message.value_read]
  exact .bind (runs_header fits) fun head _ =>
    .bind (runs_questions fits _ Header.size) fun asked _ =>
      .map (runs_records fits head.records asked.2) fun _ => rfl

end Messages

end Scan

end MulticastDns

import MulticastDns.Proofs.Message.Data
import MulticastDns.Proofs.Response.Services

namespace MulticastDns

section Parts

variable {p : Packet} {pos : Nat}

def Header.bytes (h : Header) : List UInt8 :=
  bytesOfU16 h.id ++ (bytesOfU16 h.flags ++ (bytesOfU16 h.questions ++
    (bytesOfU16 h.answers ++ (bytesOfU16 h.authority ++ bytesOfU16 h.additional))))

theorem Header.read_of_holds {header : Header} (h : p.Holds 0 header.bytes) :
    Header.read p = .ok header := by
  have long : Header.size ≤ p.size := h.size_le
  obtain ⟨id, h⟩ := h.u16_append
  obtain ⟨flags, h⟩ := h.u16_append
  obtain ⟨questions, h⟩ := h.u16_append
  obtain ⟨answers, h⟩ := h.u16_append
  obtain ⟨authority, additional⟩ := h.u16_append
  rw [Header.read, if_neg (Nat.not_lt.2 long)]
  simp only [bind, Except.bind, pure, Except.pure, id, flags, questions, answers, authority,
    additional.u16_eq]

theorem Question.read_of_holds {q : Question} (h : Name.Encodable q.name)
    (k : p.Holds pos (Response.questionBytes q)) :
    Question.read p pos =
      .ok (⟨Name.canonical q.name, q.qtype, q.qclass⟩, pos + (Name.bytes q.name).length + 4) := by
  obtain ⟨name, numbers⟩ := Packet.holds_append.1 k
  obtain ⟨qtype, qclass⟩ := numbers.u16_append
  rw [Question.read, Name.decode_of_encode (Name.encode_of_encodable h) name]
  simp only [bind, Except.bind, pure, Except.pure, qtype, qclass.u16_eq]

namespace RData

theorem read_srv {s : Service} (h : Name.Encodable s.target)
    (k : p.Holds pos (Response.srvBytes s)) :
    read p RecordType.srv pos (Response.srvBytes s).toArray =
      .ok (.srv s.priority s.weight s.port (Name.canonical s.target)) := by
  obtain ⟨priority, rest⟩ := (Packet.holds_toArray (Response.srvBytes s)).u16_append
  obtain ⟨weight, rest⟩ := rest.u16_append
  obtain ⟨port, -⟩ := rest.u16_append
  have encoded := Name.encode_of_encodable h
  have positive := (Name.length_of_encode encoded).1
  have target : p.Holds (pos + 6) (Name.bytes s.target) :=
    k.u16_append.2.u16_append.2.u16_append.2
  have size : (Response.srvBytes s).toArray.size = 6 + (Name.bytes s.target).length :=
    Response.length_srvBytes s
  exact read_of_means (.srv (by omega) priority weight port (Name.decode_of_encode encoded target)
    (by omega))

theorem stringBytes_utf8 (entries : List String) :
    stringBytes (entries.map Text.utf8) = entries.flatMap Name.labelBytes := by
  simp only [stringBytes, List.flatMap_map, Text.length_utf8]
  rfl

theorem texts_utf8 (entries : List String) :
    ((entries.map Text.utf8).filter (!·.isEmpty)).map (fun s => Text.ofUtf8Lossy s.toArray) =
      entries.filter (· ≠ "") := by
  have nonempty (entry : String) : (!(Text.utf8 entry).isEmpty) = decide (entry ≠ "") := by
    rw [Bool.eq_iff_iff]
    simp [← List.length_eq_zero_iff]
  simp only [List.filter_map, List.map_map, Function.comp_def, nonempty, Text.ofUtf8Lossy_utf8,
    List.map_id']

theorem read_txt {entries : List String} (h : ∀ entry ∈ entries, entry.utf8ByteSize ≤ 0xFF)
    (p : Packet) (pos : Nat) :
    read p RecordType.txt pos (Response.txtBytes entries).toArray =
      .ok (.txt (entries.filter (· ≠ ""))) := by
  cases entries with
  | nil =>
    -- no entry is written as one empty string
    have short : ∀ s ∈ [([] : List UInt8)], s.length ≤ 255 := by decide
    exact read_of_means (.txt short rfl)
  | cons entry rest =>
    have short : ∀ s ∈ (entry :: rest).map Text.utf8, s.length ≤ 255 :=
      List.forall_mem_map.2 fun entry he => Text.length_utf8 entry ▸ h entry he
    rw [← texts_utf8]
    exact read_of_means (.txt short (stringBytes_utf8 _).symm)

end RData

theorem Record.read_of_holds {name : String} {next : Nat} {rtype rclass : UInt16} {ttl : UInt32}
    {data : List UInt8} {rdata : RData} (owner : Name.decode p pos = .ok (name, next))
    (k : p.Holds next (Response.recordTail rtype rclass ttl data)) (short : data.length ≤ 0xFFFF)
    (hdata : RData.read p rtype (next + 10) data.toArray = .ok rdata) :
    Record.read p pos = .ok ⟨⟨name, rtype, RecordClass.withoutTopBit rclass,
      RecordClass.hasTopBit rclass, ttl, rdata⟩, next + 10 + data.length, none⟩ := by
  have length : (UInt16.ofNat data.length).toNat = data.length :=
    UInt16.toNat_ofNat_of_lt' (Nat.lt_of_le_of_lt short (by decide))
  obtain ⟨htype, k⟩ := k.u16_append
  obtain ⟨hclass, k⟩ := k.u16_append
  obtain ⟨httl, k⟩ := k.u32_append
  obtain ⟨hlength, bytes⟩ := k.u16_append
  rw [Record.read, owner]
  simp only [bind, Except.bind, pure, Except.pure, htype, hclass, httl, hlength, length,
    bytes.slice?_eq, hdata]

/-- Records one behind the other, all of which can be read. -/
inductive Record.Sequence (p : Packet) : Nat → List Record → Nat → Prop
  | nil {pos : Nat} : Sequence p pos [] pos
  | cons {pos next stop : Nat} {record : Record} {records : List Record} :
      Record.read p pos = .ok ⟨record, next, none⟩ → Sequence p next records stop →
        Sequence p pos (record :: records) stop

namespace Record.Sequence

theorem append {next stop : Nat} {before after : List Record}
    (h : Sequence p pos before next) (k : Sequence p next after stop) :
    Sequence p pos (before ++ after) stop := by
  induction h with
  | nil => exact k
  | cons read _ ih => exact .cons read (ih k)

theorem readMany_eq {stop : Nat} {records : List Record} (h : Sequence p pos records stop) :
    ∃ readings, Record.readMany p records.length pos = (readings, .ok stop) ∧
      readings.map (·.record) = records := by
  induction h with
  | nil => exact ⟨[], rfl, rfl⟩
  | @cons _ next _ record _ head _ ih =>
    obtain ⟨readings, many, rfl⟩ := ih
    refine ⟨⟨record, next, none⟩ :: readings, ?_, rfl⟩
    rw [List.length_cons, Record.readMany, head]
    simp only [many]

end Record.Sequence

theorem Message.read_of_sequence {header : Header} {questions : List Question} {offset stop : Nat}
    {records : List Record} (h : Header.read p = .ok header)
    (hq : Question.readMany p header.questions.toNat Header.size = .ok (questions, offset))
    (k : Record.Sequence p offset records stop) (count : records.length = header.records) :
    (read p).value = .ok (ofParts header questions records) := by
  obtain ⟨readings, many, hrecords⟩ := k.readMany_eq
  rw [count] at many
  simp only [read, h, hq, many, Logged.value_bind, Logged.value_pure, Except.map, hrecords]

end Parts

@[simp] theorem RecordClass.withoutTopBit_internetWith (top : Bool) :
    withoutTopBit (internetWith top) = internet := by
  cases top <;> rfl

@[simp] theorem RecordClass.hasTopBit_internetWith (top : Bool) :
    hasTopBit (internetWith top) = top := by
  cases top <;> rfl

def Service.records (cacheFlush : Bool) (s : Service) : List Record :=
  [⟨Name.canonical s.key, RecordType.srv, RecordClass.internet, cacheFlush, s.effectiveTtl,
      .srv s.priority s.weight s.port (Name.canonical s.target)⟩,
    ⟨Name.canonical s.key, RecordType.txt, RecordClass.internet, cacheFlush, s.effectiveTtl,
      .txt (s.txt.filter (· ≠ ""))⟩]

namespace Response

def message (q : Question) (answers : List Record) : Message :=
  ⟨⟨0, flags, 1, .ofNat answers.length, 0, 0⟩, [⟨Name.canonical q.name, q.qtype, q.qclass⟩],
    answers, [], []⟩

section Reading

variable {p : Packet} {pos : Nat} {q : Question}

theorem header_of_holds {answers : UInt16} (h : p.Holds 0 (headerBytes answers)) :
    Header.read p = .ok ⟨0, flags, 1, answers, 0, 0⟩ := by
  simp only [headerBytes, List.append_assoc] at h
  exact Header.read_of_holds h

theorem message_of_holds {records : List Record} {stop : Nat} (h : Name.Encodable q.name)
    (k : p.Holds 0 (frameBytes q (.ofNat records.length)))
    (sequence : Record.Sequence p (frameLength q) records stop) (few : records.length ≤ 0xFFFF) :
    (Message.read p).value = .ok (message q records) := by
  obtain ⟨header, question⟩ := Packet.holds_append.1 k
  have count : (UInt16.ofNat records.length).toNat = records.length :=
    UInt16.toNat_ofNat_of_lt' (Nat.lt_of_le_of_lt few (by decide))
  have behind : (0 : Nat) + (headerBytes (.ofNat records.length)).length = 12 := rfl
  rw [behind] at question
  have length : 12 + (Name.bytes q.name).length + 4 = frameLength q := by
    unfold frameLength
    omega
  have questions : Question.readMany p 1 12 =
      .ok ([⟨Name.canonical q.name, q.qtype, q.qclass⟩], frameLength q) := by
    rw [Question.readMany, Question.read_of_holds h question, length]
    rfl
  rw [Message.read_of_sequence (header_of_holds header) questions sequence
    (by simp [Header.records, count])]
  simp [Message.ofParts, message, count]

theorem read_owned {owner : String} {rtype : UInt16} {cacheFlush : Bool} {ttl : UInt32}
    {data : List UInt8} {rdata : RData} (h : Name.Encodable owner)
    (k : p.Holds pos (Name.bytes owner ++
      recordTail rtype (RecordClass.internetWith cacheFlush) ttl data))
    (short : data.length ≤ 0xFFFF)
    (hdata : ∀ start, p.Holds start data → RData.read p rtype start data.toArray = .ok rdata) :
    Record.read p pos = .ok ⟨⟨Name.canonical owner, rtype, RecordClass.internet, cacheFlush, ttl,
      rdata⟩, pos + (Name.bytes owner).length + 10 + data.length, none⟩ := by
  obtain ⟨name, tail⟩ := Packet.holds_append.1 k
  have bytes := tail.u16_append.2.u16_append.2.u32_append.2.u16_append.2
  rw [Record.read_of_holds (Name.decode_of_encode (Name.encode_of_encodable h) name) tail short
    (hdata _ bytes), RecordClass.withoutTopBit_internetWith, RecordClass.hasTopBit_internetWith]

theorem sequence_service {s : Service} (h : s.Encodable) {cacheFlush : Bool}
    (k : p.Holds pos (serviceBytes (RecordClass.internetWith cacheFlush) s)) :
    Record.Sequence p pos (s.records cacheFlush) (pos + pairLength s) := by
  have target := (Name.length_of_encode (Name.encode_of_encodable h.target)).2
  have : Name.maxLength = 255 := rfl
  obtain ⟨srv, txt⟩ := Packet.holds_append.1 k
  -- both records bear the key, and the second starts behind the first one's data
  have stop : pos + (Name.bytes s.key).length + 10 + (srvBytes s).length +
      (Name.bytes s.key).length + 10 + (txtBytes s.txt).length = pos + pairLength s := by
    rw [length_srvBytes, length_txtBytes, pairLength]
    omega
  rw [← stop]
  refine .cons (read_owned h.key srv ?_ fun _ => RData.read_srv h.target)
    (.cons (read_owned h.key ?_ ?_ fun start _ => RData.read_txt h.entries p start) .nil)
  · rw [length_srvBytes]
    omega
  · rw [List.length_append, length_recordTail] at txt
    rwa [Nat.add_assoc, Nat.add_assoc]
  · rw [length_txtBytes]
    exact h.txt

theorem sequence_services {kept : List Service} (h : ∀ s ∈ kept, s.Encodable) {cacheFlush : Bool}
    (k : p.Holds pos (kept.flatMap (serviceBytes (RecordClass.internetWith cacheFlush)))) :
    Record.Sequence p pos (kept.flatMap (·.records cacheFlush)) (pos + pairsLength kept) := by
  induction kept generalizing pos with
  | nil => exact .nil
  | cons s rest ih =>
    rw [List.flatMap_cons, Packet.holds_append, length_serviceBytes] at k
    rw [List.flatMap_cons, pairsLength, ← Nat.add_assoc]
    exact (sequence_service (h s (by simp)) k.1).append (ih (fun t ht => h t (by simp [ht])) k.2)

theorem length_flatMap_records (cacheFlush : Bool) (kept : List Service) :
    (kept.flatMap (·.records cacheFlush)).length = 2 * kept.length := by
  induction kept with
  | nil => rfl
  | cons s rest ih =>
    rw [List.flatMap_cons, List.length_append, ih, List.length_cons, Nat.mul_succ, Nat.add_comm]
    rfl

theorem read_responseBytes {kept : List Service} (h : Name.Encodable q.name)
    (good : ∀ s ∈ kept, s.Encodable) (few : kept.length ≤ 0x7FFF) (cacheFlush : Bool) :
    (Message.read (responseBytes q (RecordClass.internetWith cacheFlush) kept).toArray).value =
      .ok (message q (kept.flatMap (·.records cacheFlush))) := by
  obtain ⟨frame, records⟩ := Packet.holds_append.1 (Packet.holds_toArray
    (responseBytes q (RecordClass.internetWith cacheFlush) kept))
  rw [Nat.zero_add, length_frameBytes] at records
  rw [← length_flatMap_records cacheFlush] at frame
  refine message_of_holds h frame (sequence_services good records) ?_
  rw [length_flatMap_records]
  omega

theorem packet_of_ofServices {services : List Service} {cacheFlush : Bool} {buffer : Array UInt8}
    {outcome : Outcome} {length : Nat} (few : services.length ≤ 0x7FFF) (nonempty : services ≠ [])
    (sent : (ofServices q services cacheFlush buffer).value.1 = .ok outcome)
    (hlength : outcome.length? = some length) :
    ∃ kept : List Service, kept.Sublist services ∧ kept ≠ [] ∧ (∀ s ∈ kept, s.Encodable) ∧
      Name.Encodable q.name ∧ length ≤ buffer.size ∧
      (ofServices q services cacheFlush buffer).value.2.size = buffer.size ∧
      outcome.answers = .ofNat (2 * kept.length) ∧
      (ofServices q services cacheFlush buffer).value.2.extract 0 length =
        (responseBytes q (RecordClass.internetWith cacheFlush) kept).toArray := by
  by_cases name : Name.Encodable q.name
  · by_cases room : frameLength q ≤ buffer.size
    · obtain ⟨outcome_eq, packet, size⟩ := ofServices_eq name cacheFlush few room
      have chosen := fill_sublist (buffer.size - frameLength q) services
      have within := pairsLength_fill_le (buffer.size - frameLength q) services
      have good (s : Service) (hs : s ∈ (fill (buffer.size - frameLength q) services).1) :=
        encodable_of_mem_fill hs
      generalize fill (buffer.size - frameLength q) services = written at *
      obtain ⟨anyKept, rfl, answers⟩ := verdict_eq_ok (outcome_eq.symm.trans sent) hlength
      rw [if_neg anyKept] at packet
      exact ⟨written.1, chosen, anyKept, good, name, by omega, size, answers,
        extract_of_packet? packet sent hlength⟩
    · rw [ofServices_of_short name nonempty cacheFlush (by omega)] at sent
      cases sent
  · obtain ⟨e, refused⟩ := ofServices_of_not_encodable name nonempty cacheFlush
    rw [refused] at sent
    cases sent

theorem read_ofServices {services : List Service} {cacheFlush : Bool} {buffer : Array UInt8}
    {outcome : Outcome} {length : Nat} (few : services.length ≤ 0x7FFF) (nonempty : services ≠ [])
    (sent : (ofServices q services cacheFlush buffer).value.1 = .ok outcome)
    (hlength : outcome.length? = some length) :
    ∃ kept : List Service, kept.Sublist services ∧ kept ≠ [] ∧ length ≤ buffer.size ∧
      (ofServices q services cacheFlush buffer).value.2.size = buffer.size ∧
      outcome.answers = .ofNat (2 * kept.length) ∧
      (Message.read ((ofServices q services cacheFlush buffer).value.2.extract 0 length)).value =
        .ok (message q (kept.flatMap (·.records cacheFlush))) := by
  obtain ⟨kept, chosen, anyKept, good, name, within, size, answers, packet⟩ :=
    packet_of_ofServices few nonempty sent hlength
  refine ⟨kept, chosen, anyKept, within, size, answers, ?_⟩
  rw [packet]
  exact read_responseBytes name good (Nat.le_trans chosen.length_le few) cacheFlush

end Reading

end Response

end MulticastDns

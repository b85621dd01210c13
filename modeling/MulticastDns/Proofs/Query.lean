import MulticastDns.Proofs.Response.Reading
import MulticastDns.Wire.Message

namespace MulticastDns

namespace Query

variable {name : String} {qtype : UInt16} {unicast : Bool} {packet : List UInt8}

theorem encode_of_encodable (h : Name.Encodable name) (qtype : UInt16) (unicast : Bool) :
    encode name qtype unicast = .ok (header ++
      Response.questionBytes ⟨name, qtype, RecordClass.internetWith unicast⟩) := by
  simp only [encode, Name.encode_of_encodable h, Response.questionBytes, List.append_assoc]

theorem encode_eq_ok (h : encode name qtype unicast = .ok packet) :
    Name.Encodable name ∧ packet = header ++
      Response.questionBytes ⟨name, qtype, RecordClass.internetWith unicast⟩ := by
  have encodable : Name.Encodable name := by
    unfold encode at h
    split at h
    · cases h
    · exact ⟨_, ‹_›⟩
  exact ⟨encodable, Except.ok.inj (h.symm.trans (encode_of_encodable encodable qtype unicast))⟩

theorem holds_of_encode (h : encode name qtype unicast = .ok packet) :
    Packet.Holds packet.toArray 0 (Header.bytes ⟨0, 0, 1, 0, 0, 0⟩) ∧
      Packet.Holds packet.toArray Header.size
        (Response.questionBytes ⟨name, qtype, RecordClass.internetWith unicast⟩) := by
  obtain ⟨-, rfl⟩ := encode_eq_ok h
  exact Packet.holds_append.1 (Packet.holds_toArray _)

theorem header_of_encode (h : encode name qtype unicast = .ok packet) :
    Header.read packet.toArray = .ok ⟨0, 0, 1, 0, 0, 0⟩ :=
  Header.read_of_holds (holds_of_encode h).1

theorem question_of_encode (h : encode name qtype unicast = .ok packet) : ∃ stop,
    Question.read packet.toArray Header.size =
      .ok (⟨Name.canonical name, qtype, RecordClass.internetWith unicast⟩, stop) :=
  ⟨_, Question.read_of_holds (q := ⟨name, qtype, RecordClass.internetWith unicast⟩)
    (encode_eq_ok h).1 (holds_of_encode h).2⟩

theorem first?_of_encode (h : encode name qtype unicast = .ok packet) :
    Question.first? packet.toArray =
      .ok (some ⟨Name.canonical name, qtype, RecordClass.internetWith unicast⟩) := by
  obtain ⟨_, question⟩ := question_of_encode h
  rw [Question.first?_of_header (header_of_encode h), question]
  rfl

end Query

namespace Question

variable {p : Packet} {header : Header} {e : WireError}

theorem first?_of_readMany {questions : List Question} {stop : Nat}
    (h : Header.read p = .ok header)
    (k : readMany p header.questions.toNat Header.size = .ok (questions, stop)) :
    first? p = .ok questions.head? := by
  rw [first?_of_header h]
  cases count : header.questions.toNat with
  | zero =>
    rw [count] at k
    cases k
    exact if_pos (UInt16.toNat_inj.1 count)
  | succ more =>
    have some : header.questions ≠ 0 := by
      rintro none
      rw [none] at count
      cases count
    rw [count, readMany_succ] at k
    obtain ⟨first, found, k⟩ := exists_ok_of_bind k
    obtain ⟨rest, -, k⟩ := exists_ok_of_map k
    cases k
    rw [if_neg some, found]
    rfl

theorem readMany_of_first?_error (h : Header.read p = .ok header) (k : first? p = .error e) :
    readMany p header.questions.toNat Header.size = .error e := by
  rw [first?_of_header h] at k
  cases count : header.questions.toNat with
  | zero =>
    rw [if_pos (UInt16.toNat_inj.1 count)] at k
    cases k
  | succ more =>
    split at k
    · cases k
    · cases found : read p Header.size with
      | error stopped =>
        rw [found] at k
        cases k
        rw [readMany_succ, found]
        rfl
      | ok first =>
        rw [found] at k
        cases k

end Question

namespace Query

variable {name : String} {qtype : UInt16} {unicast : Bool} {packet : List UInt8}

theorem length_of_encode (h : encode name qtype unicast = .ok packet) : packet.length ≤ 271 := by
  obtain ⟨encodable, rfl⟩ := encode_eq_ok h
  have short := (Name.length_of_encode (Name.encode_of_encodable encodable)).2
  have most : Name.maxLength = 255 := rfl
  have front : header.length = 12 := rfl
  simp only [Response.questionBytes, List.length_append, length_bytesOfU16, front]
  omega

theorem message_of_encode (h : encode name qtype unicast = .ok packet) :
    (Message.read packet.toArray).value = .ok ⟨⟨0, 0, 1, 0, 0, 0⟩,
      [⟨Name.canonical name, qtype, RecordClass.internetWith unicast⟩], [], [], []⟩ := by
  obtain ⟨_, question⟩ := question_of_encode h
  have questions := Question.readMany_succ packet.toArray 0 Header.size
  rw [question] at questions
  exact Message.read_of_sequence (header_of_encode h) questions .nil rfl

end Query

/-- Where a message can be read, its first question is what a responder finds, and nothing if it has
none; where a responder finds the packet broken, so does a reader of messages, for the same reason.
A query is short, and both read of it the one question it was written for: the name without a dot
behind it, the type, and the Internet class, with its top bit set exactly if the answer is to come
to the asker alone. -/
theorem Question.readers_agree (p : Packet) :
    (∀ m, (Message.read p).value = .ok m → first? p = .ok m.questions.head?) ∧
    (∀ e, first? p = .error e → (Message.read p).value = .error e) ∧
    ∀ name qtype unicast packet, Query.encode name qtype unicast = .ok packet →
      packet.length ≤ 271 ∧
      ∃ q : Question, q.name = (if Name.dropDot name = "" then "." else Name.dropDot name) ∧
        q.qtype = qtype ∧ q.qclass.toNat = 1 + (if unicast then 0x8000 else 0) ∧
        first? packet.toArray = .ok (some q) ∧
        ∃ m, (Message.read packet.toArray).value = .ok m ∧ m.header.isResponse = false ∧
          m.questions = [q] ∧ m.answers = [] ∧ m.authority = [] ∧ m.additional = [] := by
  refine ⟨fun m h => ?_, fun e h => ?_, fun name qtype unicast packet h => ?_⟩
  · rw [Message.value_read] at h
    obtain ⟨header, head, h⟩ := exists_ok_of_bind h
    obtain ⟨asked, questions, h⟩ := exists_ok_of_bind h
    obtain ⟨found, -, rfl⟩ := exists_ok_of_map h
    exact first?_of_readMany head questions
  · rw [Message.value_read]
    cases head : Header.read p with
    | error stopped =>
      rw [first?_of_header_error head] at h
      cases h
      rfl
    | ok header =>
      change readMany p header.questions.toNat Header.size >>= _ = _
      rw [readMany_of_first?_error head h]
      rfl
  · have bit : (RecordClass.internetWith unicast).toNat =
        1 + (if unicast then 0x8000 else 0) := by
      cases unicast <;> rfl
    exact ⟨Query.length_of_encode h, ⟨_, _, _⟩, rfl, rfl, bit, Query.first?_of_encode h, _,
      Query.message_of_encode h, rfl, rfl, rfl, rfl, rfl⟩

def deskQuery : Packet := #[0, 0, 0, 0, 0, 1, 0, 0, 0, 0, 0, 0,
  4, 100, 101, 115, 107, 5, 108, 111, 99, 97, 108, 0, 0, 1, 0x80, 1]

theorem Question.readers_agree_on_deskQuery :
    Query.encode "desk.local." RecordType.a true = .ok deskQuery.toList ∧ deskQuery.size ≤ 271 ∧
      (∃ q m, first? deskQuery = .ok (some q) ∧ q.name = "desk.local" ∧ q.qtype = RecordType.a ∧
        q.qclass.toNat = 0x8001 ∧ (Message.read deskQuery).value = .ok m ∧ m.questions = [q]) ∧
      first? deskQuery.pop = .error (.packetTooShort 28 27) ∧
      (Message.read deskQuery.pop).value = .error (.packetTooShort 28 27) := by
  have written : Query.encode "desk.local." RecordType.a true = .ok deskQuery.toList := by
    decide +kernel
  have name : Name.dropDot "desk.local." = "desk.local" := by decide +kernel
  have cut : first? deskQuery.pop = .error (.packetTooShort 28 27) := by decide +kernel
  obtain ⟨short, q, named, typed, classed, first, m, whole, -, questions, -, -, -⟩ :=
    (readers_agree deskQuery).2.2 _ _ _ _ written
  rw [name, if_neg (by decide)] at named
  exact ⟨written, short, ⟨q, m, first, named, typed, classed, whole, questions⟩, cut,
    (readers_agree deskQuery.pop).2.1 _ cut⟩

end MulticastDns

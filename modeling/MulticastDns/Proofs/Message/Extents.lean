import MulticastDns.Proofs.Message.Framing
import MulticastDns.Proofs.Name.Grammar

namespace MulticastDns

structure Extent where
  start : Nat
  stop : Nat

namespace Extent

/-- Extents from one position to another that leave no gap, each of at least so many bytes. -/
inductive Row (least : Nat) : Nat → List Extent → Nat → Prop
  | nil {pos : Nat} : Row least pos [] pos
  | cons {start next stop : Nat} {later : List Extent} : start + least ≤ next →
      Row least next later stop → Row least start (⟨start, next⟩ :: later) stop

namespace Row

variable {least other start middle stop : Nat} {extents later : List Extent}

theorem length_le (h : Row least start extents stop) : start + least * extents.length ≤ stop := by
  induction h with
  | nil => exact Nat.le_refl _
  | cons wide _ ih =>
    rw [List.length_cons, Nat.mul_succ]
    omega

theorem start_le (h : Row least start extents stop) : start ≤ stop :=
  Nat.le_trans (Nat.le_add_right _ _) h.length_le

theorem mem_bounds (h : Row least start extents stop) {e : Extent} (he : e ∈ extents) :
    start ≤ e.start ∧ e.stop ≤ stop := by
  induction h with
  | nil => cases he
  | cons wide rest ih =>
    rcases List.mem_cons.1 he with rfl | he
    · exact ⟨Nat.le_refl _, rest.start_le⟩
    · exact ⟨Nat.le_trans (by omega) (ih he).1, (ih he).2⟩

theorem pairwise (h : Row least start extents stop) :
    extents.Pairwise fun a b => a.stop ≤ b.start := by
  induction h with
  | nil => exact .nil
  | cons _ rest ih => exact .cons (fun _ he => (rest.mem_bounds he).1) ih

theorem pairwise_append (h : Row least start extents middle) (k : Row other middle later stop) :
    (extents ++ later).Pairwise fun a b => a.stop ≤ b.start :=
  List.pairwise_append.2 ⟨h.pairwise, k.pairwise, fun _ ha _ hb =>
    Nat.le_trans (h.mem_bounds ha).2 (k.mem_bounds hb).1⟩

end Row

end Extent

abbrev Reader (α : Type) : Type := Nat → Except WireError (α × Nat)

namespace Reader

variable {α : Type}

def upTo (read : Reader α) : Nat → Nat → List α × Except WireError Nat
  | 0, offset => ([], .ok offset)
  | count + 1, offset =>
    match read offset with
    | .error e => ([], .error e)
    | .ok (first, next) =>
      let (later, stop) := upTo read count next
      (first :: later, stop)

def Takes (read : Reader α) (least limit : Nat) : Prop :=
  ∀ ⦃offset : Nat⦄ ⦃a : α⦄ ⦃next : Nat⦄, read offset = .ok (a, next) →
    offset + least ≤ next ∧ next ≤ limit

variable {read : Reader α} {count offset : Nat}

theorem upTo_of_error {e : WireError} (h : read offset = .error e) (count : Nat) :
    read.upTo (count + 1) offset = ([], .error e) := by
  rw [upTo, h]

theorem upTo_of_ok {first : α} {next : Nat} (h : read offset = .ok (first, next)) (count : Nat) :
    read.upTo (count + 1) offset =
      (first :: (read.upTo count next).1, (read.upTo count next).2) := by
  rw [upTo, h]

theorem length_upTo {stop : Nat} (h : (read.upTo count offset).2 = .ok stop) :
    (read.upTo count offset).1.length = count := by
  induction count generalizing offset with
  | zero => rfl
  | succ count ih =>
    cases found : read offset with
    | error e =>
      rw [upTo_of_error found] at h
      cases h
    | ok first =>
      rw [upTo_of_ok found] at h ⊢
      exact congrArg (· + 1) (ih h)

theorem exists_row {least limit : Nat} (takes : read.Takes least limit) (count : Nat)
    (inside : offset ≤ limit) : ∃ extents stop, Extent.Row least offset extents stop ∧
      stop ≤ limit ∧ (∀ behind, (read.upTo count offset).2 = .ok behind → behind = stop) ∧
      List.Forall₂ (fun a e => read e.start = .ok (a, e.stop))
        (read.upTo count offset).1 extents := by
  induction count generalizing offset with
  | zero => exact ⟨[], offset, .nil, inside, fun _ h => (Except.ok.inj h).symm, .nil⟩
  | succ count ih =>
    cases found : read offset with
    | error e =>
      rw [upTo_of_error found]
      exact ⟨[], offset, .nil, inside, nofun, .nil⟩
    | ok first =>
      obtain ⟨wide, within⟩ := takes found
      obtain ⟨extents, stop, row, ends, behind, reads⟩ := ih within
      rw [upTo_of_ok found]
      exact ⟨⟨offset, first.2⟩ :: extents, stop, .cons wide row, ends, behind, .cons found reads⟩

end Reader

namespace Question

def Lies (p : Packet) (q : Question) (e : Extent) : Prop := read p e.start = .ok (q, e.stop)

theorem takes_read (p : Packet) : Reader.Takes (read p) 5 p.size := by
  intro offset q stop h
  obtain ⟨⟨name, next⟩, named, h⟩ := exists_ok_of_bind h
  obtain ⟨qtype, -, h⟩ := exists_ok_of_bind h
  obtain ⟨qclass, last, h⟩ := exists_ok_of_bind h
  cases h
  have inside := Packet.le_of_u16 last
  have later := (Name.bounds_of_decode named).1
  omega

theorem readMany_eq_upTo (p : Packet) (count offset : Nat) :
    readMany p count offset =
      (Reader.upTo (read p) count offset).2.map fun stop =>
        ((Reader.upTo (read p) count offset).1, stop) := by
  induction count generalizing offset with
  | zero => rfl
  | succ count ih =>
    rw [readMany_succ]
    cases found : read p offset with
    | error e =>
      rw [Reader.upTo_of_error found]
      rfl
    | ok first =>
      rw [Reader.upTo_of_ok found]
      change Except.map _ (readMany p count first.2) = _
      rw [ih]
      cases (Reader.upTo (read p) count first.2).2 <;> rfl

end Question

namespace Frame

theorem read_eq_ok {p : Packet} {offset : Nat} {f : Frame} (h : read p offset = .ok f) :
    ∃ next, Name.decode p offset = .ok (f.owner, next) ∧ f.start = next + 10 ∧
      f.stop ≤ p.size := by
  obtain ⟨⟨owner, next⟩, owned, h⟩ := exists_ok_of_bind h
  obtain ⟨rtype, -, h⟩ := exists_ok_of_bind h
  obtain ⟨rclass, -, h⟩ := exists_ok_of_bind h
  obtain ⟨ttl, -, h⟩ := exists_ok_of_bind h
  obtain ⟨length, -, h⟩ := exists_ok_of_bind h
  split at h
  · cases h
  · rename_i bytes cut
    cases h
    have inside := (Packet.slice?_eq_some_iff.1 cut).1
    rw [← Packet.size_of_slice? cut] at inside
    exact ⟨next, owned, rfl, inside⟩

theorem bounds_of_read {p : Packet} {offset : Nat} {f : Frame} (h : read p offset = .ok f) :
    offset + 11 ≤ f.stop ∧ f.stop ≤ p.size := by
  obtain ⟨next, owned, start, inside⟩ := read_eq_ok h
  have later := (Name.bounds_of_decode owned).1
  rw [stop] at inside ⊢
  omega

end Frame

namespace Record

def Lies (p : Packet) (r : Record) (e : Extent) : Prop :=
  ∃ fault, read p e.start = .ok ⟨r, e.stop, fault⟩

theorem exists_frame_of_lies {p : Packet} {r : Record} {e : Extent} (h : r.Lies p e) :
    ∃ f, Frame.read p e.start = .ok f ∧ f.Becomes p r := by
  obtain ⟨fault, found⟩ := h
  rw [read_eq_map] at found
  obtain ⟨f, framed, same⟩ := exists_ok_of_map found
  exact ⟨f, framed, Frame.becomes_iff.2 (congrArg Reading.record same)⟩

theorem exists_walk_of_lies {p : Packet} {r : Record} {e : Extent} (h : r.Lies p e) :
    ∃ visits stop, Name.Walk p e.start visits stop ∧
      r.name = Name.ofLabels (Name.spelled visits) := by
  obtain ⟨f, framed, becomes⟩ := exists_frame_of_lies h
  obtain ⟨next, owned, -, -⟩ := Frame.read_eq_ok framed
  obtain ⟨visits, stop, walk, -, owner, -⟩ := Name.exists_walk_of_decode owned
  exact ⟨visits, stop, walk, becomes.name.trans owner⟩

def reader (p : Packet) : Reader Reading := fun offset =>
  (read p offset).map fun reading => (reading, reading.next)

theorem takes_reader (p : Packet) : (reader p).Takes 11 p.size := by
  intro offset reading next h
  obtain ⟨_, found, rest⟩ := exists_ok_of_map h
  cases rest
  rw [read_eq_map] at found
  obtain ⟨f, framed, rfl⟩ := exists_ok_of_map found
  exact Frame.bounds_of_read framed

theorem readMany_eq_upTo (p : Packet) (count offset : Nat) :
    readMany p count offset = (reader p).upTo count offset := by
  induction count generalizing offset with
  | zero => rfl
  | succ count ih =>
    rw [readMany, Reader.upTo, reader]
    cases read p offset with
    | error e => rfl
    | ok reading => exact congrArg (fun rest => (reading :: rest.1, rest.2)) (ih reading.next)

theorem lies_of_reader {p : Packet} {reading : Reading} {e : Extent}
    (h : reader p e.start = .ok (reading, e.stop)) : Lies p reading.record e := by
  obtain ⟨found, first, rest⟩ := exists_ok_of_map h
  obtain ⟨rfl, stop⟩ := Prod.mk.inj rest
  exact ⟨found.fault, by rw [first, ← stop]⟩

end Record

namespace Message

/-- What was read of a message before its reader returned, and what it returned. -/
structure Trace where
  questions : List Question
  readings : List Record.Reading
  outcome : Except WireError Message

def trace (p : Packet) : Trace :=
  match Header.read p with
  | .error e => ⟨[], [], .error e⟩
  | .ok header =>
    match Reader.upTo (Question.read p) header.questions.toNat Header.size with
    | (questions, .error e) => ⟨questions, [], .error e⟩
    | (questions, .ok offset) =>
      let (readings, stop) := (Record.reader p).upTo header.records offset
      ⟨questions, readings, stop.map fun _ => ofParts header questions (readings.map (·.record))⟩

section Tracing

variable {p : Packet} {header : Header} {m : Message}

theorem trace_of_error {e : WireError} (h : Header.read p = .error e) :
    trace p = ⟨[], [], .error e⟩ := by
  rw [trace, h]

theorem trace_of_header (h : Header.read p = .ok header) : trace p =
    match Reader.upTo (Question.read p) header.questions.toNat Header.size with
    | (questions, .error e) => ⟨questions, [], .error e⟩
    | (questions, .ok offset) =>
      let (readings, stop) := (Record.reader p).upTo header.records offset
      ⟨questions, readings,
        stop.map fun _ => ofParts header questions (readings.map (·.record))⟩ := by
  rw [trace, h]

theorem outcome_trace (p : Packet) : (trace p).outcome = (read p).value := by
  rw [value_read]
  cases h : Header.read p with
  | error e =>
    rw [trace_of_error h]
    rfl
  | ok header =>
    rw [trace_of_header h]
    change _ = Question.readMany p header.questions.toNat Header.size >>= _
    rw [Question.readMany_eq_upTo]
    cases Reader.upTo (Question.read p) header.questions.toNat Header.size with
    | mk questions asked =>
      cases asked with
      | error e => rfl
      | ok offset =>
        change Except.map _ _ = Except.map _ (Record.readAll p header.records offset)
        rw [Record.readAll, Record.readMany_eq_upTo]
        cases ((Record.reader p).upTo header.records offset).2 <;> rfl

theorem size_le_of_header (h : Header.read p = .ok header) : Header.size ≤ p.size := by
  rw [Header.read] at h
  split at h
  · cases h
  · omega

theorem exists_rows (h : Header.read p = .ok header) : ∃ asked found middle stop,
    Extent.Row 5 Header.size asked middle ∧ Extent.Row 11 middle found stop ∧ stop ≤ p.size ∧
      List.Forall₂ (Question.Lies p) (trace p).questions asked ∧
      List.Forall₂ (Record.Lies p) ((trace p).readings.map (·.record)) found := by
  obtain ⟨asked, middle, row, inside, ends, questions⟩ :=
    Reader.exists_row (Question.takes_read p) header.questions.toNat (size_le_of_header h)
  rw [trace_of_header h]
  cases walked : Reader.upTo (Question.read p) header.questions.toNat Header.size with
  | mk read outcome =>
    rw [walked] at ends questions
    cases outcome with
    | error e => exact ⟨asked, [], middle, middle, row, .nil, inside, questions, .nil⟩
    | ok offset =>
      cases ends offset rfl
      obtain ⟨found, stop, records, within, -, readings⟩ :=
        Reader.exists_row (Record.takes_reader p) header.records inside
      exact ⟨asked, found, middle, stop, row, records, within, questions,
        List.forall₂_map_left_iff.2 (readings.imp fun _ _ => Record.lies_of_reader)⟩

theorem length_trace_le (h : Header.read p = .ok header) :
    Header.size + 5 * (trace p).questions.length + 11 * (trace p).readings.length ≤ p.size := by
  obtain ⟨asked, found, middle, stop, first, second, inside, questions, records⟩ := exists_rows h
  have many := records.length_eq
  rw [List.length_map] at many
  have front := first.length_le
  have back := second.length_le
  rw [questions.length_eq, many]
  omega

theorem records_ofParts (header : Header) (questions : List Question) (records : List Record) :
    (ofParts header questions records).records = records := by
  simp [ofParts, Message.records, ← List.drop_drop]

structure Counted (m : Message) : Prop where
  questions : m.questions.length = m.header.questions.toNat
  answers : m.answers.length = m.header.answers.toNat
  authority : m.authority.length = m.header.authority.toNat
  additional : m.additional.length = m.header.additional.toNat

theorem counted_ofParts {questions : List Question} {records : List Record}
    (hq : questions.length = header.questions.toNat) (hr : records.length = header.records) :
    (ofParts header questions records).Counted := by
  have sum : header.records =
    header.answers.toNat + header.authority.toNat + header.additional.toNat := rfl
  constructor <;> simp only [ofParts, List.length_take, List.length_drop] <;> omega

theorem trace_of_read (h : (read p).value = .ok m) : Header.read p = .ok m.header ∧ m.Counted ∧
    (trace p).questions = m.questions ∧ (trace p).readings.map (·.record) = m.records := by
  rw [← outcome_trace] at h
  cases head : Header.read p with
  | error e =>
    rw [trace_of_error head] at h
    cases h
  | ok header =>
    rw [trace_of_header head] at h ⊢
    cases asked : Reader.upTo (Question.read p) header.questions.toNat Header.size with
    | mk questions outcome =>
      rw [asked] at h
      cases outcome with
      | error e => cases h
      | ok offset =>
        obtain ⟨stop, whole, rfl⟩ := exists_ok_of_map h
        have many : questions.length = header.questions.toNat := by
          have := Reader.length_upTo (congrArg Prod.snd asked)
          rwa [asked] at this
        refine ⟨rfl, counted_ofParts many ?_, rfl, (records_ofParts _ _ _).symm⟩
        rw [List.length_map]
        exact Reader.length_upTo whole

theorem exists_lies_of_mem (h : (read p).value = .ok m) {r : Record} (hr : r ∈ m.records) :
    ∃ e, Record.Lies p r e := by
  obtain ⟨head, -, -, records⟩ := trace_of_read h
  obtain ⟨-, found, -, -, -, -, -, -, lie⟩ := exists_rows head
  rw [records] at lie
  have each : List.Forall₂ (fun r e => (∃ e, Record.Lies p r e) ∧ Record.Lies p r e)
      m.records found := lie.imp fun _ e lies => ⟨⟨e, lies⟩, lies⟩
  exact ((List.forall₂_and_left _ _).1 each).1 r hr

end Tracing

/-- The counts of a header are those of what is read, and no header can have more read than the
packet has room for, be it the whole message or what comes before a part that cannot be read: five
bytes for a question and eleven for a record. The parts that are read follow one another from the
header on, and no two share a byte. -/
theorem counts_hold (p : Packet) :
    (∀ m, (read p).value = .ok m →
      Header.read p = .ok m.header ∧
      m.questions.length = m.header.questions.toNat ∧
      m.answers.length = m.header.answers.toNat ∧
      m.authority.length = m.header.authority.toNat ∧
      m.additional.length = m.header.additional.toNat ∧
      (∃ asked found middle stop,
        Extent.Row 5 12 asked middle ∧ Extent.Row 11 middle found stop ∧ stop ≤ p.size ∧
        List.Forall₂ (Question.Lies p) m.questions asked ∧
        List.Forall₂ (Record.Lies p) (m.answers ++ m.authority ++ m.additional) found ∧
        (asked ++ found).Pairwise fun a b => a.stop ≤ b.start) ∧
      12 + 5 * m.header.questions.toNat +
        11 * (m.header.answers.toNat + m.header.authority.toNat + m.header.additional.toNat) ≤
          p.size) ∧
    (trace p).outcome = (read p).value ∧
    (∀ m, (read p).value = .ok m →
      (trace p).questions = m.questions ∧
      (trace p).readings.map (·.record) = m.answers ++ m.authority ++ m.additional) ∧
    (trace p).questions.length ≤ (p.size - 12) / 5 ∧
    (trace p).readings.length ≤ (p.size - 12) / 11 := by
  refine ⟨fun m h => ?_, outcome_trace p, fun m h => (trace_of_read h).2.2, ?_⟩
  · obtain ⟨header, counted, questions, records⟩ := trace_of_read h
    obtain ⟨asked, found, middle, stop, first, second, inside, asks, finds⟩ := exists_rows header
    rw [questions] at asks
    rw [records] at finds
    have front := first.length_le
    have back := second.length_le
    have many := finds.length_eq
    simp only [Message.records, List.length_append, counted.answers, counted.authority,
      counted.additional] at many
    rw [← asks.length_eq, counted.questions] at front
    rw [← many] at back
    exact ⟨header, counted.questions, counted.answers, counted.authority, counted.additional,
      ⟨asked, found, middle, stop, first, second, inside, asks, finds,
        first.pairwise_append second⟩, Nat.le_trans (by rw [Header.size] at front; omega) inside⟩
  · cases head : Header.read p with
    | error e =>
      rw [trace_of_error head]
      exact ⟨Nat.zero_le _, Nat.zero_le _⟩
    | ok header =>
      have room := length_trace_le head
      rw [Header.size] at room
      omega

def pointedAnswer : Packet := #[0, 0, 0x84, 0, 0, 1, 0, 1, 0, 0, 0, 0,
  1, 97, 0, 0, 1, 0, 1, 0xC0, 12, 0, 1, 0, 1, 0, 0, 0, 9, 0, 4, 10, 0, 0, 7]

theorem pointedAnswer_counts_hold : ∃ m, (read pointedAnswer).value = .ok m ∧
    m.questions.length = 1 ∧ m.answers.length = 1 ∧
    (∃ asked found middle stop,
      Extent.Row 5 12 asked middle ∧ Extent.Row 11 middle found stop ∧ stop ≤ 35 ∧
      List.Forall₂ (Question.Lies pointedAnswer) m.questions asked ∧
      List.Forall₂ (Record.Lies pointedAnswer) (m.answers ++ m.authority ++ m.additional) found ∧
      (asked ++ found).Pairwise fun a b => a.stop ≤ b.start) := by
  have whole : (read pointedAnswer).value = .ok ⟨⟨0, 0x8400, 1, 1, 0, 0⟩,
      [⟨"a", RecordType.a, RecordClass.internet⟩],
      [⟨"a", RecordType.a, RecordClass.internet, false, 9, .a ⟨#v[10, 0, 0, 7]⟩⟩], [], []⟩ := by
    decide +kernel
  obtain ⟨-, asked, answered, -, -, rows, -⟩ := (counts_hold pointedAnswer).1 _ whole
  exact ⟨_, whole, asked, answered, rows⟩

example : (trace #[0, 0, 0, 0, 0xFF, 0xFF, 0, 0, 0, 0, 0, 0, 0, 0, 1, 0, 1]).questions =
    [⟨".", RecordType.a, RecordClass.internet⟩] := by
  decide +kernel

end Message

end MulticastDns

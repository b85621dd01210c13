import Mathlib.Data.List.Forall2
import MulticastDns.Proofs.Message.Data

/-! The frames that the length fields of records cut a message into, with no look at any data. A
message can be read exactly if its frames can, and whatever the data of a record is, it has no say
in where the next one starts. -/

namespace MulticastDns

/-- A record whose data is only cut out: so many bytes from `start` on. -/
structure Frame where
  owner : String
  rtype : UInt16
  rclass : UInt16
  ttl : UInt32
  start : Nat
  bytes : Array UInt8

namespace Frame

def stop (f : Frame) : Nat := f.start + f.bytes.size

def read (p : Packet) (offset : Nat) : Except WireError Frame := do
  let (owner, next) ← Name.decode p offset
  let rtype ← p.u16 next
  let rclass ← p.u16 (next + 2)
  let ttl ← p.u32 (next + 4)
  let length ← p.u16 (next + 8)
  match p.slice? (next + 10) length.toNat with
  | none => throw (.packetTooShort (next + 10 + length.toNat) p.size)
  | some bytes => return ⟨owner, rtype, rclass, ttl, next + 10, bytes⟩

def readMany (p : Packet) : Nat → Nat → Except WireError (List Frame × Nat)
  | 0, offset => return ([], offset)
  | count + 1, offset => do
    let first ← read p offset
    let (rest, stop) ← readMany p count first.stop
    return (first :: rest, stop)

theorem readMany_succ (p : Packet) (count offset : Nat) :
    readMany p (count + 1) offset = read p offset >>= fun first =>
      (readMany p count first.stop).map fun rest => (first :: rest.1, rest.2) := rfl

theorem readMany_add (p : Packet) (m n offset : Nat) : readMany p (m + n) offset = do
    let (before, middle) ← readMany p m offset
    let (later, stop) ← readMany p n middle
    return (before ++ later, stop) := by
  induction m generalizing offset with
  | zero =>
    rw [Nat.zero_add]
    exact (bind_pure _).symm
  | succ m ih => simp only [Nat.succ_add, readMany, ih, bind_assoc, pure_bind, List.cons_append]

theorem length_of_readMany {p : Packet} {count offset stop : Nat} {frames : List Frame}
    (h : readMany p count offset = .ok (frames, stop)) : frames.length = count := by
  induction count generalizing offset frames with
  | zero =>
    cases h
    rfl
  | succ count ih =>
    obtain ⟨first, -, h⟩ := exists_ok_of_bind h
    obtain ⟨rest, found, h⟩ := exists_ok_of_map h
    cases h
    exact congrArg (· + 1) (ih found)

def reading (p : Packet) (f : Frame) : Record.Reading :=
  let (data, fault) :=
    match RData.read p f.rtype f.start f.bytes with
    | .ok data => (data, none)
    | .error e => (.other f.bytes.toList, some e)
  ⟨⟨f.owner, f.rtype, RecordClass.withoutTopBit f.rclass, RecordClass.hasTopBit f.rclass, f.ttl,
    data⟩, f.stop, fault⟩

def record (p : Packet) (f : Frame) : Record := (f.reading p).record

end Frame

namespace Record

theorem read_eq_map (p : Packet) (offset : Nat) :
    read p offset = (Frame.read p offset).map (Frame.reading p) := by
  change _ = Frame.reading p <$> Frame.read p offset
  unfold read Frame.read
  simp only [map_bind]
  refine bind_congr fun owned => bind_congr fun rtype => bind_congr fun rclass =>
    bind_congr fun ttl => bind_congr fun length => ?_
  cases cut : p.slice? (owned.2 + 10) length.toNat with
  | none => rfl
  | some bytes =>
    rw [← Packet.size_of_slice? cut]
    rfl

theorem readings_eq_frames (p : Packet) (count offset : Nat) : readings p count offset =
    (Frame.readMany p count offset).map fun found => (found.1.map (Frame.reading p), found.2) := by
  induction count generalizing offset with
  | zero => rfl
  | succ count ih =>
    rw [readings_succ, read_eq_map, Frame.readMany_succ]
    cases Frame.read p offset with
    | error e => rfl
    | ok first =>
      change Except.map _ (readings p count first.stop) =
        Except.map _ (Except.map _ (Frame.readMany p count first.stop))
      rw [ih]
      cases Frame.readMany p count first.stop <;> rfl

theorem readAll_eq_frames (p : Packet) (count offset : Nat) : readAll p count offset =
    (Frame.readMany p count offset).map fun found =>
      (found.1.map (Frame.record p), found.2) := by
  rw [readAll_eq_map, readings_eq_frames]
  cases Frame.readMany p count offset with
  | error e => rfl
  | ok found => simp [Except.map, Frame.record]

end Record

structure Skeleton where
  header : Header
  questions : List Question
  answers : List Frame
  authority : List Frame
  additional : List Frame

namespace Skeleton

def read (p : Packet) : Except WireError Skeleton := do
  let header ← Header.read p
  let (questions, offset) ← Question.readMany p header.questions.toNat Header.size
  let (answers, offset) ← Frame.readMany p header.answers.toNat offset
  let (authority, offset) ← Frame.readMany p header.authority.toNat offset
  let (additional, _) ← Frame.readMany p header.additional.toNat offset
  return ⟨header, questions, answers, authority, additional⟩

def message (p : Packet) (s : Skeleton) : Message where
  header := s.header
  questions := s.questions
  answers := s.answers.map (Frame.record p)
  authority := s.authority.map (Frame.record p)
  additional := s.additional.map (Frame.record p)

end Skeleton

namespace Message

theorem ofParts_append {header : Header} {answers authority : List Record}
    (ha : answers.length = header.answers.toNat) (hb : authority.length = header.authority.toNat)
    (questions : List Question) (additional : List Record) :
    ofParts header questions (answers ++ (authority ++ additional)) =
      ⟨header, questions, answers, authority, additional⟩ := by
  simp only [ofParts, ← ha, ← hb, List.take_left, List.drop_left, ← List.drop_drop]

theorem value_read_eq_map (p : Packet) :
    (read p).value = (Skeleton.read p).map (Skeleton.message p) := by
  rw [value_read]
  change _ = Skeleton.message p <$> Skeleton.read p
  unfold Skeleton.read
  simp only [map_bind]
  refine bind_congr fun header => bind_congr fun asked => ?_
  have functor {α β : Type} (f : α → β) (m : Except WireError α) : m.map f = f <$> m := rfl
  simp only [Record.readAll_eq_frames, Header.records, Nat.add_assoc, Frame.readMany_add, functor,
    map_bind, bind_assoc, pure_bind, map_pure]
  refine bind_congr_of_ok fun answers first => bind_congr_of_ok fun authority second =>
    bind_congr fun additional => ?_
  simp only [List.map_append]
  rw [ofParts_append]
  · rfl
  · rw [List.length_map, Frame.length_of_readMany first]
  · rw [List.length_map, Frame.length_of_readMany second]

end Message

theorem RecordClass.split_iff {c rest : UInt16} {top : Bool} :
    c.toNat = (if top then 0x8000 else 0) + rest.toNat ∧ rest.toNat < 0x8000 ↔
      top = hasTopBit c ∧ rest = withoutTopBit c := by
  have word := c.toNat_lt
  have value : (withoutTopBit c).toNat = c.toNat % 0x8000 :=
    UInt16.toNat_ofNat_of_lt' (by change _ < 65536; omega)
  rw [← UInt16.toNat_inj, value, hasTopBit]
  cases top <;> simp <;> omega

/-- What becomes of a frame in the message: its fields, the class without the top bit, and the data
found in its bytes. -/
structure Frame.Becomes (p : Packet) (f : Frame) (r : Record) : Prop where
  name : r.name = f.owner
  rtype : r.rtype = f.rtype
  rclass : f.rclass.toNat = (if r.cacheFlush then 0x8000 else 0) + r.rclass.toNat
  rclass_lt : r.rclass.toNat < 0x8000
  ttl : r.ttl = f.ttl
  data : RData.Found p f.start f.bytes f.rtype r.data

structure Skeleton.Becomes (p : Packet) (s : Skeleton) (m : Message) : Prop where
  header : m.header = s.header
  questions : m.questions = s.questions
  answers : List.Forall₂ (Frame.Becomes p) s.answers m.answers
  authority : List.Forall₂ (Frame.Becomes p) s.authority m.authority
  additional : List.Forall₂ (Frame.Becomes p) s.additional m.additional

section Becoming

variable {p : Packet} {f : Frame} {r r' : Record} {s : Skeleton} {m : Message}

theorem Frame.becomes_record (p : Packet) (f : Frame) : f.Becomes p (f.record p) where
  name := rfl
  rtype := rfl
  rclass := (RecordClass.split_iff.2 ⟨rfl, rfl⟩).1
  rclass_lt := (RecordClass.split_iff.2 ⟨rfl, rfl⟩).2
  ttl := rfl
  data := by
    unfold record reading
    cases found : RData.read p f.rtype f.start f.bytes with
    | ok data => exact RData.found_of_read found
    | error e => exact RData.found_of_fault found

theorem Frame.Becomes.unique (h : f.Becomes p r) (k : f.Becomes p r') : r = r' := by
  obtain ⟨top, rest⟩ := RecordClass.split_iff.1 ⟨h.rclass, h.rclass_lt⟩
  obtain ⟨top', rest'⟩ := RecordClass.split_iff.1 ⟨k.rclass, k.rclass_lt⟩
  cases r
  cases r'
  simp only [Record.mk.injEq]
  exact ⟨h.name.trans k.name.symm, h.rtype.trans k.rtype.symm, rest.trans rest'.symm,
    top.trans top'.symm, h.ttl.trans k.ttl.symm, h.data.unique k.data⟩

theorem Frame.becomes_iff : f.Becomes p r ↔ f.record p = r :=
  ⟨(becomes_record p f).unique, fun h => h ▸ becomes_record p f⟩

theorem Frame.forall₂_becomes_iff {fs : List Frame} {rs : List Record} :
    List.Forall₂ (Becomes p) fs rs ↔ fs.map (record p) = rs := by
  have : Becomes p = fun f r => f.record p = r :=
    funext fun f => funext fun r => propext becomes_iff
  rw [this, ← List.forall₂_map_left_iff, List.forall₂_eq_eq_eq]

theorem Skeleton.becomes_iff : s.Becomes p m ↔ s.message p = m := by
  constructor
  · rintro ⟨header, questions, answers, authority, additional⟩
    cases m
    simp only [message, Message.mk.injEq]
    exact ⟨header.symm, questions.symm, Frame.forall₂_becomes_iff.1 answers,
      Frame.forall₂_becomes_iff.1 authority, Frame.forall₂_becomes_iff.1 additional⟩
  · rintro rfl
    exact ⟨rfl, rfl, Frame.forall₂_becomes_iff.2 rfl, Frame.forall₂_becomes_iff.2 rfl,
      Frame.forall₂_becomes_iff.2 rfl⟩

end Becoming

/-- A message can be read exactly if its frames can, with the same error if not, and is what becomes
of them. Each record ends where its frame does, whatever its data is. -/
theorem Message.read_iff_skeleton (p : Packet) :
    (∀ e, (read p).value = .error e ↔ Skeleton.read p = .error e) ∧
    (∀ m, (read p).value = .ok m ↔ ∃ s, Skeleton.read p = .ok s ∧ s.Becomes p m) ∧
    ∀ count offset,
      (Record.readings p count offset).map (fun found => (found.1.map (·.next), found.2)) =
        (Frame.readMany p count offset).map fun found => (found.1.map Frame.stop, found.2) := by
  rw [value_read_eq_map]
  refine ⟨fun e => ?_, fun m => ?_, fun count offset => ?_⟩
  · cases Skeleton.read p <;> simp [Except.map]
  · simp only [Skeleton.becomes_iff]
    cases Skeleton.read p <;> simp [Except.map]
  · rw [Record.readings_eq_frames]
    cases Frame.readMany p count offset with
    | error e => rfl
    | ok found => simp [Except.map, Frame.reading]

example : (Message.read #[0, 0, 0x84, 0, 0, 0, 0, 2, 0, 0, 0, 0,
    0, 0, 16, 0, 1, 0, 0, 0, 0, 0, 1, 5,
    0, 0, 1, 0x80, 1, 0, 0, 0, 9, 0, 4, 10, 0, 0, 7]).value.map Message.answers =
    .ok [⟨".", RecordType.txt, 1, false, 0, .other [5]⟩,
      ⟨".", RecordType.a, 1, true, 9, .a ⟨#v[10, 0, 0, 7]⟩⟩] := by
  decide +kernel

end MulticastDns

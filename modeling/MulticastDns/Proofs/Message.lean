import MulticastDns.Proofs.Packet
import MulticastDns.Wire.Message

namespace MulticastDns

namespace Question

variable {p : Packet} {q : Question} {offset stop : Nat}

theorem read_eq_ok (h : read p offset = .ok (q, stop)) :
    ∃ next, Name.decode p offset = .ok (q.name, next) ∧ p.u16 next = .ok q.qtype ∧
      p.u16 (next + 2) = .ok q.qclass := by
  obtain ⟨⟨name, next⟩, named, h⟩ := exists_ok_of_bind h
  obtain ⟨qtype, htype, h⟩ := exists_ok_of_bind h
  obtain ⟨qclass, hclass, h⟩ := exists_ok_of_bind h
  cases h
  exact ⟨next, named, htype, hclass⟩

theorem first?_eq_some (h : first? p = .ok (some q)) :
    ∃ stop, read p Header.size = .ok (q, stop) := by
  obtain ⟨header, -, h⟩ := exists_ok_of_bind h
  split at h
  · cases h
  · obtain ⟨⟨first, stop⟩, first_eq, h⟩ := exists_ok_of_bind h
    cases h
    exact ⟨stop, first_eq⟩

theorem first?_of_header_error {e : WireError} (h : Header.read p = .error e) :
    first? p = .error e := by
  rw [first?, h]
  rfl

theorem first?_of_header {header : Header} (h : Header.read p = .ok header) : first? p =
    if header.questions = 0 then .ok none
    else (read p Header.size).map fun found => some found.1 := by
  rw [first?, h]
  change (if header.questions = 0 then _ else _) = _
  split
  · rfl
  · cases read p Header.size <;> rfl

theorem readMany_succ (p : Packet) (count offset : Nat) :
    readMany p (count + 1) offset = read p offset >>= fun first =>
      (readMany p count first.2).map fun rest => (first.1 :: rest.1, rest.2) := by
  rw [readMany]
  cases read p offset with
  | error e => rfl
  | ok first =>
    change _ = Except.map _ (readMany p count first.2)
    dsimp only
    cases readMany p count first.2 <;> rfl

end Question

namespace RData

theorem splitStrings_of_inside {n : UInt8} {rest : List UInt8} {offset : Nat}
    (h : n.toNat ≤ rest.length) : splitStrings (n :: rest) offset =
      (splitStrings (rest.drop n.toNat) (offset + 1 + n.toNat)).map (rest.take n.toNat :: ·) := by
  rw [splitStrings, if_neg (Nat.not_lt.2 h)]
  cases splitStrings (rest.drop n.toNat) (offset + 1 + n.toNat) <;> rfl

theorem splitStrings_of_overrun {n : UInt8} {rest : List UInt8} {offset : Nat}
    (h : rest.length < n.toNat) :
    splitStrings (n :: rest) offset = .error (.rdataOverrun offset) := by
  rw [splitStrings, if_pos h]

theorem readTexts_eq_map (bytes : List UInt8) (offset : Nat) :
    readTexts bytes offset = (splitStrings bytes offset).map fun strings =>
      (strings.filter (!·.isEmpty)).map fun s => Text.ofUtf8Lossy s.toArray := by
  unfold readTexts
  cases splitStrings bytes offset <;> rfl

end RData

namespace Record

def readings (p : Packet) (count offset : Nat) : Except WireError (List Reading × Nat) :=
  (readMany p count offset).2.map fun stop => ((readMany p count offset).1, stop)

def readAll (p : Packet) (count offset : Nat) : Except WireError (List Record × Nat) :=
  (readMany p count offset).2.map fun stop =>
    ((readMany p count offset).1.map (·.record), stop)

theorem readings_succ (p : Packet) (count offset : Nat) :
    readings p (count + 1) offset = read p offset >>= fun first =>
      (readings p count first.next).map fun rest => (first :: rest.1, rest.2) := by
  rw [readings, readMany]
  cases read p offset with
  | error e => rfl
  | ok first =>
    change Except.map _ (readMany p count first.next).2 = Except.map _ (readings p count first.next)
    rw [readings]
    cases (readMany p count first.next).2 <;> rfl

theorem readAll_eq_map (p : Packet) (count offset : Nat) : readAll p count offset =
    (readings p count offset).map fun found => (found.1.map (·.record), found.2) := by
  unfold readAll readings
  cases (readMany p count offset).2 <;> rfl

theorem readAll_succ (p : Packet) (count offset : Nat) :
    readAll p (count + 1) offset = read p offset >>= fun first =>
      (readAll p count first.next).map fun rest => (first.record :: rest.1, rest.2) := by
  rw [readAll_eq_map, readings_succ]
  cases read p offset with
  | error e => rfl
  | ok first =>
    change Except.map _ (Except.map _ (readings p count first.next)) = Except.map _ _
    rw [readAll_eq_map]
    cases readings p count first.next <;> rfl

end Record

theorem Message.value_read (p : Packet) :
    (read p).value = Header.read p >>= fun head =>
      Question.readMany p head.questions.toNat Header.size >>= fun asked =>
        (Record.readAll p head.records asked.2).map fun found =>
          ofParts head asked.1 found.1 := by
  unfold read
  cases Header.read p with
  | error e => rfl
  | ok head =>
    dsimp only
    change _ = Question.readMany p head.questions.toNat Header.size >>= _
    cases Question.readMany p head.questions.toNat Header.size with
    | error e => rfl
    | ok asked =>
      obtain ⟨questions, offset⟩ := asked
      change _ = Except.map _ (Record.readAll p head.records offset)
      dsimp only
      rw [Logged.value_bind, Record.readAll]
      cases (Record.readMany p head.records offset).2 <;> rfl

end MulticastDns

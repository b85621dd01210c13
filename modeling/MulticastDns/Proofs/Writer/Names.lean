import MulticastDns.Proofs.Name.Encoding
import MulticastDns.Proofs.Writer.Tape

namespace MulticastDns

namespace Tape

variable {t : Tape} {pieces : List (List UInt8)}

theorem putEach_of_fits (h : t.bytes.length + pieces.flatten.length ≤ t.capacity) :
    t.putEach pieces = (.ok (), { t with bytes := t.bytes ++ pieces.flatten }) := by
  induction pieces generalizing t with
  | nil => simp [putEach]
  | cons piece rest ih =>
    rw [List.flatten_cons, List.length_append, ← Nat.add_assoc] at h
    have later : (t.bytes ++ piece).length + rest.flatten.length ≤ t.capacity := by
      rwa [List.length_append]
    rw [putEach_of_ok (put_of_fits (by omega)), ih later, List.flatten_cons, List.append_assoc]

theorem putEach_of_full (inside : t.bytes.length ≤ t.capacity)
    (h : t.capacity < t.bytes.length + pieces.flatten.length) :
    ∃ written, t.putEach pieces = (.error .bufferFull, { t with bytes := t.bytes ++ written }) ∧
      written <+: pieces.flatten ∧ written.length < pieces.flatten.length := by
  induction pieces generalizing t with
  | nil => exact absurd h (Nat.not_lt.2 inside)
  | cons piece rest ih =>
    rw [List.flatten_cons, List.length_append, ← Nat.add_assoc] at h
    by_cases fits : t.bytes.length + piece.length ≤ t.capacity
    · rw [← List.length_append] at fits h
      obtain ⟨written, stopped, first, shorter⟩ :=
        ih (t := { t with bytes := t.bytes ++ piece }) fits h
      refine ⟨piece ++ written, ?_, ?_, ?_⟩
      · rw [putEach_of_ok (put_of_fits (by rwa [← List.length_append])), stopped,
          List.append_assoc]
      · rw [List.flatten_cons]
        exact (List.prefix_append_right_inj piece).2 first
      · rw [List.flatten_cons, List.length_append, List.length_append]
        omega
    · refine ⟨[], ?_, List.nil_prefix, ?_⟩
      · rw [putEach_of_error (put_of_full fits), List.append_nil]
      · rw [List.flatten_cons, List.length_append, List.length_nil]
        omega

theorem flatten_pieces (labels : List String) :
    (Tape.pieces labels).flatten = Name.wireForm labels := by
  induction labels with
  | nil => rfl
  | cons label labels ih =>
    rw [Name.wireForm_cons, ← ih]
    simp [Tape.pieces, Name.labelBytes]

end Tape

namespace Writer

structure Appends (w : Writer) (bs : List UInt8) (u : Writer) : Prop where
  size_eq : u.buffer.size = w.buffer.size
  written_eq : u.written.toList = w.written.toList ++ bs
  beyond : ∀ i, u.position ≤ i → u.buffer[i]? = w.buffer[i]?

theorem Appends.truncate {w u : Writer} {bs : List UInt8} (h : w.Appends bs u) :
    (u.truncate w.position).position = w.position ∧
      (u.truncate w.position).written = w.written := by
  have extends' : w.Extends u := .of_append h.size_eq h.written_eq
  have bytes := extends'.truncate.2
  exact ⟨by rw [← length_bytes, bytes, length_bytes], Array.toList_inj.1 bytes⟩

def tape (w : Writer) : Tape := ⟨w.capacity, w.bytes⟩

theorem represents_tape (w : Writer) : w.Represents w.tape := ⟨rfl, rfl⟩

theorem length_tape_le (w : Writer) : w.tape.bytes.length ≤ w.tape.capacity :=
  Nat.le_trans (Nat.le_of_eq w.length_bytes) w.position_le

theorem tape_fits_iff (w : Writer) (n : Nat) :
    w.tape.bytes.length + n ≤ w.tape.capacity ↔ n ≤ w.remaining := by
  have inside := w.length_tape_le
  rw [remaining_eq]
  change w.bytes.length ≤ w.capacity at inside
  change w.bytes.length + n ≤ w.capacity ↔ _
  omega

theorem appends_of_tracks {m : Emit Unit} {k : Tape → Except WireError Unit × Tape}
    (tracks : m.Tracks k) (w : Writer) {outcome : Except WireError Unit} {bs : List UInt8}
    (h : k w.tape = (outcome, { w.tape with bytes := w.bytes ++ bs })) :
    ∃ u, m w = (outcome, u) ∧ w.Appends bs u := by
  obtain ⟨reply, represents, leaves⟩ := tracks w.represents_tape
  rw [h] at reply represents
  exact ⟨(m w).2, Prod.ext reply rfl, represents.capacity, represents.bytes, leaves.beyond⟩

end Writer

namespace Name

section Labels

variable {labels : List String} {w : Writer}

theorem emitLabels_of_fits (h : (wireForm labels).length ≤ w.remaining) :
    ∃ u, emitLabels labels w = (.ok (), u) ∧ w.Appends (wireForm labels) u := by
  have room := (w.tape_fits_iff _).2 h
  rw [← Tape.flatten_pieces] at room ⊢
  exact Writer.appends_of_tracks (Emit.tracks_labels labels) w (Tape.putEach_of_fits room)

theorem emitLabels_of_full (h : w.remaining < (wireForm labels).length) :
    ∃ written u, emitLabels labels w = (.error .bufferFull, u) ∧ w.Appends written u ∧
      written <+: wireForm labels ∧ written.length < (wireForm labels).length := by
  have full := Nat.lt_of_not_le ((w.tape_fits_iff _).not.2 (Nat.not_le.2 h))
  rw [← Tape.flatten_pieces] at full ⊢
  obtain ⟨written, stopped, first, shorter⟩ := Tape.putEach_of_full w.length_tape_le full
  obtain ⟨u, hu, appends⟩ :=
    Writer.appends_of_tracks (Emit.tracks_labels labels) w stopped
  exact ⟨written, u, hu, appends, first, shorter⟩

end Labels

/-- Writing a name comes to what encoding it comes to. A name without a wire form changes nothing,
one that fits is its wire form behind what was written before, and one that does not fit leaves a
part of that form short of the whole, from which the cursor can be taken back. -/
theorem emit_agrees_encode (name : String) (w : Writer) :
    (∀ e, encode name = .error e → emit name w = (.error e, w)) ∧
    ∀ bs, encode name = .ok bs →
      (bs.length ≤ w.remaining → ∃ u, emit name w = (.ok (), u) ∧ w.Appends bs u) ∧
      (w.remaining < bs.length → ∃ written u, emit name w = (.error .bufferFull, u) ∧
        w.Appends written u ∧ written <+: bs ∧ written ≠ bs ∧
        (u.truncate w.position).position = w.position ∧
        (u.truncate w.position).written = w.written) := by
  refine ⟨fun e refused => ?_, fun bs encoded => ?_⟩
  · rw [emit]
    rw [encode] at refused
    cases found : labels name with
    | error e' =>
      rw [found] at refused
      cases refused
      rfl
    | ok ls =>
      rw [found] at refused
      cases refused
  · obtain ⟨ls, found, rfl⟩ := exists_labels_of_encode encoded
    rw [emit, found]
    refine ⟨emitLabels_of_fits, fun full => ?_⟩
    obtain ⟨written, u, stopped, appends, first, shorter⟩ := emitLabels_of_full full
    obtain ⟨position, kept⟩ := appends.truncate
    exact ⟨written, u, stopped, appends, first, fun whole => by simp [whole] at shorter,
      position, kept⟩

def cramped : Writer := ⟨#[7, 7, 9, 9, 9, 9, 9], 2, by decide⟩

theorem cramped_takes_nas :
    emit "nas..local" cramped = (.error (.invalidLabel ""), cramped) ∧
      (∃ u, emit "nas" cramped = (.ok (), u) ∧ u.written.toList = [7, 7, 3, 110, 97, 115, 0]) ∧
      ∃ written u, emit "nas.local" cramped = (.error .bufferFull, u) ∧
        u.written.toList = [7, 7] ++ written ∧
        written <+: [3, 110, 97, 115, 5, 108, 111, 99, 97, 108, 0] ∧
        (u.truncate 2).written = #[7, 7] := by
  have refused : encode "nas..local" = .error (.invalidLabel "") := by decide +kernel
  have short : encode "nas" = .ok [3, 110, 97, 115, 0] := by decide +kernel
  have long : encode "nas.local" = .ok [3, 110, 97, 115, 5, 108, 111, 99, 97, 108, 0] := by
    decide +kernel
  obtain ⟨u, hu, filled⟩ :=
    ((emit_agrees_encode "nas" cramped).2 _ short).1 (by decide)
  obtain ⟨written, v, stopped, appends, first, -, -, kept⟩ :=
    ((emit_agrees_encode "nas.local" cramped).2 _ long).2 (by decide)
  exact ⟨(emit_agrees_encode "nas..local" cramped).1 _ refused, ⟨u, hu, filled.written_eq⟩,
    written, v, stopped, appends.written_eq, first, kept⟩

end Name

end MulticastDns

import MulticastDns.Net.Link
import MulticastDns.Proofs.Writer
import MulticastDns.Wire.Packet

namespace MulticastDns

theorem exists_ok_of_bind {α β : Type} {m : Except WireError α} {f : α → Except WireError β} {b : β}
    (h : m >>= f = .ok b) : ∃ a, m = .ok a ∧ f a = .ok b := by
  cases m with
  | error e => cases h
  | ok a => exact ⟨a, rfl, h⟩

theorem exists_ok_of_map {α β : Type} {m : Except WireError α} {f : α → β} {b : β}
    (h : m.map f = .ok b) : ∃ a, m = .ok a ∧ f a = b := by
  cases m with
  | error e => cases h
  | ok a => exact ⟨a, rfl, Except.ok.inj h⟩

theorem bind_congr_of_ok {α β : Type} {m : Except WireError α} {f g : α → Except WireError β}
    (h : ∀ a, m = .ok a → f a = g a) : m >>= f = m >>= g := by
  cases m with
  | error e => rfl
  | ok a => exact h a rfl

namespace Packet

def Holds (p : Packet) (pos : Nat) (bytes : List UInt8) : Prop :=
  ∃ before after, p.toList = before ++ bytes ++ after ∧ before.length = pos

variable {p : Packet} {pos : Nat}

theorem slice?_eq_some_iff {n : Nat} {bytes : Array UInt8} :
    p.slice? pos n = some bytes ↔ pos + n ≤ p.size ∧ p.extract pos (pos + n) = bytes := by
  simp [slice?]

theorem le_of_u16 {n : UInt16} (h : p.u16 pos = .ok n) : pos + 2 ≤ p.size := by
  unfold u16 at h
  split at h
  · assumption
  · cases h

theorem holds_toArray (bytes : List UInt8) : Holds bytes.toArray 0 bytes :=
  ⟨[], [], by simp, rfl⟩

theorem holds_append {a b : List UInt8} :
    p.Holds pos (a ++ b) ↔ p.Holds pos a ∧ p.Holds (pos + a.length) b := by
  constructor
  · rintro ⟨before, after, h, rfl⟩
    exact ⟨⟨before, b ++ after, by simp [h], rfl⟩, ⟨before ++ a, after, by simp [h], by simp⟩⟩
  · rintro ⟨⟨before, rest, h, rfl⟩, ⟨upTo, after, k, length⟩⟩
    have split : before ++ a ++ rest = upTo ++ (b ++ after) := by simp [← h, k]
    obtain ⟨rfl, rfl⟩ := List.append_inj split (by simp [length])
    exact ⟨before, after, by simp [h], rfl⟩

theorem holds_cons {b : UInt8} {bytes : List UInt8} :
    p.Holds pos (b :: bytes) ↔ p.Holds pos [b] ∧ p.Holds (pos + 1) bytes :=
  holds_append (a := [b])

namespace Holds

theorem size_le {bytes : List UInt8} (h : p.Holds pos bytes) : pos + bytes.length ≤ p.size := by
  obtain ⟨before, after, h, rfl⟩ := h
  rw [← Array.length_toList, h]
  simp

theorem getElem?_eq {b : UInt8} (h : p.Holds pos [b]) : p[pos]? = some b := by
  obtain ⟨before, after, h, rfl⟩ := h
  rw [← Array.getElem?_toList, h]
  simp

theorem getElem_eq {b : UInt8} (h : p.Holds pos [b]) (inside : pos < p.size) : p[pos] = b :=
  Option.some.inj ((Array.getElem?_eq_getElem inside).symm.trans h.getElem?_eq)

theorem extract_eq {bytes : List UInt8} (h : p.Holds pos bytes) :
    p.extract pos (pos + bytes.length) = bytes.toArray := by
  obtain ⟨before, after, h, rfl⟩ := h
  apply Array.toList_inj.1
  simp [h]

theorem slice?_eq {bytes : List UInt8} (h : p.Holds pos bytes) :
    p.slice? pos bytes.length = some bytes.toArray := by
  rw [slice?, if_pos h.size_le, h.extract_eq]

theorem u16_eq {n : UInt16} (h : p.Holds pos (bytesOfU16 n)) : p.u16 pos = .ok n := by
  have inside : pos + 2 ≤ p.size := h.size_le
  obtain ⟨high, low⟩ := holds_cons.1 h
  rw [u16, dif_pos inside, high.getElem_eq, low.getElem_eq]
  apply congrArg Except.ok
  apply UInt16.toNat_inj.1
  have := n.toNat_lt
  simp
  omega

theorem u32_eq {n : UInt32} (h : p.Holds pos (bytesOfU32 n)) : p.u32 pos = .ok n := by
  have inside : pos + 4 ≤ p.size := h.size_le
  obtain ⟨first, h⟩ := holds_cons.1 h
  obtain ⟨second, h⟩ := holds_cons.1 h
  obtain ⟨third, fourth⟩ := holds_cons.1 h
  rw [u32, dif_pos inside, first.getElem_eq, second.getElem_eq, third.getElem_eq,
    fourth.getElem_eq]
  apply congrArg Except.ok
  apply UInt32.toNat_inj.1
  have := n.toNat_lt
  simp
  omega

theorem u16_append {n : UInt16} {rest : List UInt8} (h : p.Holds pos (bytesOfU16 n ++ rest)) :
    p.u16 pos = .ok n ∧ p.Holds (pos + 2) rest :=
  ⟨(holds_append.1 h).1.u16_eq, (holds_append.1 h).2⟩

theorem u32_append {n : UInt32} {rest : List UInt8} (h : p.Holds pos (bytesOfU32 n ++ rest)) :
    p.u32 pos = .ok n ∧ p.Holds (pos + 4) rest :=
  ⟨(holds_append.1 h).1.u32_eq, (holds_append.1 h).2⟩

end Holds

end Packet

def Datagram.cut (d : Datagram) : Datagram := ⟨d.source, d.bytes.extract 0 1500⟩

namespace Inbox

theorem bytes_receive (buffer : Array UInt8) (bytes : Packet) :
    (receive buffer bytes).2 = bytes.extract 0 buffer.size := by
  have length : (bytes.toList.take (min bytes.size buffer.size)).length =
      min bytes.size buffer.size := by
    rw [List.length_take, Array.length_toList]
    omega
  have stored : (receive buffer bytes).1.toList =
      bytes.toList.take (min bytes.size buffer.size) ++
        buffer.toList.drop (min bytes.size buffer.size) := by
    show (Writer.overwrite buffer 0 _).toList = _
    rw [Writer.toList_overwrite (by omega), List.take_zero, List.nil_append, Nat.zero_add, length]
  apply Array.toList_inj.1
  show ((receive buffer bytes).1.extract 0 (min bytes.size buffer.size)).toList = _
  rw [Array.toList_extract, Array.toList_extract, List.extract_eq_take_drop,
    List.extract_eq_take_drop, List.drop_zero, List.drop_zero, stored, Nat.sub_zero, Nat.sub_zero,
    List.take_left' length, List.take_eq_take_iff, Array.length_toList]
  omega

theorem size_receive (buffer : Array UInt8) (bytes : Packet) :
    (receive buffer bytes).1.size = buffer.size :=
  Writer.size_overwrite _ _ _

theorem collectInto_eq_map {buffer : Array UInt8} (h : buffer.size = 1500)
    (arrivals : List Datagram) : collectInto buffer arrivals = arrivals.map Datagram.cut := by
  induction arrivals generalizing buffer with
  | nil => rfl
  | cons d rest ih =>
    have taken : (receive buffer d.bytes).2 = d.cut.bytes := by
      rw [bytes_receive, h]
      rfl
    change ⟨d.source, (receive buffer d.bytes).2⟩ ::
      collectInto (receive buffer d.bytes).1 rest = _
    rw [taken, ih ((size_receive buffer d.bytes).trans h)]
    rfl

theorem collect_eq_map (arrivals : List Datagram) :
    collect arrivals = arrivals.map Datagram.cut :=
  collectInto_eq_map Array.size_replicate arrivals

end Inbox

end MulticastDns

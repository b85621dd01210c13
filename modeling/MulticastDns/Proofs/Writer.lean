import MulticastDns.Wire.Writer

namespace MulticastDns.Writer

def bytes (w : Writer) : List UInt8 := w.written.toList

def capacity (w : Writer) : Nat := w.buffer.size

theorem bytes_eq_take (w : Writer) : w.bytes = w.buffer.toList.take w.position := by
  simp [bytes, written]

@[simp] theorem length_bytes (w : Writer) : w.bytes.length = w.position := by
  have := w.position_le
  rw [bytes_eq_take, List.length_take, Array.length_toList]
  omega

theorem remaining_eq (w : Writer) : w.remaining = w.capacity - w.bytes.length := by
  rw [length_bytes]
  rfl

@[simp] theorem bytes_ofBuffer (buffer : Array UInt8) : (ofBuffer buffer).bytes = [] := by
  simp [bytes_eq_take, ofBuffer]

theorem toList_overwrite {buffer : Array UInt8} {start : Nat} {bs : List UInt8}
    (h : start + bs.length ≤ buffer.size) :
    (overwrite buffer start bs).toList =
      buffer.toList.take start ++ bs ++ buffer.toList.drop (start + bs.length) := by
  induction bs generalizing buffer start with
  | nil => simp [overwrite]
  | cons b bs ih =>
    rw [List.length_cons] at h
    have inside : start < buffer.toList.length := by
      rw [Array.length_toList]
      omega
    rw [overwrite, ih (by rw [Array.size_setIfInBounds]; omega), Array.toList_setIfInBounds,
      List.take_set, List.drop_set_of_lt (by omega), List.take_succ_eq_append_getElem inside,
      List.set_append_right _ _ (List.length_take_le _ _)]
    have offset : start - (buffer.toList.take start).length = 0 := by
      rw [List.length_take]
      omega
    rw [offset]
    simp [Nat.add_assoc, Nat.add_comm 1]

structure Extends (w w' : Writer) : Prop where
  capacity_eq : w'.capacity = w.capacity
  bytes_prefix : w.bytes <+: w'.bytes

namespace Extends

theorem refl (w : Writer) : w.Extends w := ⟨rfl, List.prefix_refl _⟩

theorem trans {u v w : Writer} (h : u.Extends v) (k : v.Extends w) : u.Extends w :=
  ⟨k.capacity_eq.trans h.capacity_eq, h.bytes_prefix.trans k.bytes_prefix⟩

theorem of_append {w w' : Writer} {bs : List UInt8} (h : w'.capacity = w.capacity)
    (k : w'.bytes = w.bytes ++ bs) : w.Extends w' :=
  ⟨h, k ▸ List.prefix_append _ _⟩

end Extends

@[simp] theorem capacity_patch (w : Writer) (start : Nat) (n : UInt16) :
    (w.patch start n).capacity = w.capacity :=
  size_overwrite _ _ _

theorem bytes_patch_of_le {w : Writer} {start : Nat} (h : start + 2 ≤ w.position) (n : UInt16) :
    (w.patch start n).bytes = w.bytes.take start ++ bytesOfU16 n ++ w.bytes.drop (start + 2) := by
  have inside : start + (bytesOfU16 n).length ≤ w.buffer.size := Nat.le_trans h w.position_le
  have stays : (w.patch start n).position = w.position := rfl
  have front : (w.buffer.toList.take start).length = start :=
    List.length_take_of_le (by rw [Array.length_toList]; omega)
  have middle : (bytesOfU16 n).take (w.position - start) = bytesOfU16 n :=
    List.take_of_length_le (by rw [length_bytesOfU16]; omega)
  rw [bytes_eq_take, bytes_eq_take, stays, patch, toList_overwrite inside, List.append_assoc,
    List.take_append, List.take_append, front, List.take_take, List.take_take, List.drop_take,
    middle, Nat.min_comm, length_bytesOfU16, Nat.sub_sub, List.append_assoc]

theorem bytes_patch {w : Writer} {before after : List UInt8} {old new : UInt16}
    (h : w.bytes = before ++ bytesOfU16 old ++ after) :
    (w.patch before.length new).bytes = before ++ bytesOfU16 new ++ after := by
  have inside : before.length + 2 ≤ w.position := by
    rw [← length_bytes, h, List.length_append, List.length_append, length_bytesOfU16]
    omega
  rw [bytes_patch_of_le inside, h, List.append_assoc before, List.take_left, ← List.append_assoc,
    List.drop_left' (by rw [List.length_append, length_bytesOfU16])]

@[simp] theorem capacity_truncate (w : Writer) (pos : Nat) :
    (w.truncate pos).capacity = w.capacity := by
  unfold truncate
  split <;> rfl

theorem bytes_truncate (w : Writer) (pos : Nat) : (w.truncate pos).bytes = w.bytes.take pos := by
  rw [bytes_eq_take, bytes_eq_take, List.take_take]
  unfold truncate
  split
  · rw [Nat.min_eq_left (by omega)]
  · rw [Nat.min_eq_right (by omega)]

theorem Extends.truncate {w w' : Writer} (h : w.Extends w') :
    (w'.truncate w.position).capacity = w.capacity ∧ (w'.truncate w.position).bytes = w.bytes := by
  rw [capacity_truncate, bytes_truncate, ← length_bytes]
  exact ⟨h.capacity_eq, (List.prefix_iff_eq_take.1 h.bytes_prefix).symm⟩

end MulticastDns.Writer

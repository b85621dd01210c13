import MulticastDns.Proofs.Draft

/-! Two runs of one step of writing, from the same bytes and with the same room. What else the
buffers hold has no part in what is written or in how it ends. -/

namespace MulticastDns

namespace Writer

/-- The same bytes below the cursors, in buffers of one size. Past the cursors they may differ. -/
structure Agrees (w w' : Writer) : Prop where
  capacity_eq : w.capacity = w'.capacity
  bytes_eq : w.bytes = w'.bytes

theorem take_overwrite_congr {buffer buffer' : Array UInt8} {n : Nat}
    (h : buffer.toList.take n = buffer'.toList.take n) (start : Nat) (bs : List UInt8) :
    (overwrite buffer start bs).toList.take n = (overwrite buffer' start bs).toList.take n := by
  induction bs generalizing buffer buffer' start with
  | nil => exact h
  | cons b bs ih =>
    apply ih
    rw [Array.toList_setIfInBounds, Array.toList_setIfInBounds, List.take_set, List.take_set, h]

namespace Agrees

variable {w w' u u' : Writer}

theorem position_eq (h : w.Agrees w') : w.position = w'.position := by
  rw [← length_bytes, h.bytes_eq, length_bytes]

theorem remaining_eq (h : w.Agrees w') : w.remaining = w'.remaining := by
  rw [Writer.remaining_eq, Writer.remaining_eq, h.capacity_eq, h.bytes_eq]

theorem written_eq (h : w.Agrees w') : w.written = w'.written :=
  Array.toList_inj.1 h.bytes_eq

theorem ofBuffer {buffer buffer' : Array UInt8} (h : buffer.size = buffer'.size) :
    (Writer.ofBuffer buffer).Agrees (Writer.ofBuffer buffer') :=
  ⟨h, by rw [bytes_ofBuffer, bytes_ofBuffer]⟩

theorem append (h : w.Agrees w') {bs : List UInt8} (cu : u.capacity = w.capacity)
    (bu : u.bytes = w.bytes ++ bs) (cu' : u'.capacity = w'.capacity)
    (bu' : u'.bytes = w'.bytes ++ bs) : u.Agrees u' :=
  ⟨by rw [cu, cu', h.capacity_eq], by rw [bu, bu', h.bytes_eq]⟩

theorem truncate (h : w.Agrees w') (k : w.Extends u) (k' : w'.Extends u') :
    (u.truncate w.position).Agrees (u'.truncate w'.position) := by
  obtain ⟨capacity, bytes⟩ := k.truncate
  obtain ⟨capacity', bytes'⟩ := k'.truncate
  exact ⟨by rw [capacity, capacity', h.capacity_eq], by rw [bytes, bytes', h.bytes_eq]⟩

theorem patch (h : w.Agrees w') (start : Nat) (n : UInt16) :
    (w.patch start n).Agrees (w'.patch start n) := by
  refine ⟨by rw [capacity_patch, capacity_patch, h.capacity_eq], ?_⟩
  have same := h.bytes_eq
  rw [bytes_eq_take, bytes_eq_take, ← h.position_eq] at same
  rw [bytes_eq_take, bytes_eq_take]
  show (overwrite w.buffer start _).toList.take w.position =
    (overwrite w'.buffer start _).toList.take w'.position
  rw [← h.position_eq]
  exact take_overwrite_congr same start _

end Agrees

end Writer

namespace Emit

/-- A step that comes to the same from both writers: it succeeds and they agree afterwards, or it
fails with one error and each still holds what it held. -/
inductive Alike (m : Emit Unit) (w w' : Writer) : Prop
  | written {u u' : Writer} : m w = (.ok (), u) → m w' = (.ok (), u') → u.Agrees u' →
      w.Extends u → w'.Extends u' → Alike m w w'
  | stopped {e : WireError} {u u' : Writer} : m w = (.error e, u) → m w' = (.error e, u') →
      w.Extends u → w'.Extends u' → Alike m w w'

theorem Follows.alike {m : Emit Unit} {d : Draft} (follows : m.Follows d) {w w' : Writer}
    (h : w.Agrees w') : m.Alike w w' := by
  cases d with
  | whole bs =>
    obtain ⟨fits, full⟩ := follows
    by_cases room : bs.length ≤ w.remaining
    · obtain ⟨u, hu, cu, bu⟩ := fits w room
      obtain ⟨u', hu', cu', bu'⟩ := fits w' (h.remaining_eq ▸ room)
      exact .written hu hu' (h.append cu bu cu' bu') (.of_append cu bu) (.of_append cu' bu')
    · obtain ⟨u, hu, xu⟩ := full w (Nat.lt_of_not_le room)
      obtain ⟨u', hu', xu'⟩ := full w' (h.remaining_eq ▸ Nat.lt_of_not_le room)
      exact .stopped hu hu' xu xu'
  | broken n e =>
    obtain ⟨u, hu, xu⟩ := follows w
    obtain ⟨u', hu', xu'⟩ := follows w'
    rw [← h.remaining_eq] at hu'
    exact .stopped hu hu' xu xu'

theorem Follows.extends {m : Emit Unit} {d : Draft} (follows : m.Follows d) (w : Writer) :
    w.Extends (m w).2 := by
  cases follows.alike (w := w) ⟨rfl, rfl⟩ with
  | written hu _ _ xu _ =>
    rw [hu]
    exact xu
  | stopped hu _ xu _ =>
    rw [hu]
    exact xu

end Emit

end MulticastDns

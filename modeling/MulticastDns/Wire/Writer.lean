import MulticastDns.Wire.Packet

/-! A cursor over an output buffer of fixed size. A write that does not fit fails and changes
nothing; what lies past the cursor is left as it was found. -/

namespace MulticastDns

structure Writer where
  buffer : Array UInt8
  position : Nat
  position_le : position ≤ buffer.size

namespace Writer

def ofBuffer (buffer : Array UInt8) : Writer := ⟨buffer, 0, Nat.zero_le _⟩

def remaining (w : Writer) : Nat := w.buffer.size - w.position

def written (w : Writer) : Array UInt8 := w.buffer.extract 0 w.position

/-- The buffer with these bytes from `start` on; what would lie past its end is dropped. -/
def overwrite (buffer : Array UInt8) (start : Nat) : List UInt8 → Array UInt8
  | [] => buffer
  | b :: rest => overwrite (buffer.setIfInBounds start b) (start + 1) rest

@[simp] theorem size_overwrite (buffer : Array UInt8) (start : Nat) (bytes : List UInt8) :
    (overwrite buffer start bytes).size = buffer.size := by
  induction bytes generalizing buffer start with
  | nil => rfl
  | cons b rest ih => simp [overwrite, ih]

def patch (w : Writer) (start : Nat) (n : UInt16) : Writer :=
  ⟨overwrite w.buffer start (bytesOfU16 n), w.position, by simpa using w.position_le⟩

def truncate (w : Writer) (position : Nat) : Writer :=
  if h : position < w.position then ⟨w.buffer, position, by have := w.position_le; omega⟩ else w

end Writer

/-- A step of writing: it moves the cursor, and yields a value or what stopped it. After a failure
the writer still holds what was written before. -/
def Emit (α : Type) : Type := Writer → Except WireError α × Writer

namespace Emit

variable {α β : Type}

protected def pure (a : α) : Emit α := fun w => (.ok a, w)

protected def bind (m : Emit α) (f : α → Emit β) : Emit β := fun w =>
  match m w with
  | (.ok a, w') => f a w'
  | (.error e, w') => (.error e, w')

instance : Monad Emit where
  pure := Emit.pure
  bind := Emit.bind

theorem bind_of_ok {m : Emit α} {f : α → Emit β} {w w' : Writer} {a : α}
    (h : m w = (.ok a, w')) : (m >>= f) w = f a w' := by
  simp [Bind.bind, Emit.bind, h]

theorem bind_of_error {m : Emit α} {f : α → Emit β} {w w' : Writer} {e : WireError}
    (h : m w = (.error e, w')) : (m >>= f) w = (.error e, w') := by
  simp [Bind.bind, Emit.bind, h]

def fail (e : WireError) : Emit α := fun w => (.error e, w)

def position : Emit Nat := fun w => (.ok w.position, w)

def bytes (bs : List UInt8) : Emit Unit := fun w =>
  if h : bs.length ≤ w.remaining then
    (.ok (), ⟨Writer.overwrite w.buffer w.position bs, w.position + bs.length, by
      have := w.position_le
      simp only [Writer.remaining] at h
      simp
      omega⟩)
  else (.error .bufferFull, w)

def u8 (n : UInt8) : Emit Unit := bytes [n]

def u16 (n : UInt16) : Emit Unit := bytes (bytesOfU16 n)

def u32 (n : UInt32) : Emit Unit := bytes (bytesOfU32 n)

def reserve : Emit Nat := do
  let start ← position
  u16 0
  return start

def patch (start : Nat) (n : UInt16) : Emit Unit := fun w => (.ok (), w.patch start n)

end Emit

end MulticastDns

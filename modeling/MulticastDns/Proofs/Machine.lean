import MulticastDns.Wire.Writer

/-! A machine on which a program can break: a sum is too large for a word, a range reaches past the
end, a number is cut short. The definitions that read and answer are total and say nothing of this.
In the modules below they are written once more, operation by operation, and come to the same; what
runs to its end here has broken nowhere. -/

namespace MulticastDns

inductive Fault
  | outOfRange
  | overflow
  | lostValue
  | unwritten
  deriving DecidableEq

abbrev Machine : Type → Type := Except Fault

namespace Machine

theorem bind_eq {α β : Type} {m : Machine α} {a : α} {f : α → Machine β} {r : Machine β}
    (h : m = .ok a) (hf : f a = r) : m >>= f = r := by
  rw [h]
  exact hf

def require (condition : Prop) [Decidable condition] (fault : Fault) : Machine Unit :=
  if condition then .ok () else .error fault

theorem require_eq {condition : Prop} [Decidable condition] (h : condition) (fault : Fault) :
    require condition fault = .ok () := if_pos h

def add (words a b : Nat) : Machine Nat :=
  if a + b < words then .ok (a + b) else .error .overflow

theorem add_eq {words a b : Nat} (h : a + b < words) : add words a b = .ok (a + b) := if_pos h

theorem eq_add {words a b n : Nat} (h : add words a b = .ok n) : n = a + b := by
  unfold add at h
  split at h
  · cases h
    rfl
  · cases h

def sum (words a b : Nat) : Machine { n // n = a + b } :=
  if a + b < words then .ok ⟨a + b, rfl⟩ else .error .overflow

theorem sum_eq {words a b : Nat} (h : a + b < words) : sum words a b = .ok ⟨a + b, rfl⟩ :=
  if_pos h

def sub (a b : Nat) : Machine Nat := if b ≤ a then .ok (a - b) else .error .overflow

theorem sub_eq {a b : Nat} (h : b ≤ a) : sub a b = .ok (a - b) := if_pos h

def index (bytes : Array UInt8) (i : Nat) : Machine UInt8 :=
  if h : i < bytes.size then .ok bytes[i] else .error .outOfRange

theorem index_eq {bytes : Array UInt8} {i : Nat} (h : i < bytes.size) :
    index bytes i = .ok bytes[i] := dif_pos h

def slice (bytes : Array UInt8) (start stop : Nat) : Machine (Array UInt8) :=
  if start ≤ stop ∧ stop ≤ bytes.size then .ok (bytes.extract start stop) else .error .outOfRange

theorem slice_eq {bytes : Array UInt8} {start stop : Nat} (h : start ≤ stop)
    (inside : stop ≤ bytes.size) : slice bytes start stop = .ok (bytes.extract start stop) :=
  if_pos ⟨h, inside⟩

def toU8 (n : Nat) : Machine UInt8 := if n ≤ 0xFF then .ok (.ofNat n) else .error .lostValue

theorem toU8_eq {n : Nat} (h : n ≤ 0xFF) : toU8 n = .ok (.ofNat n) := if_pos h

def toU16 (n : Nat) : Machine UInt16 := if n ≤ 0xFFFF then .ok (.ofNat n) else .error .lostValue

theorem toU16_eq {n : Nat} (h : n ≤ 0xFFFF) : toU16 n = .ok (.ofNat n) := if_pos h

def patch (w : Writer) (start : Nat) (n : UInt16) : Machine Writer := do
  require (start + 2 ≤ w.position) .unwritten
  require (start + 2 ≤ w.buffer.size) .outOfRange
  return w.patch start n

theorem patch_eq {w : Writer} {start : Nat} (h : start + 2 ≤ w.position) (n : UInt16) :
    patch w start n = .ok (w.patch start n) := by
  rw [patch, require_eq h, require_eq (Nat.le_trans h w.position_le)]
  rfl

end Machine

/-- Reading on the machine: it comes to a value or finds the packet malformed, unless it breaks. -/
abbrev Scan : Type → Type := ExceptT WireError Machine

namespace Scan

variable {α β : Type}

def attempt (m : Scan α) : Scan (Except WireError α) := .lift m.run

def Runs (m : Scan α) (outcome : Except WireError α) : Prop := m.run = .ok outcome

namespace Runs

theorem pure (a : α) : Runs (Pure.pure a) (.ok a) := rfl

theorem throw (e : WireError) : Runs (α := α) (MonadExcept.throw e) (.error e) := rfl

theorem lift {m : Machine α} {a : α} {f : α → Scan β} {outcome : Except WireError β}
    (h : m = .ok a) (hf : Runs (f a) outcome) : Runs (liftM m >>= f) outcome := by
  subst h
  exact hf

theorem bind {m : Scan α} {first : Except WireError α} {f : α → Scan β}
    {g : α → Except WireError β} (h : Runs m first)
    (hf : ∀ a, first = .ok a → Runs (f a) (g a)) : Runs (m >>= f) (first >>= g) := by
  change m = .ok first at h
  subst h
  cases first with
  | error e => rfl
  | ok a => exact hf a rfl

theorem map {m : Scan α} {first : Except WireError α} {f : α → Scan β} {g : α → β}
    (h : Runs m first) (hf : ∀ a, f a = Pure.pure (g a)) : Runs (m >>= f) (first.map g) := by
  change m = .ok first at h
  subst h
  cases first with
  | error e => rfl
  | ok a => exact hf a

theorem attempt {m : Scan α} {first : Except WireError α} {f : Except WireError α → Scan β}
    {outcome : Except WireError β} (h : Runs m first) (hf : Runs (f first) outcome) :
    Runs (m.attempt >>= f) outcome := by
  change m = .ok first at h
  subst h
  exact hf

end Runs

theorem lift_eq_ok {m : Machine α} {f : α → Scan β} {outcome : Except WireError β}
    (h : (liftM m >>= f).run = .ok outcome) : ∃ a, m = .ok a ∧ (f a).run = .ok outcome := by
  cases m with
  | error fault => cases h
  | ok a => exact ⟨a, rfl, h⟩

end Scan

/-- Writing on the machine: a value or what stopped it, and the writer, unless it breaks. -/
abbrev Emission : Type → Type := ExceptT WireError (StateT Writer Machine)

namespace Emission

variable {α β : Type}

def Runs (m : Emission α) (k : Emit α) (w : Writer) : Prop := m.run.run w = .ok (k w)

namespace Runs

variable {w : Writer}

theorem pure (a : α) (w : Writer) : Runs (Pure.pure a) (Pure.pure a) w := rfl

theorem throw {e : WireError} {k : Emit α} (h : k w = (.error e, w)) :
    Runs (MonadExcept.throw e) k w := by
  rw [Runs, h]
  rfl

theorem lift {m : Machine α} {a : α} {f : α → Emission β} {k : Emit β} (h : m = .ok a)
    (hf : Runs (f a) k w) : Runs (liftM m >>= f) k w := by
  subst h
  exact hf

theorem get {f : Writer → Emission β} {k : Emit β} (hf : Runs (f w) k w) :
    Runs (MonadState.get >>= f) k w := hf

theorem set {k : Emit Unit} {w' : Writer} (h : k w = (.ok (), w')) :
    Runs (MonadStateOf.set w') k w := by
  rw [Runs, h]
  rfl

theorem bind {m : Emission α} {k : Emit α} {f : α → Emission β} {g : α → Emit β}
    (h : Runs m k w) (hf : ∀ a w', k w = (.ok a, w') → Runs (f a) (g a) w') :
    Runs (m >>= f) (k >>= g) w := by
  have run : (m >>= f).run.run w = m.run.run w >>= fun r =>
      match r.1 with
      | .ok a => (f a).run.run r.2
      | .error e => .ok (.error e, r.2) := by
    simp only [ExceptT.run_bind, StateT.run_bind]
    congr
    funext r
    cases r.1 <;> rfl
  rw [Runs, run, h]
  cases hk : k w with
  | mk outcome w' =>
    cases outcome with
    | error e =>
      rw [Emit.bind_of_error hk]
      rfl
    | ok a =>
      rw [Emit.bind_of_ok hk]
      exact hf a w' hk

theorem andThen {m : Emission α} {k : Emit α} {f : Emission β} {g : Emit β}
    (h : ∀ w, Runs m k w) (hf : ∀ w, Runs f g w) (w : Writer) :
    Runs (m >>= fun _ => f) (k >>= fun _ => g) w :=
  (h w).bind fun _ w _ => hf w

end Runs

end Emission

end MulticastDns

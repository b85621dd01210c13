import MulticastDns.Proofs.Writer

/-! What a step of writing comes to, told apart from the buffer it writes into: the bytes it leaves
where there is room for them, or the error that stops it after so many. -/

namespace MulticastDns

inductive Draft
  | whole (bytes : List UInt8)
  | broken (length : Nat) (error : WireError)

namespace Draft

def andThen : Draft → Draft → Draft
  | .whole a, .whole b => .whole (a ++ b)
  | .whole a, .broken n e => .broken (a.length + n) e
  | .broken n e, _ => .broken n e

@[simp] theorem whole_andThen_whole (a b : List UInt8) :
    (whole a).andThen (whole b) = whole (a ++ b) := rfl

@[simp] theorem whole_andThen_broken (a : List UInt8) (n : Nat) (e : WireError) :
    (whole a).andThen (broken n e) = broken (a.length + n) e := rfl

@[simp] theorem broken_andThen (n : Nat) (e : WireError) (d : Draft) :
    (broken n e).andThen d = broken n e := rfl

theorem andThen_assoc (c d e : Draft) : (c.andThen d).andThen e = c.andThen (d.andThen e) := by
  cases c <;> cases d <;> cases e <;> simp [Nat.add_assoc]

/-- A draft behind a field with its length. Data too long for the field counts as too long for the
buffer. -/
def measured : Draft → Draft
  | .whole data =>
    if data.length ≤ 0xFFFF then .whole (bytesOfU16 (.ofNat data.length) ++ data)
    else .broken (2 + data.length) .bufferFull
  | .broken n e => .broken (2 + n) e

end Draft

namespace Emit

/-- In every buffer the step does what its draft says, as far as the room goes. -/
def Follows (m : Emit Unit) : Draft → Prop
  | .whole bs =>
    (∀ w : Writer, bs.length ≤ w.remaining →
      ∃ w', m w = (.ok (), w') ∧ w'.capacity = w.capacity ∧ w'.bytes = w.bytes ++ bs) ∧
    ∀ w : Writer, w.remaining < bs.length → ∃ w', m w = (.error .bufferFull, w') ∧ w.Extends w'
  | .broken n e => ∀ w : Writer,
    ∃ w', m w = (.error (if n ≤ w.remaining then e else .bufferFull), w') ∧ w.Extends w'

theorem remaining_of_append {w w' : Writer} {bs : List UInt8} (h : w'.capacity = w.capacity)
    (k : w'.bytes = w.bytes ++ bs) : w'.remaining = w.remaining - bs.length := by
  rw [Writer.remaining_eq, Writer.remaining_eq, h, k, List.length_append, Nat.sub_add_eq]

theorem follows_pure : (pure () : Emit Unit).Follows (.whole []) :=
  ⟨fun w _ => ⟨w, rfl, rfl, by simp⟩, fun _ h => absurd h (Nat.not_lt_zero _)⟩

theorem follows_fail (e : WireError) : (fail e : Emit Unit).Follows (.broken 0 e) :=
  fun w => ⟨w, by simp [fail], .refl w⟩

theorem follows_bytes (bs : List UInt8) : (bytes bs).Follows (.whole bs) := by
  refine ⟨fun w fits => ?_, fun w full => ⟨w, dif_neg (Nat.not_le.2 full), .refl w⟩⟩
  refine ⟨_, dif_pos fits, Writer.size_overwrite _ _ _, ?_⟩
  have inside : w.position + bs.length ≤ w.buffer.size := by
    have := w.position_le
    simp only [Writer.remaining] at fits
    omega
  rw [Writer.bytes_eq_take, Writer.toList_overwrite inside, Writer.bytes_eq_take]
  refine List.take_left' ?_
  have := w.length_bytes
  rw [Writer.bytes_eq_take] at this
  rw [List.length_append, this]

theorem Follows.bind {m k : Emit Unit} {d e : Draft} (hm : m.Follows d) (hk : k.Follows e) :
    (m >>= fun _ => k).Follows (d.andThen e) := by
  cases d with
  | broken n err =>
    intro w
    obtain ⟨w', h, grown⟩ := hm w
    exact ⟨w', bind_of_error h, grown⟩
  | whole a =>
    obtain ⟨fits, full⟩ := hm
    cases e with
    | whole b =>
      constructor
      · intro w hw
        rw [List.length_append] at hw
        obtain ⟨u, hu, cu, bu⟩ := fits w (by omega)
        obtain ⟨v, hv, cv, bv⟩ := hk.1 u (by rw [remaining_of_append cu bu]; omega)
        exact ⟨v, (bind_of_ok hu).trans hv, cv.trans cu, by rw [bv, bu, List.append_assoc]⟩
      · intro w hw
        rw [List.length_append] at hw
        by_cases room : a.length ≤ w.remaining
        · obtain ⟨u, hu, cu, bu⟩ := fits w room
          obtain ⟨v, hv, xv⟩ := hk.2 u (by rw [remaining_of_append cu bu]; omega)
          exact ⟨v, (bind_of_ok hu).trans hv, .trans (.of_append cu bu) xv⟩
        · obtain ⟨u, hu, xu⟩ := full w (by omega)
          exact ⟨u, bind_of_error hu, xu⟩
    | broken n err =>
      intro w
      -- without room for the first part its own failure comes before the second's
      by_cases room : a.length ≤ w.remaining
      · obtain ⟨u, hu, cu, bu⟩ := fits w room
        obtain ⟨v, hv, xv⟩ := hk u
        refine ⟨v, (bind_of_ok hu).trans (hv.trans ?_), .trans (.of_append cu bu) xv⟩
        rw [remaining_of_append cu bu]
        simp only [Nat.le_sub_iff_add_le room, Nat.add_comm n]
      · obtain ⟨u, hu, xu⟩ := full w (by omega)
        refine ⟨u, (bind_of_error hu).trans ?_, xu⟩
        rw [if_neg (by omega)]

theorem reserve_of_fits {w : Writer} (h : 2 ≤ w.remaining) :
    ∃ u, reserve w = (.ok w.position, u) ∧ u.capacity = w.capacity ∧
      u.bytes = w.bytes ++ bytesOfU16 0 := by
  obtain ⟨u, hu, cu, bu⟩ := (follows_bytes (bytesOfU16 0)).1 w h
  exact ⟨u, (bind_of_ok rfl).trans (bind_of_ok hu), cu, bu⟩

theorem reserve_of_full {w : Writer} (h : w.remaining < 2) :
    ∃ u, reserve w = (.error .bufferFull, u) ∧ w.Extends u := by
  obtain ⟨u, hu, xu⟩ := (follows_bytes (bytesOfU16 0)).2 w h
  exact ⟨u, (bind_of_ok rfl).trans (bind_of_error hu), xu⟩

def close (lengthAt start : Nat) : Emit Unit := do
  let length := (← position) - start
  if length ≤ 0xFFFF then patch lengthAt (.ofNat length) else fail .bufferFull

def measured (data : Emit Unit) : Emit Unit := do
  let lengthAt ← reserve
  let start ← position
  data
  close lengthAt start

theorem measured_of_reserve {data : Emit Unit} {w u : Writer}
    (h : reserve w = (.ok w.position, u)) :
    measured data w = (data >>= fun _ => close w.position u.position) u :=
  (bind_of_ok h).trans (bind_of_ok rfl)

section Close

variable {u v : Writer} {data : List UInt8}

theorem close_eq (lengthAt : Nat) (h : v.bytes = u.bytes ++ data) :
    close lengthAt u.position v =
      if data.length ≤ 0xFFFF then (.ok (), v.patch lengthAt (.ofNat data.length))
      else (.error .bufferFull, v) := by
  have length : v.position - u.position = data.length := by
    rw [← v.length_bytes, ← u.length_bytes, h, List.length_append, Nat.add_sub_cancel_left]
  refine (bind_of_ok (m := position) rfl).trans ?_
  simp only [length]
  split <;> rfl

theorem bytes_closed {w : Writer} (hu : u.bytes = w.bytes ++ bytesOfU16 0)
    (hv : v.bytes = u.bytes ++ data) (n : UInt16) :
    (v.patch w.position n).bytes = w.bytes ++ (bytesOfU16 n ++ data) := by
  rw [← w.length_bytes, Writer.bytes_patch (hv.trans (by rw [hu])), List.append_assoc]

end Close

section Measured

variable {data : Emit Unit} {bs : List UInt8} {w : Writer}

theorem measured_of_full (data : Emit Unit) (h : w.remaining < 2) :
    ∃ u, measured data w = (.error .bufferFull, u) ∧ w.Extends u := by
  obtain ⟨u, hu, xu⟩ := reserve_of_full h
  exact ⟨u, bind_of_error hu, xu⟩

theorem Follows.measured_full (h : data.Follows (.whole bs)) (hw : w.remaining < 2 + bs.length) :
    ∃ v, measured data w = (.error .bufferFull, v) ∧ w.Extends v := by
  by_cases room : 2 ≤ w.remaining
  · obtain ⟨u, hu, cu, bu⟩ := reserve_of_fits room
    have left := remaining_of_append cu bu
    rw [length_bytesOfU16] at left
    obtain ⟨v, hv, xv⟩ := h.2 u (by omega)
    exact ⟨v, (measured_of_reserve hu).trans (bind_of_error hv), .trans (.of_append cu bu) xv⟩
  · exact measured_of_full data (Nat.lt_of_not_le room)

theorem Follows.measured_fits (h : data.Follows (.whole bs)) (hw : 2 + bs.length ≤ w.remaining) :
    ∃ v, v.capacity = w.capacity ∧ w.Extends v ∧
      (v.patch w.position (.ofNat bs.length)).bytes =
        w.bytes ++ (bytesOfU16 (.ofNat bs.length) ++ bs) ∧
      measured data w =
        if bs.length ≤ 0xFFFF then (.ok (), v.patch w.position (.ofNat bs.length))
        else (.error .bufferFull, v) := by
  obtain ⟨u, hu, cu, bu⟩ := reserve_of_fits (show 2 ≤ w.remaining by omega)
  have left := remaining_of_append cu bu
  rw [length_bytesOfU16] at left
  obtain ⟨v, hv, cv, bv⟩ := h.1 u (by omega)
  refine ⟨v, cv.trans cu, .trans (.of_append cu bu) (.of_append cv bv), bytes_closed bu bv _, ?_⟩
  rw [measured_of_reserve hu, bind_of_ok hv, close_eq _ bv]

end Measured

theorem Follows.measured {data : Emit Unit} {d : Draft} (h : data.Follows d) :
    (measured data).Follows d.measured := by
  cases d with
  | whole bs =>
    by_cases short : bs.length ≤ 0xFFFF
    · rw [Draft.measured, if_pos short]
      refine ⟨fun w hw => ?_, fun w hw => h.measured_full (by simpa [Nat.add_comm] using hw)⟩
      obtain ⟨v, cv, -, bv, hv⟩ := h.measured_fits (w := w) (by simpa [Nat.add_comm] using hw)
      exact ⟨_, hv.trans (if_pos short), (Writer.capacity_patch _ _ _).trans cv, bv⟩
    · rw [Draft.measured, if_neg short]
      intro w
      by_cases room : 2 + bs.length ≤ w.remaining
      · obtain ⟨v, -, xv, -, hv⟩ := h.measured_fits room
        exact ⟨v, by rw [hv, if_neg short, if_pos room], xv⟩
      · obtain ⟨v, hv, xv⟩ := h.measured_full (Nat.lt_of_not_le room)
        exact ⟨v, by rw [hv, if_neg room], xv⟩
  | broken n e =>
    intro w
    by_cases room : 2 ≤ w.remaining
    · obtain ⟨u, hu, cu, bu⟩ := reserve_of_fits room
      obtain ⟨v, hv, xv⟩ := h u
      refine ⟨v, ?_, .trans (.of_append cu bu) xv⟩
      rw [measured_of_reserve hu, bind_of_error hv, remaining_of_append cu bu, length_bytesOfU16]
      simp only [Nat.le_sub_iff_add_le room, Nat.add_comm n]
    · obtain ⟨u, hu, xu⟩ := measured_of_full data (Nat.lt_of_not_le room)
      exact ⟨u, by rw [hu, if_neg (by omega)], xu⟩

end Emit

end MulticastDns

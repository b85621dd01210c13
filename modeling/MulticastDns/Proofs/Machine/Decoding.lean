import MulticastDns.Proofs.Machine
import MulticastDns.Proofs.Name.Grammar

namespace MulticastDns

/-- A machine with so many words can hold the packet: words have 32 bits or more, and a length is
less than half of their number. -/
structure Packet.Addressable (words : Nat) (p : Packet) : Prop where
  wide : 0x100000000 ≤ words
  short : 2 * p.size < words

theorem Packet.Addressable.lt {words : Nat} {p : Packet} (h : p.Addressable words) {n : Nat}
    (near : n ≤ p.size + 0x20000) : n < words := by
  have := h.wide
  have := h.short
  omega

namespace Name

variable {p : Packet} {pos : Nat}

theorem extended_eq (used n : Nat) :
    extended used n = used + (if used = 0 then 0 else 1) + n := by
  unfold extended
  split <;> omega

theorem label_inside {raw : Array UInt8} (h : step p pos = .ok (.label raw)) :
    0 < raw.size ∧ raw.size ≤ 63 ∧ pos + 1 + raw.size ≤ p.size := by
  obtain ⟨n, -, positive, short, found⟩ := step_eq_label_iff.1 h
  have size := Packet.size_of_slice? found
  rw [UInt8.lt_iff_toNat_lt] at positive
  rw [UInt8.le_iff_toNat_le] at short
  exact ⟨size ▸ positive, size ▸ short, size ▸ (Packet.slice?_eq_some_iff.1 found).1⟩

end Name

namespace Scan

open Machine (add index slice sum)

variable (words : Nat)

def within? (p : Packet) (start stop : Nat) : Option (Array UInt8) :=
  if start ≤ stop ∧ stop ≤ p.size then some (p.extract start stop) else none

def u16 (p : Packet) (offset : Nat) : Scan UInt16 := do
  let stop ← add words offset 2
  match within? p offset stop with
  | none => throw (.packetTooShort stop p.size)
  | some bytes => return .ofNat ((← index bytes 0).toNat * 256 + (← index bytes 1).toNat)

def u32 (p : Packet) (offset : Nat) : Scan UInt32 := do
  let stop ← add words offset 4
  match within? p offset stop with
  | none => throw (.packetTooShort stop p.size)
  | some bytes =>
    return .ofNat ((((← index bytes 0).toNat * 256 + (← index bytes 1).toNat) * 256
      + (← index bytes 2).toNat) * 256 + (← index bytes 3).toNat)

section Words

variable {words : Nat} {p : Packet} {offset : Nat}

theorem within?_eq_slice? (p : Packet) (start n : Nat) :
    within? p start (start + n) = p.slice? start n := by
  simp [within?, Packet.slice?]

theorem runs_u16 (fits : offset + 2 < words) : Runs (u16 words p offset) (p.u16 offset) := by
  unfold u16
  refine .lift (Machine.add_eq fits) ?_
  simp only [within?, Packet.u16]
  by_cases inside : offset + 2 ≤ p.size
  · rw [if_pos ⟨by omega, inside⟩, dif_pos inside]
    have size : (p.extract offset (offset + 2)).size = 2 := by simp; omega
    refine .lift (Machine.index_eq (by omega)) (.lift (Machine.index_eq (by omega)) ?_)
    simp only [Array.getElem_extract]
    exact .pure _
  · rw [if_neg fun h => inside h.2, dif_neg inside]
    exact .throw _

theorem runs_u32 (fits : offset + 4 < words) : Runs (u32 words p offset) (p.u32 offset) := by
  unfold u32
  refine .lift (Machine.add_eq fits) ?_
  simp only [within?, Packet.u32]
  by_cases inside : offset + 4 ≤ p.size
  · rw [if_pos ⟨by omega, inside⟩, dif_pos inside]
    have size : (p.extract offset (offset + 4)).size = 4 := by simp; omega
    refine .lift (Machine.index_eq (by omega)) (.lift (Machine.index_eq (by omega))
      (.lift (Machine.index_eq (by omega)) (.lift (Machine.index_eq (by omega)) ?_)))
    simp only [Array.getElem_extract]
    exact .pure _
  · rw [if_neg fun h => inside h.2, dif_neg inside]
    exact .throw _

end Words

section Names

def step (p : Packet) (pos : Nat) : Scan Name.Step :=
  match p[pos]? with
  | none => throw (.labelOverrun pos)
  | some lead =>
    if lead = 0 then return .stop
    else if lead < 0x40 then do
      let start ← add words pos 1
      let stop ← add words start lead.toNat
      match within? p start stop with
      | none => throw (.labelOverrun pos)
      | some raw => return .label raw
    else if lead < 0xC0 then throw (.badLabelType pos lead)
    else do
      let second ← add words pos 1
      match p[second]? with
      | none => throw (.labelOverrun pos)
      | some low =>
        let target := (lead.toNat - 0xC0) * 256 + low.toNat
        if target < p.size then return .jump target else throw (.pointerOutOfRange pos target)

theorem size_pos_of_step {words : Nat} {p : Packet} {pos : Nat} {raw : Array UInt8}
    (h : (step words p pos).run = .ok (.ok (.label raw))) : 0 < raw.size := by
  unfold step at h
  split at h
  · cases h
  · rename_i lead _
    split at h
    · cases h
    · rename_i nonzero
      split at h
      · obtain ⟨start, -, h⟩ := lift_eq_ok h
        obtain ⟨stop, length, h⟩ := lift_eq_ok h
        rw [Machine.eq_add length, within?_eq_slice?] at h
        split at h
        · cases h
        · rename_i found
          cases h
          rw [Packet.size_of_slice? found]
          exact Nat.pos_of_ne_zero fun zero => nonzero (UInt8.toNat_inj.1 zero)
      · split at h
        · cases h
        · obtain ⟨second, -, h⟩ := lift_eq_ok h
          split at h
          · cases h
          · dsimp only at h
            split at h <;> cases h

def walk (p : Packet) (pos used hops : Nat) : Scan (List String × Nat) :=
  match _ : (step words p pos).run with
  | .error fault => .mk (.error fault)
  | .ok (.error e) => throw e
  | .ok (.ok .stop) => do
    let ⟨next, _⟩ ← sum words pos 1
    return ([], next)
  | .ok (.ok (.label raw)) => do
    let ⟨start, _⟩ ← sum words pos 1
    let ⟨separated, _⟩ ← sum words used (if used = 0 then 0 else 1)
    let ⟨length, _⟩ ← sum words separated raw.size
    if Name.maxLength < length then throw (.nameTooLong Name.maxLength)
    else
      match Text.ofUtf8? raw with
      | none => throw (.invalidUtf8 start)
      | some label => do
        let ⟨next, _⟩ ← sum words start raw.size
        let (labels, stop) ← walk p next length hops
        return (label :: labels, stop)
  | .ok (.ok (.jump target)) => do
    let ⟨followed, _⟩ ← sum words hops 1
    if p.size < followed then throw (.pointerLoop pos)
    else
      let ⟨next, _⟩ ← sum words pos 2
      let (labels, _) ← walk p target used followed
      return (labels, next)
termination_by (p.size - hops) * (Name.maxLength + 1) + (Name.maxLength - used)
decreasing_by
  · have := size_pos_of_step ‹_›
    omega
  · rw [show p.size - hops = p.size - followed + 1 by omega, Nat.succ_mul]
    omega

def decode (p : Packet) (offset : Nat) : Scan (String × Nat) := do
  let (labels, next) ← walk words p offset 0 0
  return (Name.ofLabels labels, next)

section Runs

variable {words : Nat} {p : Packet} {pos used hops : Nat}

theorem runs_step (fits : p.Addressable words) (pos : Nat) :
    Runs (step words p pos) (Name.step p pos) := by
  unfold step Name.step
  cases hlead : p[pos]? with
  | none => exact .throw _
  | some lead =>
    have inside : pos < p.size := (Array.getElem?_eq_some_iff.1 hlead).1
    have byte : lead.toNat < 256 := lead.toNat_lt
    dsimp only
    split
    · exact .pure _
    · split
      · refine .lift (Machine.add_eq (fits.lt (by omega))) ?_
        refine .lift (Machine.add_eq (fits.lt (by omega))) ?_
        rw [within?_eq_slice?]
        cases p.slice? (pos + 1) lead.toNat with
        | none => exact .throw _
        | some raw => exact .pure _
      · split
        · exact .throw _
        · refine .lift (Machine.add_eq (fits.lt (by omega))) ?_
          cases p[pos + 1]? with
          | none => exact .throw _
          | some low =>
            dsimp only
            split
            · exact .pure _
            · exact .throw _

theorem runs_walk (fits : p.Addressable words) (pos : Nat) {used hops : Nat}
    (short : used ≤ Name.maxLength) (few : hops ≤ p.size) :
    Runs (walk words p pos used hops) (Name.walk p pos used hops) := by
  -- what stands at `pos` is read alike, and it tells which sums follow
  have hstep : (step words p pos).run = .ok (Name.step p pos) := runs_step fits pos
  have bounded : Name.maxLength = 255 := rfl
  rw [walk]
  split
  · rename_i broken
    cases broken.symm.trans hstep
  · rename_i e refused
    rw [Name.walk_of_error (Except.ok.inj (hstep.symm.trans refused))]
    exact .throw e
  · rename_i stops
    have stops := Except.ok.inj (hstep.symm.trans stops)
    have inside := (Array.getElem?_eq_some_iff.1 (Name.step_eq_stop_iff.1 stops)).1
    rw [Name.walk_of_stop stops]
    exact .lift (Machine.sum_eq (fits.lt (by omega))) (.pure _)
  · rename_i raw reads
    -- the label lies in the packet, and the text before it is no longer than a name
    have reads := Except.ok.inj (hstep.symm.trans reads)
    have inside := Name.label_inside reads
    refine .lift (Machine.sum_eq (fits.lt (by omega))) ?_
    refine .lift (Machine.sum_eq (fits.lt (by split <;> omega))) ?_
    refine .lift (Machine.sum_eq (fits.lt (by split <;> omega))) ?_
    dsimp only
    rw [← Name.extended_eq]
    split
    · rename_i long
      rw [Name.walk_of_long_label reads long]
      exact .throw _
    · rename_i short
      have short := Nat.le_of_not_lt short
      cases htext : Text.ofUtf8? raw with
      | none =>
        rw [Name.walk_of_malformed reads short htext]
        exact .throw _
      | some label =>
        rw [Name.walk_of_label reads htext short]
        refine .lift (Machine.sum_eq (fits.lt (by omega))) ?_
        exact .map (runs_walk fits _ short few) fun _ => rfl
  · rename_i target jumps
    -- no more pointers are followed than the packet has bytes
    have jumps := Except.ok.inj (hstep.symm.trans jumps)
    obtain ⟨high, low, lead, -, -, -, -⟩ := Name.step_eq_jump_iff.1 jumps
    have inside := (Array.getElem?_eq_some_iff.1 lead).1
    refine .lift (Machine.sum_eq (fits.lt (by omega))) ?_
    dsimp only
    split
    · rename_i spent
      rw [Name.walk_of_round jumps (by omega)]
      exact .throw _
    · rename_i left
      rw [Name.walk_of_jump jumps (by omega)]
      refine .lift (Machine.sum_eq (fits.lt (by omega))) ?_
      exact .map (runs_walk fits target short (by omega)) fun _ => rfl
termination_by (p.size - hops) * (Name.maxLength + 1) + (Name.maxLength - used)
decreasing_by
  · have := Name.lt_extended used inside.1
    omega
  · rw [show p.size - hops = p.size - (hops + 1) + 1 by omega, Nat.succ_mul]
    omega

theorem runs_decode (fits : p.Addressable words) (offset : Nat) :
    Runs (decode words p offset) (Name.decode p offset) := by
  rw [Name.decode_eq_map]
  exact .map (runs_walk fits offset (Nat.zero_le _) (Nat.zero_le _)) fun _ => rfl

end Runs

end Names

end Scan

end MulticastDns

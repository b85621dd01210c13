import MulticastDns.Name
import MulticastDns.Text.Utf8
import MulticastDns.Wire.Writer

namespace MulticastDns.Name

inductive Step
  | stop
  | label (raw : Array UInt8)
  | jump (target : Nat)

def step (p : Packet) (pos : Nat) : Except WireError Step :=
  match p[pos]? with
  | none => .error (.labelOverrun pos)
  | some lead =>
    if lead = 0 then .ok .stop
    else if lead < 0x40 then
      match p.slice? (pos + 1) lead.toNat with
      | none => .error (.labelOverrun pos)
      | some raw => .ok (.label raw)
    else if lead < 0xC0 then .error (.badLabelType pos lead)
    else
      match p[pos + 1]? with
      | none => .error (.labelOverrun pos)
      | some low =>
        let target := (lead.toNat - 0xC0) * 256 + low.toNat
        if target < p.size then .ok (.jump target) else .error (.pointerOutOfRange pos target)

theorem size_pos_of_step {p : Packet} {pos : Nat} {raw : Array UInt8}
    (h : step p pos = .ok (.label raw)) : 0 < raw.size := by
  unfold step at h
  split at h
  · cases h
  · rename_i lead _
    split at h
    · cases h
    · rename_i nonzero
      split at h
      · split at h
        · cases h
        · rename_i raw' hraw
          cases h
          rw [Packet.size_of_slice? hraw]
          exact Nat.pos_of_ne_zero fun z => nonzero (UInt8.toNat_inj.1 z)
      · split at h
        · cases h
        · split at h
          · cases h
          · dsimp only at h
            split at h <;> cases h

def extended (used n : Nat) : Nat := if used = 0 then n else used + 1 + n

theorem lt_extended (used : Nat) {n : Nat} (h : 0 < n) : used < extended used n := by
  unfold extended
  split <;> omega

/-- The labels from `pos` on, and where the name as it stands there ends: a pointer ends it,
wherever it leads. `used` is the length of the text before, `hops` the number of pointers followed
to come here; a walk that has followed as many as the packet has bytes goes round. -/
def walk (p : Packet) (pos used hops : Nat) : Except WireError (List String × Nat) :=
  match h : step p pos with
  | .error e => .error e
  | .ok .stop => .ok ([], pos + 1)
  | .ok (.label raw) =>
    if maxLength < extended used raw.size then .error (.nameTooLong maxLength)
    else
      match Text.ofUtf8? raw with
      | none => .error (.invalidUtf8 (pos + 1))
      | some label =>
        match walk p (pos + 1 + raw.size) (extended used raw.size) hops with
        | .error e => .error e
        | .ok (labels, next) => .ok (label :: labels, next)
  | .ok (.jump target) =>
    if p.size ≤ hops then .error (.pointerLoop pos)
    else
      match walk p target used (hops + 1) with
      | .error e => .error e
      | .ok (labels, _) => .ok (labels, pos + 2)
termination_by (p.size - hops) * (maxLength + 1) + (maxLength - used)
decreasing_by
  · have := lt_extended used (size_pos_of_step h)
    omega
  · rw [show p.size - hops = p.size - (hops + 1) + 1 by omega, Nat.succ_mul]
    omega

def decode (p : Packet) (offset : Nat) : Except WireError (String × Nat) :=
  match walk p offset 0 0 with
  | .error e => .error e
  | .ok (labels, next) => .ok (ofLabels labels, next)

def isLabel (label : String) : Bool := label ≠ "" ∧ label.utf8ByteSize ≤ maxLabelLength

def encodedLength : List String → Nat
  | [] => 1
  | label :: rest => label.utf8ByteSize + 1 + encodedLength rest

def labels (name : String) : Except WireError (List String) :=
  let name := dropDot name
  if name = "" then .ok []
  else
    let labels := parts name
    match labels.find? (!isLabel ·) with
    | some bad => .error (.invalidLabel bad)
    | none =>
      if maxLength < encodedLength labels then .error (.nameTooLong maxLength) else .ok labels

def labelBytes (label : String) : List UInt8 :=
  .ofNat label.utf8ByteSize :: Text.utf8 label

def encode (name : String) : Except WireError (List UInt8) :=
  match labels name with
  | .error e => .error e
  | .ok labels => .ok (labels.flatMap labelBytes ++ [0])

def emitLabels : List String → Emit Unit
  | [] => Emit.u8 0
  | label :: labels => do
    Emit.u8 (.ofNat label.utf8ByteSize)
    Emit.bytes (Text.utf8 label)
    emitLabels labels

/-- Writes a name where the cursor stands. If the room runs out, what was written stays. -/
def emit (name : String) : Emit Unit :=
  match labels name with
  | .error e => Emit.fail e
  | .ok labels => emitLabels labels

end MulticastDns.Name

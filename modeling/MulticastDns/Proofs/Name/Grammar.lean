import Mathlib.Data.List.Perm.Subperm
import MulticastDns.Proofs.Packet
import MulticastDns.Wire.Name

/-! Which bytes spell a name. A name is walked from its first byte, over labels and along pointers,
to a zero byte; reading follows that walk, and fails where there is none. -/

namespace MulticastDns.Name

/-- One move through a name: over a label, whose text it reads, or along a pointer. -/
inductive Move (p : Packet) : Nat → Option String → Nat → Prop
  | label {pos : Nat} {n : UInt8} {text : String} : p[pos]? = some n → 0 < n → n ≤ 63 →
      pos + 1 + n.toNat ≤ p.size →
      Text.utf8 text = (p.extract (pos + 1) (pos + 1 + n.toNat)).toList →
      Move p pos (some text) (pos + 1 + n.toNat)
  | pointer {pos target : Nat} {high low : UInt8} : p[pos]? = some high → 0xC0 ≤ high →
      p[pos + 1]? = some low → target = high.toNat % 64 * 256 + low.toNat → target < p.size →
      Move p pos none target

structure Visit where
  position : Nat
  label? : Option String

/-- The moves from `pos` to the zero byte at `stop`. -/
inductive Walk (p : Packet) : Nat → List Visit → Nat → Prop
  | stop {pos : Nat} : p[pos]? = some 0 → Walk p pos [] pos
  | move {pos next stop : Nat} {label? : Option String} {visits : List Visit} :
      Move p pos label? next → Walk p next visits stop → Walk p pos (⟨pos, label?⟩ :: visits) stop

/-- Moves from one position to another. Where they lead a name need not end. -/
inductive Path (p : Packet) : Nat → List Visit → Nat → Prop
  | stay (pos : Nat) : Path p pos [] pos
  | move {pos next last : Nat} {label? : Option String} {visits : List Visit} :
      Move p pos label? next → Path p next visits last → Path p pos (⟨pos, label?⟩ :: visits) last

def spelled (visits : List Visit) : List String := visits.filterMap (·.label?)

def behind (visits : List Visit) (stop : Nat) : Nat :=
  match visits.find? (·.label?.isNone) with
  | some pointer => pointer.position + 2
  | none => stop + 1

@[simp] theorem spelled_label (pos : Nat) (text : String) (visits : List Visit) :
    spelled (⟨pos, some text⟩ :: visits) = text :: spelled visits := rfl

@[simp] theorem spelled_pointer (pos : Nat) (visits : List Visit) :
    spelled (⟨pos, none⟩ :: visits) = spelled visits := rfl

@[simp] theorem behind_nil (stop : Nat) : behind [] stop = stop + 1 := rfl

@[simp] theorem behind_label (pos : Nat) (text : String) (visits : List Visit) (stop : Nat) :
    behind (⟨pos, some text⟩ :: visits) stop = behind visits stop := rfl

@[simp] theorem behind_pointer (pos : Nat) (visits : List Visit) (stop : Nat) :
    behind (⟨pos, none⟩ :: visits) stop = pos + 2 := rfl

section Step

variable {p : Packet} {pos : Nat}

theorem step_eq_stop_iff : step p pos = .ok .stop ↔ p[pos]? = some 0 := by
  constructor
  · intro h
    unfold step at h
    grind
  · intro h
    simp [step, h]

theorem step_eq_label_iff {raw : Array UInt8} :
    step p pos = .ok (.label raw) ↔
      ∃ n : UInt8, p[pos]? = some n ∧ 0 < n ∧ n ≤ 63 ∧
        p.slice? (pos + 1) n.toNat = some raw := by
  constructor
  · intro h
    unfold step at h
    split at h
    · cases h
    · rename_i n hn
      split at h
      · cases h
      · split at h
        · split at h
          · cases h
          · rename_i raw' hraw
            cases h
            exact ⟨n, hn, by grind, by grind, hraw⟩
        · grind
  · rintro ⟨n, hn, positive, small, hraw⟩
    have nonzero : n ≠ 0 := by grind
    have short : n < 0x40 := by grind
    simp [step, hn, nonzero, short, hraw]

theorem toNat_sub_high {high : UInt8} (h : 0xC0 ≤ high) :
    high.toNat - 0xC0 = high.toNat % 64 := by
  have := high.toNat_lt
  have : 0xC0 ≤ high.toNat := UInt8.le_iff_toNat_le.1 h
  omega

theorem step_eq_jump_iff {target : Nat} :
    step p pos = .ok (.jump target) ↔
      ∃ high low : UInt8, p[pos]? = some high ∧ 0xC0 ≤ high ∧ p[pos + 1]? = some low ∧
        target = high.toNat % 64 * 256 + low.toNat ∧ target < p.size := by
  constructor
  · intro h
    unfold step at h
    split at h
    · cases h
    · rename_i high hhigh
      split at h
      · cases h
      · split at h
        · split at h <;> cases h
        · split at h
          · cases h
          · rename_i notLow
            have large : 0xC0 ≤ high := by grind
            split at h
            · cases h
            · rename_i low hlow
              dsimp only at h
              rw [toNat_sub_high large] at h
              split at h
              · rename_i inside
                cases h
                exact ⟨high, low, hhigh, large, hlow, rfl, inside⟩
              · cases h
  · rintro ⟨high, low, hhigh, large, hlow, rfl, inside⟩
    have nonzero : high ≠ 0 := by grind
    have notLabel : ¬high < 0x40 := by grind
    have notReserved : ¬high < 0xC0 := by grind
    simp [step, hhigh, nonzero, notLabel, notReserved, hlow, toNat_sub_high large, inside]

theorem move_of_label {raw : Array UInt8} {text : String} (h : step p pos = .ok (.label raw))
    (k : Text.ofUtf8? raw = some text) : Move p pos (some text) (pos + 1 + raw.size) := by
  obtain ⟨n, hn, positive, small, hraw⟩ := step_eq_label_iff.1 h
  rw [Packet.size_of_slice? hraw]
  obtain ⟨fits, rfl⟩ := Packet.slice?_eq_some_iff.1 hraw
  exact .label hn positive small fits (Text.utf8_of_ofUtf8? k)

theorem move_of_jump {target : Nat} (h : step p pos = .ok (.jump target)) :
    Move p pos none target := by
  obtain ⟨high, low, hhigh, large, hlow, rfl, inside⟩ := step_eq_jump_iff.1 h
  exact .pointer hhigh large hlow rfl inside

theorem Move.unique {l m : Option String} {next next' : Nat} (h : Move p pos l next)
    (k : Move p pos m next') : l = m ∧ next = next' := by
  cases h with
  | label hn positive small fits htext =>
    cases k with
    | label hn' _ _ _ htext' =>
      cases hn.symm.trans hn'
      have := congrArg (fun bytes => Text.ofUtf8? bytes.toArray) (htext.trans htext'.symm)
      simp only [Text.ofUtf8?_utf8, Option.some.injEq] at this
      exact ⟨congrArg some this, rfl⟩
    | pointer hn' large => grind
  | pointer hn large hlow htarget inside =>
    cases k with
    | label hn' _ small => grind
    | pointer hn' _ hlow' htarget' =>
      cases hn.symm.trans hn'
      cases hlow.symm.trans hlow'
      exact ⟨rfl, htarget.trans htarget'.symm⟩

theorem Move.not_stop {l : Option String} {next : Nat} (h : Move p pos l next) :
    p[pos]? ≠ some 0 := by
  cases h <;> grind

theorem Move.position_lt {l : Option String} {next : Nat} (h : Move p pos l next) :
    pos < p.size := by
  cases h <;> grind

theorem Move.step_label {text : String} {next : Nat} (h : Move p pos (some text) next) :
    ∃ raw, step p pos = .ok (.label raw) ∧ Text.ofUtf8? raw = some text ∧
      raw.size = text.utf8ByteSize ∧ next = pos + 1 + raw.size := by
  cases h with
  | @label n _ hn positive small fits htext =>
    let raw := p.extract (pos + 1) (pos + 1 + n.toNat)
    have hraw : p.slice? (pos + 1) n.toNat = some raw :=
      Packet.slice?_eq_some_iff.2 ⟨fits, rfl⟩
    have length : raw.size = n.toNat := Packet.size_of_slice? hraw
    refine ⟨raw, step_eq_label_iff.2 ⟨n, hn, positive, small, hraw⟩, ?_, ?_, by rw [length]⟩
    · rw [← Text.ofUtf8?_utf8 text, htext, Array.toArray_toList]
    · rw [← Text.length_utf8, htext, Array.length_toList]

theorem Move.step_jump {next : Nat} (h : Move p pos none next) :
    step p pos = .ok (.jump next) ∧ pos + 2 ≤ p.size := by
  cases h with
  | pointer hhigh large hlow htarget inside =>
    exact ⟨step_eq_jump_iff.2 ⟨_, _, hhigh, large, hlow, htarget, inside⟩, by grind⟩

end Step

theorem Path.position_lt {p : Packet} {pos last : Nat} {visits : List Visit}
    (h : Path p pos visits last) {v : Visit} (hv : v ∈ visits) : v.position < p.size := by
  induction h with
  | stay => cases hv
  | move m _ ih =>
    rcases List.mem_cons.1 hv with rfl | hv
    · exact m.position_lt
    · exact ih hv

namespace Walk

variable {p : Packet} {pos stop : Nat} {visits : List Visit}

theorem unique (h : Walk p pos visits stop) {visits' : List Visit} {stop' : Nat}
    (k : Walk p pos visits' stop') : visits = visits' ∧ stop = stop' := by
  induction h generalizing visits' with
  | stop h =>
    cases k with
    | stop => exact ⟨rfl, rfl⟩
    | move m => exact absurd h m.not_stop
  | move m _ ih =>
    cases k with
    | stop k => exact absurd k m.not_stop
    | move m' k =>
      obtain ⟨rfl, rfl⟩ := m.unique m'
      obtain ⟨rfl, rfl⟩ := ih k
      exact ⟨rfl, rfl⟩

theorem from_visit (h : Walk p pos visits stop) {v : Visit} (hv : v ∈ visits) :
    ∃ later, Walk p v.position later stop ∧ later.length ≤ visits.length := by
  induction h with
  | stop => cases hv
  | @move pos _ _ l visits m rest ih =>
    rcases List.mem_cons.1 hv with rfl | hv
    · exact ⟨_, .move m rest, Nat.le_refl _⟩
    · obtain ⟨later, hlater, shorter⟩ := ih hv
      exact ⟨later, hlater, Nat.le_succ_of_le shorter⟩

theorem nodup_positions (h : Walk p pos visits stop) : (visits.map (·.position)).Nodup := by
  induction h with
  | stop => exact .nil
  | @move pos _ _ l visits m rest ih =>
    refine List.nodup_cons.2 ⟨fun again => ?_, ih⟩
    obtain ⟨v, hv, rfl⟩ := List.mem_map.1 again
    -- two walks from one place are the same, yet the one from the later visit is shorter
    obtain ⟨later, hlater, shorter⟩ := rest.from_visit hv
    obtain ⟨rfl, -⟩ := (Walk.move m rest).unique hlater
    exact absurd shorter (Nat.not_succ_le_self _)

theorem path (h : Walk p pos visits stop) : Path p pos visits stop := by
  induction h with
  | stop => exact .stay _
  | move m _ ih => exact .move m ih

theorem position_lt (h : Walk p pos visits stop) {v : Visit} (hv : v ∈ visits) :
    v.position < p.size :=
  h.path.position_lt hv

theorem length_le (h : Walk p pos visits stop) : visits.length ≤ p.size := by
  -- no position comes twice, and all of them are inside the packet
  have inside : visits.map (·.position) ⊆ List.range p.size := by
    intro i hi
    obtain ⟨v, hv, rfl⟩ := List.mem_map.1 hi
    exact List.mem_range.2 (h.position_lt hv)
  simpa using (h.nodup_positions.subperm inside).length_le

theorem behind_bounds (h : Walk p pos visits stop) :
    pos < behind visits stop ∧ behind visits stop ≤ p.size := by
  induction h with
  | stop h =>
    simp only [behind_nil]
    grind
  | @move pos next stop l visits m rest ih =>
    cases l with
    | none =>
      have := m.step_jump.2
      simp only [behind_pointer]
      omega
    | some text =>
      obtain ⟨_, -, -, -, hnext⟩ := m.step_label
      simp only [behind_label]
      omega

theorem ne_empty_of_mem_spelled (h : Walk p pos visits stop) {label : String}
    (hl : label ∈ spelled visits) : label ≠ "" := by
  induction h with
  | stop => cases hl
  | @move pos next stop l visits m rest ih =>
    cases l with
    | none => exact ih hl
    | some text =>
      rcases List.mem_cons.1 hl with rfl | hl
      · obtain ⟨raw, hstep, -, hsize, -⟩ := m.step_label
        have := size_pos_of_step hstep
        rintro rfl
        simp [hsize] at this
      · exact ih hl

end Walk

section Length

def extendedBy (used : Nat) : List String → Nat
  | [] => used
  | label :: labels => extendedBy (extended used label.utf8ByteSize) labels

theorem le_extendedBy (used : Nat) (labels : List String) : used ≤ extendedBy used labels := by
  induction labels generalizing used with
  | nil => exact Nat.le_refl used
  | cons label labels ih =>
    have : used ≤ extended used label.utf8ByteSize := by
      unfold extended
      split <;> omega
    exact Nat.le_trans this (ih _)

theorem extendedBy_pos {used : Nat} (h : 0 < used) (labels : List String) :
    extendedBy used labels + 1 = used + encodedLength labels := by
  induction labels generalizing used with
  | nil => rfl
  | cons label labels ih =>
    have longer : extended used label.utf8ByteSize = used + 1 + label.utf8ByteSize :=
      if_neg (Nat.ne_of_gt h)
    have positive : 0 < used + 1 + label.utf8ByteSize := by omega
    simp only [extendedBy, encodedLength, longer, ih positive]
    omega

theorem encodedLength_pos (labels : List String) : 0 < encodedLength labels := by
  cases labels with
  | nil => exact Nat.one_pos
  | cons label rest =>
    rw [encodedLength]
    omega

theorem utf8ByteSize_dotted (label : String) (labels : List String) :
    (dotted (label :: labels)).utf8ByteSize + 1 = label.utf8ByteSize + encodedLength labels := by
  induction labels generalizing label with
  | nil => rfl
  | cons next labels ih =>
    have : ".".utf8ByteSize = 1 := rfl
    simp only [dotted, String.utf8ByteSize_append, encodedLength, this]
    have := ih next
    omega

theorem extendedBy_zero {labels : List String} (h : ∀ label ∈ labels, label ≠ "") :
    extendedBy 0 labels = (dotted labels).utf8ByteSize := by
  cases labels with
  | nil => rfl
  | cons label labels =>
    have positive : 0 < label.utf8ByteSize :=
      Nat.pos_of_ne_zero fun z => h label (by simp) (String.utf8ByteSize_eq_zero_iff.1 z)
    have first : extended 0 label.utf8ByteSize = label.utf8ByteSize := rfl
    have := extendedBy_pos positive labels
    have := utf8ByteSize_dotted label labels
    simp only [extendedBy, first]
    omega

end Length

section Reading

variable {p : Packet} {pos used hops : Nat}

theorem walk_of_stop (h : step p pos = .ok .stop) : walk p pos used hops = .ok ([], pos + 1) := by
  rw [walk]
  split <;> simp_all

theorem walk_of_label {raw : Array UInt8} {text : String} (h : step p pos = .ok (.label raw))
    (k : Text.ofUtf8? raw = some text) (fits : extended used raw.size ≤ maxLength) :
    walk p pos used hops =
      (walk p (pos + 1 + raw.size) (extended used raw.size) hops).map
        fun rest => (text :: rest.1, rest.2) := by
  rw [walk]
  split <;> simp_all only [reduceCtorEq, Except.ok.injEq, Step.label.injEq, Nat.not_lt.2 fits,
    if_false]
  cases walk p (pos + 1 + raw.size) (extended used raw.size) hops <;> rfl

theorem walk_of_long_label {raw : Array UInt8} (h : step p pos = .ok (.label raw))
    (long : maxLength < extended used raw.size) :
    walk p pos used hops = .error (.nameTooLong maxLength) := by
  rw [walk]
  split <;> simp_all

theorem walk_of_error {e : WireError} (h : step p pos = .error e) :
    walk p pos used hops = .error e := by
  rw [walk]
  split <;> simp_all

theorem walk_of_malformed {raw : Array UInt8} (h : step p pos = .ok (.label raw))
    (fits : extended used raw.size ≤ maxLength) (k : Text.ofUtf8? raw = none) :
    walk p pos used hops = .error (.invalidUtf8 (pos + 1)) := by
  rw [walk]
  split <;> simp_all [Nat.not_lt.2 fits]

theorem walk_of_jump {target : Nat} (h : step p pos = .ok (.jump target)) (budget : hops < p.size) :
    walk p pos used hops = (walk p target used (hops + 1)).map fun rest => (rest.1, pos + 2) := by
  rw [walk]
  split <;> simp_all only [reduceCtorEq, Except.ok.injEq, Step.jump.injEq, Nat.not_le.2 budget,
    if_false]
  cases walk p target used (hops + 1) <;> rfl

theorem walk_of_round {target : Nat} (h : step p pos = .ok (.jump target))
    (spent : p.size ≤ hops) : walk p pos used hops = .error (.pointerLoop pos) := by
  rw [walk]
  split <;> simp_all

theorem walk_of_walk {stop : Nat} {visits : List Visit} (h : Walk p pos visits stop)
    (hused : used ≤ maxLength) (hhops : hops + visits.length ≤ p.size) :
    walk p pos used hops =
      if extendedBy used (spelled visits) ≤ maxLength then
        .ok (spelled visits, behind visits stop)
      else .error (.nameTooLong maxLength) := by
  induction h generalizing used hops with
  | stop h =>
    rw [walk_of_stop (step_eq_stop_iff.2 h)]
    exact (if_pos hused).symm
  | @move pos next stop l visits m rest ih =>
    rw [List.length_cons] at hhops
    cases l with
    | none =>
      rw [walk_of_jump m.step_jump.1 (by omega), ih hused (by omega)]
      rw [apply_ite (Except.map _)]
      rfl
    | some text =>
      obtain ⟨raw, hstep, htext, hsize, rfl⟩ := m.step_label
      simp only [spelled_label, behind_label, extendedBy, ← hsize]
      by_cases fits : extended used raw.size ≤ maxLength
      · rw [walk_of_label hstep htext fits, ih fits (by omega), apply_ite (Except.map _)]
        rfl
      · have := le_extendedBy (extended used raw.size) (spelled visits)
        rw [walk_of_long_label hstep (by omega), if_neg (by omega)]

theorem exists_walk_of_walk {labels : List String} {next : Nat}
    (h : walk p pos used hops = .ok (labels, next)) (hused : used ≤ maxLength) :
    ∃ visits stop, Walk p pos visits stop ∧ extendedBy used labels ≤ maxLength ∧
      labels = spelled visits ∧ next = behind visits stop := by
  fun_induction walk p pos used hops generalizing labels next with
  | case2 pos used hops hstep =>
    cases h
    exact ⟨[], pos, .stop (step_eq_stop_iff.1 hstep), hused, rfl, rfl⟩
  | case6 pos used hops raw hstep fits text htext labels' next' hrest ih =>
    cases h
    obtain ⟨visits, stop, rest, short, rfl, rfl⟩ := ih hrest (by omega)
    refine ⟨_, stop, .move (move_of_label hstep htext) rest, ?_, rfl, rfl⟩
    rwa [extendedBy, ← Text.length_utf8, Text.utf8_of_ofUtf8? htext, Array.length_toList]
  | case9 pos used hops target hstep budget labels' next' hrest ih =>
    cases h
    obtain ⟨visits, stop, rest, short, rfl, rfl⟩ := ih hrest hused
    exact ⟨_, stop, .move (move_of_jump hstep) rest, short, rfl, rfl⟩
  | _ => cases h

theorem decode_eq_map (p : Packet) (offset : Nat) :
    decode p offset = (walk p offset 0 0).map fun name => (ofLabels name.1, name.2) := by
  unfold decode
  cases walk p offset 0 0 <;> rfl

theorem decode_of_walk {offset stop : Nat} {visits : List Visit} (h : Walk p offset visits stop) :
    decode p offset =
      if (dotted (spelled visits)).utf8ByteSize ≤ maxLength then
        .ok (ofLabels (spelled visits), behind visits stop)
      else .error (.nameTooLong maxLength) := by
  have length := extendedBy_zero fun _ hl => h.ne_empty_of_mem_spelled hl
  rw [decode_eq_map, walk_of_walk h (Nat.zero_le _) (by simpa using h.length_le), length,
    apply_ite (Except.map _)]
  rfl

theorem exists_walk_of_decode {offset next : Nat} {name : String}
    (h : decode p offset = .ok (name, next)) :
    ∃ visits stop, Walk p offset visits stop ∧
      (dotted (spelled visits)).utf8ByteSize ≤ maxLength ∧
      name = ofLabels (spelled visits) ∧ next = behind visits stop := by
  rw [decode] at h
  split at h
  · cases h
  · rename_i labels next' hwalk
    cases h
    obtain ⟨visits, stop, hv, short, rfl, rfl⟩ := exists_walk_of_walk hwalk (Nat.zero_le _)
    rw [extendedBy_zero fun _ hl => hv.ne_empty_of_mem_spelled hl] at short
    exact ⟨visits, stop, hv, short, rfl, rfl⟩

theorem utf8ByteSize_of_decode {offset next : Nat} {name : String}
    (h : decode p offset = .ok (name, next)) : name.utf8ByteSize ≤ maxLength := by
  obtain ⟨visits, stop, -, short, rfl, -⟩ := exists_walk_of_decode h
  cases labels : spelled visits with
  | nil => decide
  | cons label labels' => rwa [labels] at short

theorem bounds_of_decode {offset next : Nat} {name : String}
    (h : decode p offset = .ok (name, next)) : offset < next ∧ next ≤ p.size := by
  obtain ⟨visits, stop, walk, -, -, rfl⟩ := exists_walk_of_decode h
  exact walk.behind_bounds

theorem decode_of_pointer {target next : Nat} {high low : UInt8} {name : String}
    (hhigh : p[pos]? = some high) (large : 0xC0 ≤ high) (hlow : p[pos + 1]? = some low)
    (htarget : target = high.toNat % 64 * 256 + low.toNat)
    (h : decode p target = .ok (name, next)) : decode p pos = .ok (name, pos + 2) := by
  obtain ⟨visits, stop, walk, short, rfl, rfl⟩ := exists_walk_of_decode h
  have inside := Nat.lt_of_lt_of_le walk.behind_bounds.1 walk.behind_bounds.2
  rw [decode_of_walk (.move (.pointer hhigh large hlow htarget inside) walk), spelled_pointer,
    if_pos short, behind_pointer]

end Reading

/-- Reading a name accepts exactly the bytes that spell one of at most 255 bytes of text. What it
reads takes at least a byte and ends inside the packet, and a name that has a walk is never taken
for a loop. -/
theorem decode_eq_ok_iff (p : Packet) (offset : Nat) :
    (∀ name next, decode p offset = .ok (name, next) ↔
      ∃ visits stop, Walk p offset visits stop ∧
        (dotted (spelled visits)).utf8ByteSize ≤ maxLength ∧
        name = ofLabels (spelled visits) ∧ next = behind visits stop) ∧
    (∀ name next, decode p offset = .ok (name, next) → offset < next ∧ next ≤ p.size) ∧
    ∀ visits stop, Walk p offset visits stop →
      ∀ pos, decode p offset ≠ .error (.pointerLoop pos) := by
  refine ⟨fun name next => ⟨exists_walk_of_decode, ?_⟩, fun name next h => ?_,
    fun visits stop h pos => ?_⟩
  · rintro ⟨visits, stop, h, short, rfl, rfl⟩
    rw [decode_of_walk h, if_pos short]
  · obtain ⟨visits, stop, hv, -, -, rfl⟩ := exists_walk_of_decode h
    exact hv.behind_bounds
  · rw [decode_of_walk h]
    split <;> simp

example : (decode #[1, 97, 0, 0xC0, 0, 0xC0, 3] 5).toOption = some ("a", 7) := by decide +kernel

end MulticastDns.Name

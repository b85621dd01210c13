import Mathlib.Algebra.Group.Nat.Defs
import MulticastDns.Proofs.Name.Spelling
import MulticastDns.Text.Hex
import MulticastDns.Text.Json

namespace MulticastDns

namespace Text

def isControl (c : Char) : Bool := c.toNat < 0x20

def controls (s : String) : List Char := s.toList.filter isControl

theorem controls_eq_nil_iff {s : String} :
    controls s = [] ↔ ∀ c ∈ s.toList, isControl c = false := by
  simp only [controls, List.filter_eq_nil_iff, Bool.not_eq_true]

@[simp] theorem controls_append (s t : String) : controls (s ++ t) = controls s ++ controls t := by
  rw [controls, String.toList_append, List.filter_append]
  rfl

@[simp] theorem controls_join (ss : List String) :
    controls (String.join ss) = ss.flatMap controls := by
  rw [controls, String.toList_join, List.filter_flatMap]
  rfl

theorem controls_intercalate {sep : String} (clean : controls sep = []) (ss : List String) :
    controls (sep.intercalate ss) = ss.flatMap controls := by
  induction ss with
  | nil =>
    rw [String.intercalate_nil]
    rfl
  | cons s ss ih =>
    cases ss with
    | nil => simp
    | cons t ss =>
      rw [String.intercalate_cons_cons, controls_append, controls_append, clean, ih,
        List.append_nil, ← List.flatMap_cons]

theorem controls_intercalate_eq_nil {sep : String} (clean : controls sep = []) {ss : List String}
    (pieces : ∀ s ∈ ss, controls s = []) : controls (sep.intercalate ss) = [] := by
  rw [controls_intercalate clean]
  exact List.flatMap_eq_nil_iff.2 pieces

section Numerals

theorem exists_digit_of_mem_toDigits {base : Nat} (big : 1 < base) {n : Nat} {c : Char}
    (h : c ∈ Nat.toDigits base n) : ∃ digit, c = Nat.digitChar digit := by
  induction n using Nat.strongRecOn with
  | ind n ih =>
    by_cases small : n < base
    · rw [Nat.toDigits_of_lt_base small, List.mem_singleton] at h
      exact ⟨n, h⟩
    · have least : base ≤ n := Nat.le_of_not_lt small
      rw [Nat.toDigits_of_base_le big least, List.mem_append, List.mem_singleton] at h
      rcases h with front | last
      · exact ih (n / base) (Nat.div_lt_self (by omega) big) front
      · exact ⟨_, last⟩

theorem isControl_digitChar (digit : Nat) : isControl (Nat.digitChar digit) = false := by
  by_cases small : digit < 16
  · have digits : ∀ n < 16, isControl (Nat.digitChar n) = false := by decide
    exact digits digit small
  · have star : Nat.digitChar digit = '*' := by
      unfold Nat.digitChar
      repeat rw [if_neg (by omega)]
    rw [star]
    rfl

theorem isControl_of_mem_toDigits {base : Nat} (big : 1 < base) {n : Nat} {c : Char}
    (h : c ∈ Nat.toDigits base n) : isControl c = false := by
  obtain ⟨digit, rfl⟩ := exists_digit_of_mem_toDigits big h
  exact isControl_digitChar digit

@[simp] theorem controls_toString (n : Nat) : controls (toString n) = [] := by
  rw [controls_eq_nil_iff, Nat.toString_eq_ofList_toDigits, String.toList_ofList]
  exact fun c => isControl_of_mem_toDigits (by decide)

@[simp] theorem controls_hex (n : Nat) : controls (hex n) = [] := by
  rw [controls_eq_nil_iff, hex, String.toList_ofList]
  exact fun c => isControl_of_mem_toDigits (by decide)

@[simp] theorem controls_hexPadded (width n : Nat) : controls (hexPadded width n) = [] := by
  rw [controls_eq_nil_iff, hexPadded, String.toList_ofList, List.leftpad]
  intro c h
  rcases List.mem_append.1 h with zero | digit
  · rw [List.eq_of_mem_replicate zero]
    rfl
  · exact isControl_of_mem_toDigits (by decide) digit

end Numerals

section Bytes

theorem toNat_ofNat_of_valid {n : Nat} (valid : n.isValidChar) : (Char.ofNat n).toNat = n := by
  rw [Char.ofNat, dif_pos valid]
  rfl

theorem toNat_ofNat_of_low {b : UInt8} (low : b < 0x20) : (Char.ofNat b.toNat).toNat = b.toNat := by
  have small : b.toNat < 0x20 := UInt8.lt_iff_toNat_lt.1 low
  exact toNat_ofNat_of_valid (.inl (by omega))

def controlBytes (bytes : List UInt8) : List Char :=
  (bytes.filter (· < 0x20)).map fun b => Char.ofNat b.toNat

theorem controlBytes_append (bytes more : List UInt8) :
    controlBytes (bytes ++ more) = controlBytes bytes ++ controlBytes more := by
  simp only [controlBytes, List.filter_append, List.map_append]

theorem controlBytes_of_ge {bytes : List UInt8} (h : ∀ b ∈ bytes, 0x20 ≤ b.toNat) :
    controlBytes bytes = [] := by
  rw [controlBytes, List.map_eq_nil_iff, List.filter_eq_nil_iff]
  intro b hb
  have := h b hb
  simp only [decide_eq_true_eq, UInt8.lt_iff_toNat_lt, UInt8.reduceToNat]
  omega

theorem mem_controlBytes_iff {b : UInt8} (low : b < 0x20) {bytes : List UInt8} :
    Char.ofNat b.toNat ∈ controlBytes bytes ↔ b ∈ bytes := by
  simp only [controlBytes, List.mem_map, List.mem_filter, decide_eq_true_eq]
  constructor
  · rintro ⟨other, ⟨mem, small⟩, same⟩
    have values := congrArg Char.toNat same
    rw [toNat_ofNat_of_low small, toNat_ofNat_of_low low] at values
    rwa [← UInt8.toNat_inj.1 values]
  · exact fun mem => ⟨b, ⟨mem, low⟩, rfl⟩

theorem controlBytes_utf8EncodeChar (c : Char) :
    controlBytes (String.utf8EncodeChar c) = [c].filter isControl := by
  by_cases ascii : c.toNat < 0x80
  · have value : (UInt8.ofNat c.toNat).toNat = c.toNat :=
      UInt8.toNat_ofNat_of_lt' (Nat.lt_trans ascii (by decide))
    rw [utf8EncodeChar_of_ascii ascii]
    by_cases low : c.toNat < 0x20
    · simp [controlBytes, isControl, UInt8.lt_iff_toNat_lt, value, low]
    · simp [controlBytes, isControl, UInt8.lt_iff_toNat_lt, value, low]
  · have high : ∀ b ∈ String.utf8EncodeChar c, 0x20 ≤ b.toNat := fun b hb =>
      Nat.le_trans (by decide) (ge_of_mem_utf8EncodeChar (Nat.not_lt.1 ascii) hb)
    have shown : isControl c = false := decide_eq_false (by omega)
    rw [controlBytes_of_ge high, List.filter_cons_of_neg (by simp [shown])]
    rfl

theorem controls_eq_controlBytes (s : String) : controls s = controlBytes (utf8 s) := by
  rw [controls, utf8_eq_flatMap]
  induction s.toList with
  | nil => rfl
  | cons c cs ih =>
    rw [List.flatMap_cons, controlBytes_append, ← ih, controlBytes_utf8EncodeChar,
      ← List.filter_append]
    rfl

namespace Lossy

/-- Whatever bytes complete the character that the reader is in, it is one beyond ASCII. -/
def Completes : Nat → UInt8 → UInt8 → Nat → Prop
  | 0, _, _, _ => False
  | owed + 1, low, high, bits => ∀ b : UInt8, low ≤ b → b ≤ high →
      0x80 ≤ b.toNat ∧
        let value := bits * 64 + (b.toNat - 0x80)
        if owed = 0 then 0x80 ≤ value ∧ value.isValidChar else Completes owed 0x80 0xBF value

def Sound : State → Prop
  | .between => True
  | .within owed low high bits => Completes owed low high bits

theorem completes_of_bounds {owed : Nat} {low high : UInt8} {bits : Nat} (cont : 0x80 ≤ low.toNat)
    (least : 0x80 ≤ (bits * 64 + (low.toNat - 0x80)) * 64 ^ owed)
    (valid : (bits * 64 + (high.toNat - 0x80) + 1) * 64 ^ owed ≤ 0xD800 ∨
      0xE000 ≤ (bits * 64 + (low.toNat - 0x80)) * 64 ^ owed ∧
        (bits * 64 + (high.toNat - 0x80) + 1) * 64 ^ owed ≤ 0x110000) :
    Completes (owed + 1) low high bits := by
  induction owed generalizing low high bits with
  | zero =>
    intro b above below
    rw [UInt8.le_iff_toNat_le] at above below
    refine ⟨Nat.le_trans cont above, ?_⟩
    simp only [Nat.pow_zero, Nat.mul_one] at least valid
    simp only [if_pos, Nat.isValidChar]
    omega
  | succ owed ih =>
    intro b above below
    rw [UInt8.le_iff_toNat_le] at above below
    have fewest : (bits * 64 + (low.toNat - 0x80)) * 64 ^ (owed + 1) ≤
        (bits * 64 + (b.toNat - 0x80)) * 64 ^ (owed + 1) := Nat.mul_le_mul_right _ (by omega)
    have most : (bits * 64 + (b.toNat - 0x80) + 1) * 64 ^ (owed + 1) ≤
        (bits * 64 + (high.toNat - 0x80) + 1) * 64 ^ (owed + 1) :=
      Nat.mul_le_mul_right _ (by omega)
    have scaled (n : Nat) : n * 64 * 64 ^ owed = n * 64 ^ (owed + 1) := by
      rw [Nat.pow_succ', Nat.mul_assoc]
    refine ⟨Nat.le_trans cont above, ?_⟩
    dsimp only
    rw [if_neg (Nat.succ_ne_zero owed)]
    apply ih (by decide)
    · simp only [UInt8.reduceToNat, Nat.sub_self, Nat.add_zero, scaled]
      omega
    · simp only [UInt8.reduceToNat, Nat.sub_self, Nat.add_zero, scaled]
      have next : (bits * 64 + (b.toNat - 0x80)) * 64 + (0xBF - 0x80) + 1 =
        (bits * 64 + (b.toNat - 0x80) + 1) * 64 := by omega
      rw [next, scaled]
      omega

theorem sound_first (b : UInt8) : Sound (first b).2 := by
  unfold first
  simp only [UInt8.lt_iff_toNat_lt, ← UInt8.toNat_inj, UInt8.reduceToNat]
  -- in between: the first byte of two, of three (with 0xE0 and 0xED apart) and of four (0xF0, 0xF4)
  split_ifs
  · trivial
  · trivial
  · apply completes_of_bounds (by decide) <;> simp only [UInt8.reduceToNat, Nat.reducePow] <;>
      omega
  · exact completes_of_bounds (by decide) (by decide) (by decide)
  · exact completes_of_bounds (by decide) (by decide) (by decide)
  · apply completes_of_bounds (by decide) <;> simp only [UInt8.reduceToNat, Nat.reducePow] <;>
      omega
  · exact completes_of_bounds (by decide) (by decide) (by decide)
  · apply completes_of_bounds (by decide) <;> simp only [UInt8.reduceToNat, Nat.reducePow] <;>
      omega
  · exact completes_of_bounds (by decide) (by decide) (by decide)
  · trivial

theorem filter_isControl_first (b : UInt8) : (first b).1.filter isControl = controlBytes [b] := by
  by_cases ascii : b < 0x80
  · have only : first b = ([Char.ofNat b.toNat], .between) := if_pos ascii
    have small : b.toNat < 0x80 := UInt8.lt_iff_toNat_lt.1 ascii
    have value : (Char.ofNat b.toNat).toNat = b.toNat := toNat_ofNat_of_valid (.inl (by omega))
    have alone : String.utf8EncodeChar (Char.ofNat b.toNat) = [b] := by
      rw [utf8EncodeChar_of_ascii (by rwa [value]), value, UInt8.ofNat_toNat]
    rw [only, ← alone, controlBytes_utf8EncodeChar]
  · have high : 0x80 ≤ b.toNat := Nat.not_lt.1 (UInt8.lt_iff_toNat_lt.not.1 ascii)
    rw [controlBytes_of_ge (by simp; omega)]
    unfold first
    rw [if_neg ascii]
    split_ifs <;> rfl

theorem filter_isControl_read {state : State} (sound : Sound state) (bytes : List UInt8) :
    (read state bytes).filter isControl = controlBytes bytes := by
  induction bytes generalizing state with
  | nil => cases state <;> rfl
  | cons b rest ih =>
    -- a byte that continues no character is read afresh, between characters and inside one
    have fresh : ((first b).1 ++ read (first b).2 rest).filter isControl =
        controlBytes (b :: rest) := by
      rw [List.filter_append, filter_isControl_first, ih (sound_first b), ← controlBytes_append]
      rfl
    cases state with
    | between => exact fresh
    | within owed low high bits =>
      cases owed with
      | zero => exact sound.elim
      | succ owed =>
        rw [read]
        split
        · rename_i inside
          -- a byte that does is no control, and neither is the character it may complete
          obtain ⟨beyond, complete⟩ := sound b inside.1 inside.2
          have quiet : controlBytes (b :: rest) = controlBytes rest := by
            rw [← List.singleton_append, controlBytes_append, controlBytes_of_ge (by simp; omega)]
            rfl
          dsimp only
          split
          · rename_i last
            obtain rfl : owed = 0 := by omega
            rw [if_pos rfl] at complete
            have shown : isControl (Char.ofNat (bits * 64 + (b.toNat - 0x80))) = false := by
              rw [isControl, toNat_ofNat_of_valid complete.2]
              exact decide_eq_false (by omega)
            rw [List.filter_cons_of_neg (by simp [shown]), quiet]
            exact ih (show Sound .between from trivial)
          · rename_i more
            rw [if_neg (by omega)] at complete
            rw [quiet]
            exact ih complete
        · exact fresh

end Lossy

theorem controls_ofUtf8Lossy (bytes : Array UInt8) :
    controls (ofUtf8Lossy bytes) = controlBytes bytes.toList := by
  unfold ofUtf8Lossy
  cases h : ofUtf8? bytes with
  | some s => exact (controls_eq_controlBytes s).trans (by rw [utf8_of_ofUtf8? h])
  | none =>
    dsimp only
    rw [controls, String.toList_ofList]
    exact Lossy.filter_isControl_read (show Lossy.Sound .between from trivial) bytes.toList

end Bytes

end Text

namespace Name

theorem controls_dotted (labels : List String) :
    Text.controls (dotted labels) = labels.flatMap Text.controls := by
  induction labels with
  | nil => rfl
  | cons label labels ih =>
    cases labels with
    | nil => simp [dotted]
    | cons next labels =>
      have dot : Text.controls "." = [] := rfl
      change Text.controls (label ++ "." ++ dotted (next :: labels)) = _
      rw [Text.controls_append, Text.controls_append, dot, ih, List.append_nil,
        ← List.flatMap_cons]

theorem controls_ofLabels (labels : List String) :
    Text.controls (ofLabels labels) = labels.flatMap Text.controls := by
  cases labels with
  | nil => rfl
  | cons label labels => rw [ofLabels_cons, controls_dotted]

end Name

namespace Text

namespace Json

theorem controls_escape (c : Char) : controls (escape c) = [] := by
  unfold escape
  split_ifs with _ _ _ _ _ _ _ low
  · rfl
  · rfl
  · rfl
  · rfl
  · rfl
  · rfl
  · rfl
  · rw [controls_append, controls_hexPadded]
    rfl
  · rw [controls_eq_nil_iff]
    intro d h
    obtain rfl : d = c := by simpa using h
    exact decide_eq_false low

theorem controls_quote (s : String) : controls (quote s) = [] := by
  have clean : (s.toList.map escape).flatMap controls = [] := by
    simp only [List.flatMap_eq_nil_iff, List.forall_mem_map, controls_escape, implies_true]
  rw [quote, controls_append, controls_append, controls_join, clean]
  rfl

mutual

theorem controls_render : ∀ j : Json, controls j.render = []
  | .bool true => rfl
  | .bool false => rfl
  | .number n => by rw [render, controls_toString]
  | .text s => by rw [render, controls_quote]
  | .array items => by
    rw [render, controls_append, controls_append, controls_intercalate rfl,
      flatMap_controls_renderItems items]
    rfl
  | .object fields => by
    rw [render, controls_append, controls_append, controls_intercalate rfl,
      flatMap_controls_renderFields fields]
    rfl

theorem flatMap_controls_renderItems : ∀ items, (renderItems items).flatMap controls = []
  | [] => by rw [renderItems]; rfl
  | item :: rest => by
    rw [renderItems, List.flatMap_cons, controls_render item, flatMap_controls_renderItems rest]
    rfl

theorem flatMap_controls_renderFields : ∀ fields, (renderFields fields).flatMap controls = []
  | [] => by rw [renderFields]; rfl
  | (name, value) :: rest => by
    rw [renderFields, List.flatMap_cons, controls_append, controls_append, controls_quote,
      controls_render value, flatMap_controls_renderFields rest]
    rfl

end

end Json

end Text

end MulticastDns

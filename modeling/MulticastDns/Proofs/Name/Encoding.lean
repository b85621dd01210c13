import MulticastDns.Proofs.Name.Grammar
import MulticastDns.Proofs.Packet

namespace MulticastDns.Name

/-- The name as it is read back: without a trailing dot, and the root as a single dot. -/
def canonical (name : String) : String := if dropDot name = "" then "." else dropDot name

def wireForm (labels : List String) : List UInt8 := labels.flatMap labelBytes ++ [0]

theorem isLabel_iff {label : String} :
    isLabel label = true ↔ 0 < label.utf8ByteSize ∧ label.utf8ByteSize ≤ maxLabelLength := by
  rw [isLabel, decide_eq_true_iff, Nat.pos_iff_ne_zero, ne_eq, ne_eq,
    String.utf8ByteSize_eq_zero_iff]

@[simp] theorem length_labelBytes (label : String) :
    (labelBytes label).length = label.utf8ByteSize + 1 := by
  simp [labelBytes]

theorem wireForm_cons (label : String) (labels : List String) :
    wireForm (label :: labels) = labelBytes label ++ wireForm labels := by
  simp [wireForm]

@[simp] theorem length_wireForm (labels : List String) :
    (wireForm labels).length = encodedLength labels := by
  induction labels with
  | nil => rfl
  | cons label labels ih => rw [wireForm_cons, List.length_append, ih, length_labelBytes]; rfl

theorem encodedLength_cons (label : String) (labels : List String) :
    encodedLength (label :: labels) = (dotted (label :: labels)).utf8ByteSize + 2 := by
  have := utf8ByteSize_dotted label labels
  rw [encodedLength]
  omega

theorem utf8ByteSize_dotted_lt (labels : List String) :
    (dotted labels).utf8ByteSize < encodedLength labels := by
  cases labels with
  | nil => decide
  | cons label labels =>
    rw [encodedLength_cons]
    omega

theorem dotted_map_ofList (cs : List (List Char)) :
    dotted (cs.map String.ofList) = String.ofList (['.'].intercalate cs) := by
  induction cs with
  | nil => rfl
  | cons c cs ih =>
    cases cs with
    | nil => simp [dotted]
    | cons d cs =>
      simp only [List.map_cons, dotted] at ih ⊢
      rw [ih, List.intercalate_cons_cons]
      apply String.toList_inj.1
      simp

theorem dotted_parts (name : String) : dotted (parts name) = name := by
  rw [parts, dotted_map_ofList, List.intercalate_splitOn, String.ofList_toList]

theorem ofLabels_parts (name : String) : ofLabels (parts name) = name := by
  have := dotted_parts name
  cases h : parts name with
  | nil => exact absurd h (by simp [parts, List.splitOn_ne_nil])
  | cons label labels => rw [ofLabels_cons, ← h, this]

theorem labels_eq_ok {name : String} {ls : List String} (h : labels name = .ok ls) :
    (∀ label ∈ ls, isLabel label = true) ∧ encodedLength ls ≤ maxLength ∧
      ofLabels ls = canonical name := by
  unfold labels at h
  dsimp only at h
  split at h
  · rename_i root
    cases h
    exact ⟨by simp, by decide, by simp [ofLabels, canonical, root]⟩
  · rename_i notRoot
    split at h
    · cases h
    · rename_i good
      split at h
      · cases h
      · rename_i short
        cases h
        refine ⟨fun label hl => ?_, Nat.not_lt.1 short, ?_⟩
        · simpa using List.find?_eq_none.1 good label hl
        · rw [canonical, if_neg notRoot, ofLabels_parts]

theorem exists_labels_of_encode {name : String} {bytes : List UInt8}
    (h : encode name = .ok bytes) : ∃ ls, labels name = .ok ls ∧ bytes = wireForm ls := by
  unfold encode at h
  split at h
  · cases h
  · cases h
    exact ⟨_, ‹_›, rfl⟩

theorem length_of_encode {name : String} {bytes : List UInt8} (h : encode name = .ok bytes) :
    0 < bytes.length ∧ bytes.length ≤ maxLength := by
  obtain ⟨ls, hls, rfl⟩ := exists_labels_of_encode h
  rw [length_wireForm]
  refine ⟨?_, (labels_eq_ok hls).2.1⟩
  cases ls with
  | nil => decide
  | cons label ls => exact Nat.lt_of_lt_of_le (Nat.succ_pos _) (Nat.le_add_right _ _)

section Reading

variable {p : Packet} {pos : Nat}

theorem move_of_holds {label : String} (good : isLabel label = true)
    (h : p.Holds pos (labelBytes label)) :
    Move p pos (some label) (pos + (labelBytes label).length) := by
  obtain ⟨lead, text⟩ := Packet.holds_cons.1 h
  obtain ⟨positive, short⟩ := isLabel_iff.1 good
  have value : (UInt8.ofNat label.utf8ByteSize).toNat = label.utf8ByteSize :=
    UInt8.toNat_ofNat_of_lt' (Nat.lt_of_le_of_lt short (by decide))
  have inside := text.size_le
  have move : Move p pos (some label)
      (pos + 1 + (UInt8.ofNat label.utf8ByteSize).toNat) := by
    refine .label lead.getElem?_eq ?_ ?_ ?_ ?_
    · rw [UInt8.lt_iff_toNat_lt, value]
      exact positive
    · rw [UInt8.le_iff_toNat_le, value]
      exact short
    · rwa [value, ← Text.length_utf8]
    · rw [value, ← Text.length_utf8, text.extract_eq]
  rw [length_labelBytes, Nat.add_comm label.utf8ByteSize, ← Nat.add_assoc]
  rwa [value] at move

theorem walk_of_holds {ls : List String} (good : ∀ label ∈ ls, isLabel label = true)
    (h : p.Holds pos (wireForm ls)) :
    ∃ visits stop, Walk p pos visits stop ∧ spelled visits = ls ∧
      behind visits stop = pos + (wireForm ls).length := by
  induction ls generalizing pos with
  | nil => exact ⟨[], pos, .stop h.getElem?_eq, rfl, rfl⟩
  | cons label ls ih =>
    rw [wireForm_cons, Packet.holds_append] at h
    have move := move_of_holds (good label (by simp)) h.1
    obtain ⟨visits, stop, rest, rfl, hbehind⟩ := ih (fun l hl => good l (by simp [hl])) h.2
    refine ⟨_, stop, .move move rest, rfl, ?_⟩
    rw [behind_label, hbehind, wireForm_cons, List.length_append, Nat.add_assoc]

theorem decode_of_holds {ls : List String} (good : ∀ label ∈ ls, isLabel label = true)
    (short : (dotted ls).utf8ByteSize ≤ maxLength) (h : p.Holds pos (wireForm ls)) :
    decode p pos = .ok (ofLabels ls, pos + (wireForm ls).length) := by
  obtain ⟨visits, stop, hwalk, rfl, hbehind⟩ := walk_of_holds good h
  rw [decode_of_walk hwalk, hbehind, if_pos short]

theorem decode_of_encode {name : String} {bytes : List UInt8} (h : encode name = .ok bytes)
    (k : p.Holds pos bytes) : decode p pos = .ok (canonical name, pos + bytes.length) := by
  obtain ⟨ls, hls, rfl⟩ := exists_labels_of_encode h
  obtain ⟨good, short, text⟩ := labels_eq_ok hls
  have shorter := utf8ByteSize_dotted_lt ls
  rw [decode_of_holds good (by omega) k, text]

end Reading

end MulticastDns.Name

import MulticastDns.Proofs.Name.RoundTrip

namespace MulticastDns

namespace Text

def foldByte (b : UInt8) : UInt8 := if 0x41 ≤ b ∧ b ≤ 0x5A then b + 0x20 else b

theorem foldByte_ofNat {n : Nat} (h : n < 0x80) :
    foldByte (.ofNat n) = if 65 ≤ n ∧ n ≤ 90 then .ofNat (n + 32) else .ofNat n := by
  have value : (UInt8.ofNat n).toNat = n := UInt8.toNat_ofNat_of_lt' (Nat.lt_trans h (by decide))
  simp only [foldByte, UInt8.le_iff_toNat_le, UInt8.reduceToNat, value]
  split
  · simp
  · rfl

theorem foldByte_of_ge {b : UInt8} (h : 0x80 ≤ b.toNat) : foldByte b = b := by
  refine if_neg fun capital => ?_
  have small : b.toNat ≤ 0x5A := UInt8.le_iff_toNat_le.1 capital.2
  omega

theorem toNat_toLower (c : Char) :
    c.toLower.toNat = if 65 ≤ c.toNat ∧ c.toNat ≤ 90 then c.toNat + 32 else c.toNat := by
  have capital : (c.val ≥ 'A'.val ∧ c.val ≤ 'Z'.val) ↔ 65 ≤ c.toNat ∧ c.toNat ≤ 90 := by
    simp only [ge_iff_le, UInt32.le_iff_toNat_le]
    rfl
  unfold Char.toLower
  simp only [capital]
  split
  · have small : (c.val + ('a'.val - 'A'.val)).toNat = c.toNat + 32 := by
      rw [UInt32.toNat_add, Char.toNat_val]
      simp only [Char.reduceVal, UInt32.reduceSub, UInt32.reduceToNat]
      omega
    exact small
  · rfl

theorem utf8EncodeChar_of_ascii {c : Char} (h : c.toNat < 0x80) :
    String.utf8EncodeChar c = [.ofNat c.toNat] := by
  rw [String.utf8EncodeChar, Char.toNat_val]
  exact if_pos (Nat.le_of_lt_succ h)

theorem ge_of_mem_utf8EncodeChar {c : Char} {b : UInt8} (h : 0x80 ≤ c.toNat)
    (hb : b ∈ String.utf8EncodeChar c) : 0x80 ≤ b.toNat := by
  have bound := toNat_lt c
  rw [String.utf8EncodeChar, Char.toNat_val] at hb
  split_ifs at hb <;> simp [← UInt8.toNat_inj] at hb <;> omega

theorem utf8EncodeChar_toLower (c : Char) :
    String.utf8EncodeChar c.toLower = (String.utf8EncodeChar c).map foldByte := by
  by_cases ascii : c.toNat < 0x80
  · have ascii' : c.toLower.toNat < 0x80 := by
      rw [toNat_toLower]
      split <;> omega
    rw [utf8EncodeChar_of_ascii ascii, utf8EncodeChar_of_ascii ascii', toNat_toLower,
      List.map_singleton, foldByte_ofNat ascii, apply_ite UInt8.ofNat]
  · have kept : c.toLower = c := by
      apply Char.toNat_inj.1
      rw [toNat_toLower, if_neg (by omega)]
    have high : ∀ b ∈ String.utf8EncodeChar c, foldByte b = b := fun b hb =>
      foldByte_of_ge (ge_of_mem_utf8EncodeChar (Nat.not_lt.1 ascii) hb)
    rw [kept, List.map_congr_left high, List.map_id']

theorem utf8_fold (s : String) : utf8 (fold s) = (utf8 s).map foldByte := by
  simp only [utf8_eq_flatMap, toList_fold, List.flatMap_map, List.map_flatMap,
    utf8EncodeChar_toLower]

theorem utf8ByteSize_fold (s : String) : (fold s).utf8ByteSize = s.utf8ByteSize := by
  rw [← length_utf8, utf8_fold, List.length_map, length_utf8]

end Text

namespace Name

section Fold

variable {name other : String} {ls ls' : List String}

theorem splitOn_map_toLower (cs : List Char) :
    (cs.map Char.toLower).splitOn '.' = (cs.splitOn '.').map (List.map Char.toLower) := by
  induction cs with
  | nil => rfl
  | cons c cs ih =>
    rw [List.map_cons, List.splitOn_cons_eq_if_modifyHead, List.splitOn_cons_eq_if_modifyHead, ih]
    have dot : (c.toLower == '.') = (c == '.') := by
      rw [Bool.eq_iff_iff, beq_iff_eq, beq_iff_eq, Text.toLower_eq_iff (by decide)]
    rw [dot]
    split
    · rfl
    · cases cs.splitOn '.' <;> rfl

theorem parts_fold (name : String) : parts (Text.fold name) = (parts name).map Text.fold := by
  have chars (cs : List Char) :
      String.ofList (cs.map Char.toLower) = Text.fold (String.ofList cs) := by
    apply String.toList_inj.1
    rw [Text.toList_fold, String.toList_ofList, String.toList_ofList]
  simp only [parts, Text.toList_fold, splitOn_map_toLower, List.map_map, Function.comp_def, chars]

theorem fold_dot : Text.fold "." = "." := by
  rw [← String.toList_inj, Text.toList_fold]
  rfl

theorem fold_dotted (ls : List String) : Text.fold (dotted ls) = dotted (ls.map Text.fold) := by
  induction ls with
  | nil => exact Text.fold_eq_empty_iff.2 rfl
  | cons label ls ih =>
    cases ls with
    | nil => rfl
    | cons next ls =>
      change Text.fold (label ++ "." ++ dotted (next :: ls)) = _
      rw [Text.fold_append, Text.fold_append, fold_dot, ih]
      rfl

theorem fold_ofLabels (ls : List String) :
    Text.fold (ofLabels ls) = ofLabels (ls.map Text.fold) := by
  cases ls with
  | nil => exact fold_dot
  | cons label ls => exact fold_dotted (label :: ls)

theorem fold_ofLabels_congr
    (h : List.Forall₂ (fun label other => Text.fold label = Text.fold other) ls ls') :
    Text.fold (ofLabels ls) = Text.fold (ofLabels ls') := by
  have folded : ls.map Text.fold = ls'.map Text.fold := by
    rw [← List.forall₂_eq_eq_eq, List.forall₂_map_left_iff, List.forall₂_map_right_iff]
    exact h
  rw [fold_ofLabels, fold_ofLabels, folded]

theorem isLabel_fold (label : String) : isLabel (Text.fold label) = isLabel label := by
  rw [Bool.eq_iff_iff, isLabel_iff, isLabel_iff, Text.utf8ByteSize_fold]

theorem encodedLength_map_fold (ls : List String) :
    encodedLength (ls.map Text.fold) = encodedLength ls := by
  induction ls with
  | nil => rfl
  | cons label ls ih => rw [List.map_cons, encodedLength, encodedLength, ih, Text.utf8ByteSize_fold]

theorem labelBytes_fold {label : String} (h : isLabel label = true) :
    labelBytes (Text.fold label) = (labelBytes label).map Text.foldByte := by
  have short : label.utf8ByteSize < 0x41 := Nat.lt_of_le_of_lt (isLabel_iff.1 h).2 (by decide)
  have lead : Text.foldByte (.ofNat label.utf8ByteSize) = .ofNat label.utf8ByteSize := by
    rw [Text.foldByte_ofNat (Nat.lt_trans short (by decide)), if_neg (by omega)]
  rw [labelBytes, labelBytes, Text.utf8ByteSize_fold, Text.utf8_fold, List.map_cons, lead]

theorem wireForm_map_fold (good : ∀ label ∈ ls, isLabel label = true) :
    wireForm (ls.map Text.fold) = (wireForm ls).map Text.foldByte := by
  induction ls with
  | nil => decide
  | cons label ls ih =>
    rw [List.map_cons, wireForm_cons, wireForm_cons, List.map_append,
      labelBytes_fold (good label List.mem_cons_self),
      ih fun l hl => good l (List.mem_cons_of_mem label hl)]

theorem forall_isLabel_map_fold :
    (∀ label ∈ ls.map Text.fold, isLabel label = true) ↔ ∀ label ∈ ls, isLabel label = true := by
  simp only [List.forall_mem_map, isLabel_fold]

theorem encode_of_same (same : Text.fold (dropDot name) = Text.fold (dropDot other))
    {bytes : List UInt8} (h : encode name = .ok bytes) :
    ∃ bytes', encode other = .ok bytes' ∧ bytes'.map Text.foldByte = bytes.map Text.foldByte := by
  have root : dropDot name = "" ↔ dropDot other = "" := by
    rw [← Text.fold_eq_empty_iff, same, Text.fold_eq_empty_iff]
  have cut : (parts (dropDot name)).map Text.fold = (parts (dropDot other)).map Text.fold := by
    rw [← parts_fold, same, parts_fold]
  by_cases empty : dropDot name = ""
  · rw [encode_eq_map, labels_of_root empty] at h
    cases h
    exact ⟨wireForm [], by rw [encode_eq_map, labels_of_root (root.1 empty)]; rfl, rfl⟩
  · obtain ⟨ls, found, rfl⟩ := exists_labels_of_encode h
    obtain ⟨rfl, good, short⟩ := (labels_eq_ok_iff empty).1 found
    have good' : ∀ label ∈ parts (dropDot other), isLabel label = true := by
      rwa [← forall_isLabel_map_fold, ← cut, forall_isLabel_map_fold]
    have short' : encodedLength (parts (dropDot other)) ≤ maxLength := by
      rwa [← encodedLength_map_fold, ← cut, encodedLength_map_fold]
    refine ⟨wireForm (parts (dropDot other)), ?_, ?_⟩
    · rw [encode_eq_map, (labels_eq_ok_iff (root.not.1 empty)).2 ⟨rfl, good', short'⟩]
      rfl
    · rw [← wireForm_map_fold good', ← cut, wireForm_map_fold good]

end Fold

section Spelling

variable {spelling name : String} {c : Char}

theorem spells_of_fold_dropDot (h : Text.fold (dropDot spelling) = Text.fold name) :
    Spells spelling name := by
  rcases eq_dropDot_or spelling with whole | dotted
  · rw [← whole] at h
    exact .inl (Text.same_iff.2 h)
  · refine .inr (Text.same_iff.2 ?_)
    rw [dotted, Text.fold_append, h, ← Text.fold_append]

theorem head?_dropDot_eq_some_iff (other : c ≠ '.') :
    (dropDot name).toList.head? = some c ↔ name.toList.head? = some c := by
  rcases eq_dropDot_or name with whole | dotted
  · rw [← whole]
  · conv_rhs => rw [dotted, String.toList_append]
    cases (dropDot name).toList with
    | nil => simpa using other.symm
    | cons => simp

end Spelling

end Name

end MulticastDns

import MulticastDns.Proofs.Name.Encoding
import MulticastDns.Proofs.Name.Text

namespace MulticastDns

namespace Text

theorem toNat_lt (c : Char) : c.toNat < 0x110000 := by
  have valid := c.valid
  simp only [UInt32.isValidChar, Nat.isValidChar, Char.toNat_val] at valid
  omega

theorem mem_utf8EncodeChar_iff {c d : Char} (ascii : c.toNat < 0x80) :
    UInt8.ofNat c.toNat ∈ String.utf8EncodeChar d ↔ c = d := by
  have bound := toNat_lt d
  have value : c = d ↔ c.toNat = d.toNat := by
    rw [Char.ext_iff, ← UInt32.toNat_inj]
    rfl
  rw [value, String.utf8EncodeChar, Char.toNat_val]
  split_ifs <;> simp [← UInt8.toNat_inj] <;> omega

theorem utf8_eq_flatMap (s : String) : utf8 s = s.toList.flatMap String.utf8EncodeChar := by
  rw [utf8, ← String.utf8Encode_toList, List.utf8Encode]
  simp

theorem mem_utf8_iff {s : String} {c : Char} (ascii : c.toNat < 0x80) :
    UInt8.ofNat c.toNat ∈ utf8 s ↔ c ∈ s.toList := by
  simp [utf8_eq_flatMap, mem_utf8EncodeChar_iff ascii]

end Text

namespace Name

section Dots

def Dotless (ls : List String) : Prop := ∀ label ∈ ls, '.' ∉ label.toList

variable {name label : String} {ls : List String}

theorem dotless_iff : Dotless ls ↔ ∀ label ∈ ls, 0x2E ∉ Text.utf8 label := by
  have dot (label : String) : 0x2E ∈ Text.utf8 label ↔ '.' ∈ label.toList :=
    Text.mem_utf8_iff (c := '.') (by decide)
  simp only [Dotless, dot]

theorem dotless_nil : Dotless [] := fun _ h => nomatch h

theorem Dotless.tail (h : Dotless (label :: ls)) : Dotless ls :=
  fun l hl => h l (List.mem_cons_of_mem label hl)

theorem not_mem_of_mem_splitOn {cs part : List Char} (h : part ∈ cs.splitOn '.') :
    '.' ∉ part := by
  induction cs generalizing part with
  | nil =>
    rw [List.mem_singleton.1 h]
    exact List.not_mem_nil
  | cons c cs ih =>
    rw [List.splitOn_cons_eq_if_modifyHead] at h
    split at h
    · rcases List.mem_cons.1 h with rfl | h
      · exact List.not_mem_nil
      · exact ih h
    · rename_i other
      obtain ⟨first, rest, split⟩ := List.exists_cons_of_ne_nil (List.splitOn_ne_nil '.' cs)
      rw [split] at h ih
      rcases List.mem_cons.1 h with rfl | h
      · rw [List.mem_cons, not_or]
        exact ⟨fun dot => other (beq_iff_eq.2 dot.symm), ih List.mem_cons_self⟩
      · exact ih (List.mem_cons_of_mem first h)

theorem dotless_parts (name : String) : Dotless (parts name) := by
  intro label hl
  obtain ⟨part, hpart, rfl⟩ := List.mem_map.1 hl
  rw [String.toList_ofList]
  exact not_mem_of_mem_splitOn hpart

theorem parts_dotted (nonempty : ls ≠ []) (h : Dotless ls) :
    parts (dotted ls) = ls := by
  have chars : (ls.map String.toList).map String.ofList = ls := by simp
  have dotless : ∀ cs ∈ ls.map String.toList, '.' ∉ cs := by
    intro cs hcs
    obtain ⟨label, hl, rfl⟩ := List.mem_map.1 hcs
    exact h label hl
  rw [parts, ← chars, dotted_map_ofList, String.toList_ofList, List.splitOn_intercalate _ dotless]
  simpa

theorem dropDot_of_not_mem (h : '.' ∉ name.toList) : dropDot name = name :=
  if_neg fun last => h (List.mem_of_getLast? last)

theorem dotted_eq_empty_iff (good : ∀ label ∈ ls, isLabel label = true) :
    dotted ls = "" ↔ ls = [] := by
  cases ls with
  | nil => exact iff_of_true rfl rfl
  | cons label ls =>
    have first := (isLabel_iff.1 (good label List.mem_cons_self)).1
    have length := utf8ByteSize_dotted label ls
    refine iff_of_false (fun empty => ?_) (List.cons_ne_nil _ _)
    rw [empty] at length
    have := encodedLength_pos ls
    have : "".utf8ByteSize = 0 := rfl
    omega

theorem dropDot_dotted (good : ∀ label ∈ ls, isLabel label = true) (h : Dotless ls) :
    dropDot (dotted ls) = dotted ls := by
  induction ls with
  | nil => rfl
  | cons label ls ih =>
    have good' : ∀ l ∈ ls, isLabel l = true := fun l hl => good l (List.mem_cons_of_mem label hl)
    cases ls with
    | nil => exact dropDot_of_not_mem (h label List.mem_cons_self)
    | cons next ls =>
      have behind : dotted (next :: ls) ≠ "" :=
        (dotted_eq_empty_iff good').not.2 (List.cons_ne_nil _ _)
      rw [dotted, dropDot_append behind, ih good' h.tail]
      simp

end Dots

section Encoding

variable {name other : String} {ls : List String}

theorem encode_eq_map (name : String) : encode name = (labels name).map wireForm := by
  unfold encode
  cases labels name <;> rfl

theorem labels_of_good (notRoot : dropDot name ≠ "")
    (good : ∀ part ∈ parts (dropDot name), isLabel part = true) :
    labels name = if maxLength < encodedLength (parts (dropDot name))
      then .error (.nameTooLong maxLength) else .ok (parts (dropDot name)) := by
  have none : (parts (dropDot name)).find? (!isLabel ·) = none :=
    List.find?_eq_none.2 fun part hpart => by simp [good part hpart]
  rw [labels, if_neg notRoot]
  dsimp only
  rw [none]

theorem labels_eq_ok_iff (notRoot : dropDot name ≠ "") :
    labels name = .ok ls ↔ ls = parts (dropDot name) ∧ (∀ part ∈ ls, isLabel part = true) ∧
      encodedLength ls ≤ maxLength := by
  constructor
  · intro h
    obtain ⟨good, short, -⟩ := labels_eq_ok h
    refine ⟨?_, good, short⟩
    rw [labels, if_neg notRoot] at h
    dsimp only at h
    split at h
    · cases h
    · split at h
      · cases h
      · exact (Except.ok.inj h).symm
  · rintro ⟨rfl, good, short⟩
    rw [labels_of_good notRoot good, if_neg (Nat.not_lt.2 short)]

theorem labels_of_root (root : dropDot name = "") : labels name = .ok [] := if_pos root

theorem encodable_iff : (∃ bytes, encode name = .ok bytes) ↔ dropDot name = "" ∨
    (∀ part ∈ parts (dropDot name), isLabel part = true) ∧
      encodedLength (parts (dropDot name)) ≤ maxLength := by
  by_cases root : dropDot name = ""
  · refine iff_of_true ⟨wireForm [], ?_⟩ (.inl root)
    rw [encode_eq_map, labels_of_root root]
    rfl
  · rw [or_iff_right root]
    constructor
    · rintro ⟨bytes, h⟩
      obtain ⟨ls, hls, -⟩ := exists_labels_of_encode h
      obtain ⟨rfl, good, short⟩ := (labels_eq_ok_iff root).1 hls
      exact ⟨good, short⟩
    · rintro ⟨good, short⟩
      refine ⟨wireForm (parts (dropDot name)), ?_⟩
      rw [encode_eq_map, (labels_eq_ok_iff root).2 ⟨rfl, good, short⟩]
      rfl

theorem dropDot_ne_dot {bytes : List UInt8} (h : encode name = .ok bytes) :
    dropDot name ≠ "." := by
  intro dot
  rcases encodable_iff.1 ⟨bytes, h⟩ with root | ⟨good, -⟩
  · exact absurd (dot.symm.trans root) (by decide)
  · rw [dot] at good
    exact absurd good (by decide +kernel)

theorem dropDot_eq_of_canonical_eq {bytes bytes' : List UInt8} (h : encode name = .ok bytes)
    (k : encode other = .ok bytes') (same : canonical name = canonical other) :
    dropDot name = dropDot other := by
  unfold canonical at same
  split at same
  · split at same
    · simp_all
    · exact absurd same.symm (dropDot_ne_dot k)
  · split at same
    · exact absurd same (dropDot_ne_dot h)
    · exact same

theorem eq_dropDot_or (name : String) : name = dropDot name ∨ name = dropDot name ++ "." := by
  unfold dropDot
  split
  · rename_i last
    refine .inr (String.toList_inj.1 ?_)
    rw [String.toList_append, String.toList_ofList]
    exact (List.dropLast_append_getLast? _ last).symm
  · exact .inl rfl

theorem eq_up_to_dot_of_dropDot_eq (h : dropDot name = dropDot other) :
    name = other ∨ name = other ++ "." ∨ other = name ++ "." := by
  have cut := eq_dropDot_or name
  rw [h] at cut
  rcases cut with hn | hn
  · rcases eq_dropDot_or other with ho | ho
    · exact .inl (hn.trans ho.symm)
    · exact .inr (.inr (ho.trans (congrArg (· ++ ".") hn.symm)))
  · rcases eq_dropDot_or other with ho | ho
    · exact .inr (.inl (hn.trans (congrArg (· ++ ".") ho.symm)))
    · exact .inl (hn.trans ho.symm)

/-- A written name is read back wherever it stands, as what it is without a trailing dot. It can be
written exactly if it is the root or its parts have between 1 and 63 bytes and come to at most 255
with their length bytes and the closing zero; and two names are written alike only if they differ
in a trailing dot at most. -/
theorem decode_encode (name : String) :
    (∀ bytes, encode name = .ok bytes → bytes.length ≤ 255 ∧ ∀ front back : List UInt8,
      decode (front ++ bytes ++ back).toArray front.length =
        .ok (canonical name, front.length + bytes.length)) ∧
    ((∃ bytes, encode name = .ok bytes) ↔ dropDot name = "" ∨
      (∀ part ∈ parts (dropDot name), 1 ≤ part.utf8ByteSize ∧ part.utf8ByteSize ≤ 63) ∧
        encodedLength (parts (dropDot name)) ≤ 255) ∧
    ∀ other bytes, encode name = .ok bytes → encode other = .ok bytes →
      name = other ∨ name = other ++ "." ∨ other = name ++ "." := by
  refine ⟨fun bytes h => ⟨(length_of_encode h).2, fun front back => ?_⟩, ?_,
    fun other bytes h k => ?_⟩
  · exact decode_of_encode h ⟨front, back, rfl, rfl⟩
  · rw [encodable_iff]
    simp only [isLabel_iff]
    rfl
  · have holds := Packet.holds_toArray bytes
    have same := (decode_of_encode h holds).symm.trans (decode_of_encode k holds)
    exact eq_up_to_dot_of_dropDot_eq
      (dropDot_eq_of_canonical_eq h k (congrArg Prod.fst (Except.ok.inj same)))

end Encoding

section Reading

variable {p : Packet} {offset next stop : Nat} {name : String} {visits : List Visit}
  {ls : List String}

theorem Move.isLabel {pos : Nat} {text : String} (h : Move p pos (some text) next) :
    isLabel text = true := by
  cases h with
  | @label n _ _ positive small fits htext =>
    have length : text.utf8ByteSize = n.toNat := by
      rw [← Text.length_utf8, htext]
      simp
      omega
    rw [isLabel_iff, length]
    exact ⟨UInt8.lt_iff_toNat_lt.1 positive, UInt8.le_iff_toNat_le.1 small⟩

theorem Walk.isLabel_of_mem_spelled (h : Walk p offset visits stop) {label : String}
    (hl : label ∈ spelled visits) : Name.isLabel label = true := by
  induction h with
  | stop => cases hl
  | @move pos _ _ l visits m rest ih =>
    cases l with
    | none => exact ih hl
    | some text =>
      rcases List.mem_cons.1 hl with rfl | hl
      · exact m.isLabel
      · exact ih hl

theorem labels_ofLabels (good : ∀ label ∈ ls, isLabel label = true) (h : Dotless ls) :
    labels (ofLabels ls) = if maxLength < encodedLength ls then .error (.nameTooLong maxLength)
      else .ok ls := by
  cases ls with
  | nil => rfl
  | cons label rest =>
    have text := dropDot_dotted good h
    have notRoot : dropDot (dotted (label :: rest)) ≠ "" := by
      rw [text]
      exact (dotted_eq_empty_iff good).not.2 (List.cons_ne_nil _ _)
    have cut : parts (dropDot (dotted (label :: rest))) = label :: rest := by
      rw [text, parts_dotted (List.cons_ne_nil _ _) h]
    rw [ofLabels_cons, labels_of_good notRoot (by rwa [cut]), cut]

theorem labels_ofLabels_eq_ok {found : List String} (h : labels (ofLabels ls) = .ok found) :
    Dotless found ∧ dotted found = dropDot (dotted ls) := by
  cases ls with
  | nil =>
    cases h
    exact ⟨dotless_nil, rfl⟩
  | cons label rest =>
    rw [ofLabels_cons] at h
    by_cases root : dropDot (dotted (label :: rest)) = ""
    · cases (labels_of_root root).symm.trans h
      exact ⟨dotless_nil, root.symm⟩
    · obtain ⟨rfl, -, -⟩ := (labels_eq_ok_iff root).1 h
      exact ⟨dotless_parts _, dotted_parts _⟩

theorem encodedLength_le_iff (ls : List String) :
    encodedLength ls ≤ maxLength ↔ (ofLabels ls).utf8ByteSize ≤ 253 := by
  cases ls with
  | nil => decide
  | cons label rest =>
    have : maxLength = 255 := rfl
    rw [ofLabels_cons, encodedLength_cons]
    omega

/-- A name that was read is written with the labels it was read from, if none of them has a dot of
its own and its text has at most 253 bytes. A text of 254 or 255 bytes can be read, but is too long
to be written. -/
theorem encode_of_decode (h : decode p offset = .ok (name, next))
    (walk : Walk p offset visits stop)
    (dotless : ∀ label ∈ spelled visits, 0x2E ∉ Text.utf8 label) :
    encode name =
      if name.utf8ByteSize ≤ 253 then .ok ((spelled visits).flatMap labelBytes ++ [0])
      else .error (.nameTooLong 255) := by
  obtain ⟨visits', stop', walk', -, rfl, rfl⟩ := exists_walk_of_decode h
  obtain ⟨rfl, rfl⟩ := walk.unique walk'
  have good (label : String) (hl : label ∈ spelled visits) := walk.isLabel_of_mem_spelled hl
  have fits := encodedLength_le_iff (spelled visits)
  rw [encode_eq_map, labels_ofLabels good (dotless_iff.2 dotless)]
  by_cases short : (ofLabels (spelled visits)).utf8ByteSize ≤ 253
  · rw [if_pos short, if_neg (Nat.not_lt.2 (fits.2 short))]
    rfl
  · rw [if_neg short, if_pos (Nat.lt_of_not_le (fits.not.2 short))]
    rfl

section Samples

def pointed : Packet := #[0xC0, 2, 3, 119, 101, 98, 0xC0, 8, 5, 108, 111, 99, 97, 108, 0]

theorem walk_pointed :
    Walk pointed 0 [⟨0, none⟩, ⟨2, some "web"⟩, ⟨6, none⟩, ⟨8, some "local"⟩] 14 := by
  have web : Move pointed 2 (some "web") 6 :=
    .label (n := 3) rfl (by decide) (by decide) (by decide) (by decide +kernel)
  have rest : Move pointed 8 (some "local") 14 :=
    .label (n := 5) rfl (by decide) (by decide) (by decide) (by decide +kernel)
  exact .move (.pointer rfl (by decide) rfl rfl (by decide)) (.move web
    (.move (.pointer rfl (by decide) rfl rfl (by decide)) (.move rest (.stop rfl))))

theorem pointed_written_in_full :
    decode pointed 0 = .ok ("web.local", 2) ∧
      encode "web.local" = .ok [3, 119, 101, 98, 5, 108, 111, 99, 97, 108, 0] := by
  have read : decode pointed 0 = .ok ("web.local", 2) := by
    rw [decode_of_walk walk_pointed, if_pos (by decide +kernel)]
    rfl
  exact ⟨read, (encode_of_decode read walk_pointed (by decide +kernel)).trans
    (if_pos (by decide +kernel))⟩

def longLabels : List String := [63, 63, 63, 62].map fun n => String.ofList (.replicate n 'x')

theorem long_name_not_written :
    (∃ visits stop, Walk (wireForm longLabels).toArray 0 visits stop ∧
      spelled visits = longLabels) ∧
    (∀ label ∈ longLabels, 0x2E ∉ Text.utf8 label) ∧
    decode (wireForm longLabels).toArray 0 = .ok (ofLabels longLabels, 256) ∧
    encode (ofLabels longLabels) = .error (.nameTooLong 255) := by
  have good : ∀ label ∈ longLabels, isLabel label = true := by decide +kernel
  have dotless : ∀ label ∈ longLabels, 0x2E ∉ Text.utf8 label := by decide +kernel
  have holds := Packet.holds_toArray (wireForm longLabels)
  obtain ⟨visits, stop, walk, spells, -⟩ := walk_of_holds good holds
  have length : encodedLength longLabels = 256 := by decide +kernel
  have read := decode_of_holds good (by decide +kernel) holds
  rw [length_wireForm, length] at read
  refine ⟨⟨visits, stop, walk, spells⟩, dotless, read, ?_⟩
  rw [encode_eq_map, labels_ofLabels good (dotless_iff.2 dotless), length]
  rfl

end Samples

end Reading

end Name

end MulticastDns

import MulticastDns.Proofs.Machine.Answering
import MulticastDns.Proofs.Name.Local

/-! The local suffix on the machine. It is looked for six bytes before the end of a text, where a
longer character can stand across the place; a host tests the place before it cuts there, a browse
asks for what is behind it and may get nothing. -/

namespace MulticastDns

open String (utf8Len utf8Len_append utf8Len_cons utf8Len_toList)

namespace Text

def begins (b : UInt8) : Bool := b < 0x80 || 0xC0 ≤ b

/-- Whether no character stands across the place before byte `n`. -/
def isBoundary (bytes : List UInt8) (n : Nat) : Bool :=
  n = 0 || match bytes[n]? with
    | some b => begins b
    | none => n = bytes.length

theorem utf8EncodeChar_eq (c : Char) : ∃ first rest, String.utf8EncodeChar c = first :: rest ∧
    begins first = true ∧ ∀ b ∈ rest, begins b = false := by
  have bound := toNat_lt c
  rw [String.utf8EncodeChar, Char.toNat_val]
  split_ifs <;> refine ⟨_, _, rfl, ?_, ?_⟩ <;>
    simp [begins, UInt8.lt_iff_toNat_lt, UInt8.le_iff_toNat_le] <;> omega

theorem length_flatMap_utf8EncodeChar (cs : List Char) :
    (cs.flatMap String.utf8EncodeChar).length = utf8Len cs := by
  rw [← String.utf8ByteSize_ofList, ← length_utf8, utf8_eq_flatMap, String.toList_ofList]

theorem isBoundary_append (before behind : List Char) :
    isBoundary ((before ++ behind).flatMap String.utf8EncodeChar) (utf8Len before) = true := by
  rw [isBoundary, Bool.or_eq_true, List.flatMap_append,
    List.getElem?_append_right (Nat.le_of_eq (length_flatMap_utf8EncodeChar before)),
    length_flatMap_utf8EncodeChar, Nat.sub_self]
  right
  cases behind with
  | nil =>
    refine decide_eq_true ?_
    rw [List.flatMap_nil, List.append_nil, length_flatMap_utf8EncodeChar]
  | cons c behind =>
    obtain ⟨first, rest, bytes, begun, -⟩ := utf8EncodeChar_eq c
    rw [List.flatMap_cons, bytes]
    exact begun

theorem isBoundary_cons {c : Char} {cs : List Char} {n : Nat} (inside : 0 < n)
    (h : isBoundary ((c :: cs).flatMap String.utf8EncodeChar) n = true) :
    c.utf8Size ≤ n ∧ isBoundary (cs.flatMap String.utf8EncodeChar) (n - c.utf8Size) = true := by
  have nonzero : n ≠ 0 := Nat.ne_of_gt inside
  rw [isBoundary, List.flatMap_cons] at h
  simp only [nonzero, decide_false, Bool.false_or] at h
  by_cases behind : c.utf8Size ≤ n
  · refine ⟨behind, ?_⟩
    rw [List.getElem?_append_right (by rwa [String.length_utf8EncodeChar]), List.length_append,
      String.length_utf8EncodeChar] at h
    rw [isBoundary, Bool.or_eq_true]
    right
    split at h
    · exact h
    · have length := of_decide_eq_true h
      exact decide_eq_true (by omega)
  · -- the byte there is one of the character's own, and not its first
    obtain ⟨first, rest, bytes, -, continued⟩ := utf8EncodeChar_eq c
    have short : n < (first :: rest).length := by
      rw [← bytes, String.length_utf8EncodeChar]
      omega
    obtain ⟨m, rfl⟩ : ∃ m, n = m + 1 := Nat.exists_eq_add_one.2 inside
    have within : m < rest.length := Nat.lt_of_succ_lt_succ short
    rw [bytes, List.getElem?_append_left short, List.getElem?_cons_succ,
      List.getElem?_eq_getElem within] at h
    exact absurd h (by simp [continued _ (List.getElem_mem within)])

theorem isBoundary_iff {cs : List Char} {n : Nat} :
    isBoundary (cs.flatMap String.utf8EncodeChar) n = true ↔
      ∃ before behind, cs = before ++ behind ∧ n = utf8Len before := by
  constructor
  · intro h
    induction cs generalizing n with
    | nil =>
      refine ⟨[], [], rfl, ?_⟩
      simpa [isBoundary] using h
    | cons c cs ih =>
      rcases Nat.eq_zero_or_pos n with rfl | inside
      · exact ⟨[], c :: cs, rfl, rfl⟩
      · obtain ⟨behind, rest⟩ := isBoundary_cons inside h
        obtain ⟨before, after, rfl, length⟩ := ih rest
        exact ⟨c :: before, after, rfl, by rw [utf8Len_cons]; omega⟩
  · rintro ⟨before, behind, rfl, rfl⟩
    exact isBoundary_append before behind

end Text

namespace Machine

open Client

section Tail

def tail (name : String) (n : Nat) : Machine String := do
  let (_, behind) ← cut name.toList n
  return String.ofList behind

def tail? (name : String) (n : Nat) : Machine (Option String) := do
  if Text.isBoundary (Text.utf8 name) n then return some (← tail name n) else return none

theorem tail?_append (stem suffix : String) :
    tail? (stem ++ suffix) stem.utf8ByteSize = .ok (some suffix) := by
  rw [tail?, Text.utf8_eq_flatMap, String.toList_append, ← utf8Len_toList,
    Text.isBoundary_append, if_pos rfl, tail, String.toList_append, cut_append]
  change Except.ok (some (String.ofList suffix.toList)) = _
  rw [String.ofList_toList]

theorem tail?_eq_none {name : String} {n : Nat}
    (h : ¬∃ stem suffix : String, name = stem ++ suffix ∧ n = stem.utf8ByteSize) :
    tail? name n = .ok none := by
  refine if_neg fun boundary => h ?_
  rw [Text.utf8_eq_flatMap, Text.isBoundary_iff] at boundary
  obtain ⟨before, behind, cut, length⟩ := boundary
  refine ⟨.ofList before, .ofList behind, ?_, ?_⟩
  · rw [← String.ofList_append, ← cut, String.ofList_toList]
  · rw [length, String.utf8ByteSize_ofList]

-- six bytes before its end this text is inside its first character
example : tail? "日本é" 2 = .ok none ∧ tail "日本é" 2 = .error .outOfRange := ⟨rfl, rfl⟩

end Tail

section Suffix

/-- A host's way to look for the suffix: the place is tested, and then cut. -/
def isLocal (name : String) : Machine Bool := do
  if name.utf8ByteSize < Name.localSuffix.utf8ByteSize then return false
  else
    let place ← sub name.utf8ByteSize Name.localSuffix.utf8ByteSize
    if Text.isBoundary (Text.utf8 name) place then
      let suffix ← tail name place
      return Text.same suffix Name.localSuffix
    else return false

/-- A browse's way: what is behind the place, if there is anything. -/
def isLocalKind (kind : String) : Machine Bool := do
  if kind.utf8ByteSize < 6 then return false
  else
    let place ← sub kind.utf8ByteSize 6
    let suffix? ← tail? kind place
    return suffix?.any (Text.same · ".local")

def hostName (text : String) : Machine String := do
  let name := Name.dropDot text
  if ← isLocal name then return name else return name ++ Name.localSuffix

def browseName (text : String) : Machine (Except Failure String) := do
  let kind := Name.dropDots text
  if kind = "" then return .error .emptyKind
  else if ← isLocalKind kind then return .ok kind
  else return .ok (kind ++ ".local")

theorem utf8ByteSize_localSuffix : Name.localSuffix.utf8ByteSize = 6 := by decide +kernel

theorem isLocal_eq_isLocalKind (name : String) : isLocal name = isLocalKind name := by
  unfold isLocal isLocalKind
  rw [utf8ByteSize_localSuffix]
  split
  · rfl
  · refine congrArg _ (funext fun place => ?_)
    unfold tail?
    split
    · cases tail name place <;> rfl
    · rfl

theorem utf8ByteSize_of_same {suffix : String} (same : Text.same suffix Name.localSuffix = true) :
    suffix.utf8ByteSize = 6 := by
  rw [← Text.utf8ByteSize_fold, Text.same_iff.1 same, Text.utf8ByteSize_fold,
    utf8ByteSize_localSuffix]

theorem tail?_of_same (stem : String) {suffix : String}
    (same : Text.same suffix Name.localSuffix = true) :
    tail? (stem ++ suffix) ((stem ++ suffix).utf8ByteSize - 6) = .ok (some suffix) := by
  rw [String.utf8ByteSize_append, utf8ByteSize_of_same same, Nat.add_sub_cancel, tail?_append]

theorem isLocalKind_eq (kind : String) : isLocalKind kind = .ok (Name.isLocal kind) := by
  unfold isLocalKind
  split
  · rename_i short
    refine congrArg Except.ok (Bool.eq_false_iff.2 fun ends => ?_).symm
    obtain ⟨stem, suffix, rfl, same⟩ := Name.isLocal_iff.1 ends
    rw [String.utf8ByteSize_append, utf8ByteSize_of_same same] at short
    omega
  · rename_i long
    refine bind_eq (sub_eq (Nat.le_of_not_lt long)) ?_
    by_cases boundary : ∃ stem suffix : String,
        kind = stem ++ suffix ∧ kind.utf8ByteSize - 6 = stem.utf8ByteSize
    · obtain ⟨stem, suffix, cut, length⟩ := boundary
      have found : tail? kind (kind.utf8ByteSize - 6) = .ok (some suffix) := by
        rw [length, cut, tail?_append]
      refine bind_eq found (congrArg Except.ok ?_)
      rw [Option.any_some, Bool.eq_iff_iff, Name.isLocal_iff]
      constructor
      · exact fun same => ⟨stem, suffix, cut, same⟩
      · rintro ⟨stem', suffix', rfl, same⟩
        rw [tail?_of_same stem' same] at found
        cases found
        exact same
    · refine bind_eq (tail?_eq_none boundary) (congrArg Except.ok ?_)
      refine (Bool.eq_false_iff.2 fun ends => ?_).symm
      obtain ⟨stem, suffix, rfl, same⟩ := Name.isLocal_iff.1 ends
      have found := tail?_of_same stem same
      rw [tail?_eq_none boundary] at found
      cases found

theorem hostName_eq (text : String) :
    hostName text = .ok (Name.ensureLocal (Name.dropDot text)) := by
  refine bind_eq ((isLocal_eq_isLocalKind _).trans (isLocalKind_eq _)) ?_
  exact (apply_ite Except.ok _ _ _).symm

theorem browseName_eq (text : String) : browseName text = .ok (Browse.fullName text) := by
  unfold browseName Browse.fullName
  dsimp only
  split
  · rfl
  · refine bind_eq (isLocalKind_eq _) ?_
    rw [Name.ensureLocal, apply_ite Except.ok, apply_ite Except.ok]
    rfl

end Suffix

end Machine

namespace Name

open Client

/-- A host and a browse make local names of any text. Each leaves its own results as they are, and
they make the same one unless the text ends in two dots, which only a browse drops. Neither cuts a
text inside a character. -/
theorem local_forms (s : String) (ipv4 : Option IPv4) (ipv6 : Option IPv6) (ttl : UInt32) :
    let host := Host.named s ipv4 ipv6 ttl
    (EndsLocal host.name ∧ host.name.toList.getLast? ≠ some '.' ∧
      (∀ spelling, host.answersTo spelling = true ↔ Spells spelling host.name) ∧
      Host.named host.name ipv4 ipv6 ttl = host) ∧
    ((∃ e, Browse.fullName s = .error e) ↔ ∀ c ∈ s.toList, c = '.') ∧
    (∀ name, Browse.fullName s = .ok name →
      EndsLocal name ∧ name.toList.getLast? ≠ some '.' ∧ Browse.fullName name = .ok name ∧
      (name = host.name ↔ ¬['.', '.'] <:+ s.toList)) ∧
    Machine.hostName s = .ok host.name ∧ Machine.browseName s = .ok (Browse.fullName s) := by
  intro host
  have hostEnds : EndsLocal host.name := endsLocal_ensureLocal _
  refine ⟨⟨hostEnds, hostEnds.getLast?_ne, fun _ => Host.answersTo_iff hostEnds,
    Host.named_of_endsLocal hostEnds⟩, ?fails, ?succeeds, Machine.hostName_eq s,
    Machine.browseName_eq s⟩
  case fails => simp [Browse.fullName_eq_error_iff]
  case succeeds =>
    intro name named
    obtain ⟨-, rfl⟩ := Browse.fullName_eq_ok_iff.1 named
    have ends := endsLocal_ensureLocal (dropDots s)
    exact ⟨ends, ends.getLast?_ne, Browse.fullName_of_endsLocal ends, ensureLocal_dropDots_eq_iff⟩

theorem accented_is_local : Browse.fullName "café.LOCAL." = .ok "café.LOCAL" ∧
    (Host.named "café.LOCAL." none none 120).name = "café.LOCAL" ∧
    (Host.named "café.LOCAL." none none 120).answersTo "CAFé.local." = true := by
  have named : Browse.fullName "café.LOCAL." = .ok "café.LOCAL" := by decide +kernel
  have single : ¬['.', '.'] <:+ "café.LOCAL.".toList := by decide +kernel
  have spells : Spells "CAFé.local." "café.LOCAL" :=
    .inr (Text.same_iff_toList.2 (by simp))
  have forms := local_forms "café.LOCAL." none none 120
  have hostNamed := ((forms.2.2.1 _ named).2.2.2.2 single).symm
  refine ⟨named, hostNamed, (forms.1.2.2.1 _).2 ?_⟩
  rw [hostNamed]
  exact spells

end Name

end MulticastDns

import Mathlib.Data.List.DropRight
import MulticastDns.Client.Browse
import MulticastDns.Host
import MulticastDns.Proofs.Name.Spelling

namespace MulticastDns

open Client

namespace Name

def EndsLocal (name : String) : Prop :=
  ∃ stem suffix, name = stem ++ suffix ∧ Text.same suffix localSuffix = true

variable {name : String}

theorem isLocal_iff : isLocal name = true ↔ EndsLocal name := by
  have small : localSuffix.toList.map Char.toLower = localSuffix.toList := by decide +kernel
  rw [isLocal, List.isSuffixOf_iff_suffix, Text.toList_fold]
  constructor
  · rintro ⟨front, cut⟩
    obtain ⟨stem, suffix, parts, -, folded⟩ := List.map_eq_append_iff.1 cut.symm
    refine ⟨.ofList stem, .ofList suffix, ?_, Text.same_iff_toList.2 ?_⟩
    · rw [← String.ofList_append, ← parts, String.ofList_toList]
    · rw [String.toList_ofList, folded, small]
  · rintro ⟨stem, suffix, rfl, same⟩
    rw [Text.same_iff_toList, small] at same
    exact ⟨stem.toList.map Char.toLower, by rw [String.toList_append, List.map_append, same]⟩

theorem endsLocal_ensureLocal (name : String) : EndsLocal (ensureLocal name) := by
  unfold ensureLocal
  split
  · rename_i already
    exact isLocal_iff.1 already
  · exact ⟨name, localSuffix, rfl, Text.same_refl _⟩

namespace EndsLocal

theorem ensureLocal_eq (h : EndsLocal name) : ensureLocal name = name := if_pos (isLocal_iff.2 h)

theorem getLast?_ne (h : EndsLocal name) : name.toList.getLast? ≠ some '.' := by
  obtain ⟨stem, suffix, rfl, same⟩ := h
  have letter : localSuffix.toList.getLast? = some 'l' := by decide +kernel
  have last : (Text.fold suffix).toList.getLast? = some 'l' := by
    rw [Text.same_iff.1 same, Text.toList_fold, List.getLast?_map, letter]
    rfl
  have nonempty : suffix.toList ≠ [] := by
    intro empty
    rw [Text.toList_fold, empty] at last
    cases last
  rw [String.toList_append, List.getLast?_append_of_ne_nil _ nonempty, ne_eq,
    ← Text.getLast?_fold_eq_some_iff (by decide), last]
  decide

theorem dropDot_eq (h : EndsLocal name) : dropDot name = name := if_neg h.getLast?_ne

end EndsLocal

section Dots

theorem toList_dropDots (name : String) :
    (dropDots name).toList = name.toList.rdropWhile (· = '.') := String.toList_ofList

theorem dropDots_eq_self_iff : dropDots name = name ↔ name.toList.getLast? ≠ some '.' := by
  rw [← String.toList_inj, toList_dropDots, List.rdropWhile_eq_self_iff]
  constructor
  · intro h last
    obtain ⟨front, cut⟩ := List.getLast?_eq_some_iff.1 last
    exact h (by simp [cut]) (by simp [cut])
  · intro h nonempty last
    exact h (by rw [List.getLast?_eq_some_getLast nonempty, of_decide_eq_true last])

theorem dropDots_eq_empty_iff : dropDots name = "" ↔ ∀ c ∈ name.toList, c = '.' := by
  rw [← String.toList_inj, toList_dropDots]
  simp [List.rdropWhile_eq_nil_iff]

theorem dropDots_dropDot (name : String) : dropDots (dropDot name) = dropDots name := by
  rcases eq_dropDot_or name with whole | dotted
  · rw [← whole]
  · conv_rhs => rw [dotted]
    rw [← String.toList_inj, toList_dropDots, toList_dropDots, String.toList_append]
    exact (List.rdropWhile_concat_pos _ _ _ rfl).symm

theorem getLast?_dropDot_eq_iff :
    (dropDot name).toList.getLast? = some '.' ↔ ['.', '.'] <:+ name.toList := by
  rw [List.getLast?_eq_some_iff]
  constructor
  · rintro ⟨front, cut⟩
    rcases eq_dropDot_or name with whole | dotted
    · -- a name that ends in a dot is not left whole
      have last : name.toList.getLast? = some '.' := by rw [whole, cut, List.getLast?_concat]
      have dropped : dropDot name = .ofList name.toList.dropLast := if_pos last
      have shorter := congrArg (List.length ∘ String.toList) (whole.trans dropped)
      simp only [Function.comp_apply, String.toList_ofList, List.length_dropLast] at shorter
      have nonempty : 0 < name.toList.length := by
        rw [whole, cut]
        simp
      omega
    · exact ⟨front, by rw [dotted, String.toList_append, cut]; simp⟩
  · rintro ⟨front, cut⟩
    have dotted : name = .ofList (front ++ ['.']) ++ "." := by
      apply String.toList_inj.1
      rw [String.toList_append, String.toList_ofList, ← cut]
      simp
    exact ⟨front, by rw [dotted, dropDot_append_dot, String.toList_ofList]⟩

theorem dropDots_eq_dropDot_iff : dropDots name = dropDot name ↔ ¬['.', '.'] <:+ name.toList := by
  rw [← dropDots_dropDot, dropDots_eq_self_iff, ne_eq, getLast?_dropDot_eq_iff]

theorem ensureLocal_dropDots_eq_iff :
    ensureLocal (dropDots name) = ensureLocal (dropDot name) ↔ ¬['.', '.'] <:+ name.toList := by
  constructor
  · intro h dots
    have last := getLast?_dropDot_eq_iff.2 dots
    have grown : ensureLocal (dropDot name) = dropDot name ++ localSuffix :=
      if_neg fun already => (isLocal_iff.1 already).getLast?_ne last
    rw [grown] at h
    unfold ensureLocal at h
    split at h
    · have shorter : (dropDots name).toList.length ≤ (dropDot name).toList.length := by
        rw [← dropDots_dropDot, toList_dropDots]
        exact (List.rdropWhile_prefix _ _).length_le
      have lengths := congrArg (List.length ∘ String.toList) h
      have six : localSuffix.toList.length = 6 := by decide +kernel
      simp only [Function.comp_apply, String.toList_append, List.length_append, six] at lengths
      omega
    · exact dropDots_eq_dropDot_iff.1 (String.append_left_inj _ |>.1 h) dots
  · exact fun single => congrArg ensureLocal (dropDots_eq_dropDot_iff.2 single)

end Dots

end Name

namespace Host

variable {s : String} {ipv4 : Option IPv4} {ipv6 : Option IPv6} {ttl : UInt32}

theorem answersTo_iff {h : Host} (ends : Name.EndsLocal h.name) {spelling : String} :
    h.answersTo spelling = true ↔ Name.Spells spelling h.name := by
  rw [answersTo, Text.same_iff]
  exact ⟨Name.spells_of_fold_dropDot, fun spells => spells.fold_dropDot ends.dropDot_eq⟩

theorem named_of_endsLocal (h : Name.EndsLocal s) :
    Host.named s ipv4 ipv6 ttl = ⟨s, ipv4, ipv6, ttl⟩ := by
  rw [named, h.dropDot_eq, h.ensureLocal_eq]

end Host

namespace Client.Browse

variable {kind name : String} {e : Failure}

theorem fullName_eq_error_iff :
    fullName kind = .error e ↔ e = .emptyKind ∧ ∀ c ∈ kind.toList, c = '.' := by
  rw [← Name.dropDots_eq_empty_iff, fullName]
  split
  · rename_i empty
    simp [empty, eq_comm]
  · rename_i nonempty
    simp [nonempty]

theorem fullName_eq_ok_iff : fullName kind = .ok name ↔
    Name.dropDots kind ≠ "" ∧ name = Name.ensureLocal (Name.dropDots kind) := by
  rw [fullName]
  split
  · rename_i empty
    simp [empty]
  · rename_i nonempty
    simp [nonempty, eq_comm]

theorem fullName_of_endsLocal (h : Name.EndsLocal name) : fullName name = .ok name := by
  have whole := Name.dropDots_eq_self_iff.2 h.getLast?_ne
  refine fullName_eq_ok_iff.2 ⟨?_, ?_⟩
  · rw [whole, ← h.ensureLocal_eq]
    exact Name.ensureLocal_ne_empty name
  · rw [whole, h.ensureLocal_eq]

end Client.Browse

end MulticastDns

import Mathlib.Data.List.Basic
import MulticastDns.Name

namespace MulticastDns

namespace Text

theorem fold_eq_empty_iff {s : String} : fold s = "" ↔ s = "" := by
  rw [← String.toList_inj, toList_fold, ← String.toList_inj]
  simp

theorem toLower_eq_iff {c d : Char} (sign : d.isAlpha = false) : c.toLower = d ↔ c = d := by
  have letters : d.isAlpha = (decide (d.val ≥ 'A'.val ∧ d.val ≤ 'Z'.val) ||
      (decide (d.val ≥ 'a'.val) && decide (d.val ≤ 'z'.val))) := rfl
  simp only [letters, Bool.or_eq_false_iff, Bool.and_eq_false_iff, decide_eq_false_iff_not,
    ge_iff_le, UInt32.le_iff_toNat_le] at sign
  unfold Char.toLower
  split
  · -- a capital becomes a small letter, and neither is a sign
    rename_i capital
    rw [Char.ext_iff, Char.ext_iff, ← UInt32.toNat_inj, ← UInt32.toNat_inj, UInt32.toNat_add]
    simp only [ge_iff_le, UInt32.le_iff_toNat_le] at capital
    simp only [Char.reduceVal, UInt32.reduceToNat, UInt32.reduceSub] at sign capital ⊢
    omega
  · exact Iff.rfl

theorem same_iff_toList {s t : String} :
    same s t = true ↔ s.toList.map Char.toLower = t.toList.map Char.toLower := by
  rw [same_iff, ← String.toList_inj, toList_fold, toList_fold]

theorem length_fold (s : String) : (fold s).length = s.length := by
  rw [← String.length_toList, toList_fold, List.length_map, String.length_toList]

theorem fold_eq_of_append {s t u v : String} (h : fold (s ++ u) = fold (t ++ v))
    (lengths : u.length = v.length) : fold s = fold t := by
  simp only [← String.toList_inj, toList_fold, String.toList_append, List.map_append] at h ⊢
  exact List.append_inj_left' h (by simpa)

section Signs

variable {s : String} {c : Char}

theorem mem_fold_iff (sign : c.isAlpha = false) : c ∈ (fold s).toList ↔ c ∈ s.toList := by
  simp [toList_fold, toLower_eq_iff sign]

theorem head?_fold_eq_some_iff (sign : c.isAlpha = false) :
    (fold s).toList.head? = some c ↔ s.toList.head? = some c := by
  rw [toList_fold, List.head?_map]
  cases s.toList.head? with
  | none => simp
  | some d => simp [toLower_eq_iff sign]

theorem getLast?_fold_eq_some_iff (sign : c.isAlpha = false) :
    (fold s).toList.getLast? = some c ↔ s.toList.getLast? = some c := by
  rw [toList_fold, List.getLast?_map]
  cases s.toList.getLast? with
  | none => simp
  | some d => simp [toLower_eq_iff sign]

end Signs

theorem exists_cut_of_fold_eq {name before behind : String}
    (h : fold name = fold (before ++ "." ++ behind)) : ∃ before' behind' : String,
      name = before' ++ "." ++ behind' ∧ fold before' = fold before ∧ fold behind' = fold behind := by
  simp only [← String.toList_inj, toList_fold, String.toList_append, List.map_append,
    List.append_assoc] at h ⊢
  obtain ⟨front, tail, cut, front_eq, tail_eq⟩ := List.map_eq_append_iff.1 h
  obtain ⟨c, rest, rfl, dot, rest_eq⟩ := List.map_eq_cons_iff.1 tail_eq
  have sign : c = '.' := (toLower_eq_iff (by decide)).1 dot
  exact ⟨String.ofList front, String.ofList rest, by simp [cut, sign], by simpa, by simpa⟩

end Text

namespace Name

theorem dropDot_eq_empty_iff {name : String} : dropDot name = "" ↔ name = "" ∨ name = "." := by
  unfold dropDot
  constructor
  · intro h
    split at h
    · rename_i dot
      have dropped : name.toList.dropLast = [] := by simpa [← String.toList_inj] using h
      cases k : name.toList with
      | nil => simp [k] at dot
      | cons c cs =>
        rw [k] at dot dropped
        cases cs with
        | nil =>
          cases dot
          exact .inr (String.toList_inj.1 k)
        | cons => cases dropped
    · exact .inl h
  · rintro (rfl | rfl) <;> decide

theorem append_dot_append_ne_empty (before behind : String) : before ++ "." ++ behind ≠ "" := by
  intro h
  have := congrArg String.toList h
  simp at this

theorem fold_dropDot (name : String) : Text.fold (dropDot name) = dropDot (Text.fold name) := by
  simp only [dropDot, Text.getLast?_fold_eq_some_iff (s := name) (c := '.') (by decide)]
  split
  · apply String.toList_inj.1
    simp [Text.toList_fold, List.map_dropLast]
  · rfl

theorem dropDot_of_same {name other : String} (h : Text.same name other = true)
    (dotless : other.toList.getLast? ≠ some '.') : dropDot name = name := by
  have sign : '.'.isAlpha = false := by decide
  refine if_neg fun dot => dotless ?_
  rwa [← Text.getLast?_fold_eq_some_iff sign, ← Text.same_iff.1 h,
    Text.getLast?_fold_eq_some_iff sign]

theorem dropDot_append {name : String} (h : name ≠ "") (before : String) :
    dropDot (before ++ name) = before ++ dropDot name := by
  have nonempty : name.toList ≠ [] := by simpa
  unfold dropDot
  rw [String.toList_append, List.getLast?_append_of_ne_nil _ nonempty]
  split
  · apply String.toList_inj.1
    simp [List.dropLast_append_of_ne_nil nonempty]
  · rfl

@[simp] theorem dropDot_append_dot (name : String) : dropDot (name ++ ".") = name := by
  rw [dropDot_append (by decide)]
  apply String.toList_inj.1
  simp [dropDot]

/-- The ways to write a name: in any case, with or without one more dot at its end. -/
def Spells (spelling name : String) : Prop :=
  Text.same spelling name = true ∨ Text.same spelling (name ++ ".") = true

instance (spelling name : String) : Decidable (Spells spelling name) :=
  inferInstanceAs (Decidable (_ ∨ _))

theorem Spells.fold_dropDot {spelling name : String} (h : Spells spelling name)
    (dotless : dropDot name = name) : Text.fold (dropDot spelling) = Text.fold name := by
  rw [Name.fold_dropDot]
  rcases h with h | h
  · rw [Text.same_iff.1 h, ← Name.fold_dropDot, dotless]
  · rw [Text.same_iff.1 h, ← Name.fold_dropDot, dropDot_append_dot]

theorem Spells.head?_eq_some_iff {spelling name : String} {c : Char} (h : Spells spelling name)
    (nonempty : name ≠ "") (sign : c.isAlpha = false) :
    spelling.toList.head? = some c ↔ name.toList.head? = some c := by
  have front : (name ++ ".").toList.head? = name.toList.head? := by
    rw [String.toList_append, List.head?_append_of_ne_nil _ (by simpa)]
  rw [← Text.head?_fold_eq_some_iff sign]
  rcases h with h | h
  · rw [Text.same_iff.1 h, Text.head?_fold_eq_some_iff sign]
  · rw [Text.same_iff.1 h, Text.head?_fold_eq_some_iff sign, front]

theorem ensureLocal_ne_empty (name : String) : ensureLocal name ≠ "" := by
  unfold ensureLocal
  split
  · rintro rfl
    rename_i h
    exact absurd h (by decide +kernel)
  · intro h
    have := congrArg String.toList h
    simp [localSuffix] at this

end Name

end MulticastDns

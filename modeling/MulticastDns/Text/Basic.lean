namespace MulticastDns.Text

/-- The text with its ASCII capitals made small; every other character stays. -/
def fold (s : String) : String := s.map Char.toLower

def same (s t : String) : Bool := fold s == fold t

@[simp] theorem same_iff {s t : String} : same s t = true ↔ fold s = fold t := by
  simp [same]

theorem same_refl (s : String) : same s s = true := by simp

theorem same_symm {s t : String} (h : same s t = true) : same t s = true := by
  simp_all

theorem same_trans {s t u : String} (h : same s t = true) (k : same t u = true) :
    same s u = true := by
  simp_all

theorem toList_fold (s : String) : (fold s).toList = s.toList.map Char.toLower := by
  simp [fold, String.toList_map]

theorem fold_append (s t : String) : fold (s ++ t) = fold s ++ fold t := by
  apply String.toList_inj.1
  simp [toList_fold]

/-- The runs of the property `White_Space`. -/
def blankRuns : List (Nat × Nat) :=
  [(0x0009, 0x000D), (0x0020, 0x0020), (0x0085, 0x0085), (0x00A0, 0x00A0), (0x1680, 0x1680),
   (0x2000, 0x200A), (0x2028, 0x2029), (0x202F, 0x202F), (0x205F, 0x205F), (0x3000, 0x3000)]

def isBlank (c : Char) : Bool :=
  blankRuns.any fun run => run.1 ≤ c.toNat && c.toNat ≤ run.2

def trim (s : String) : String :=
  String.ofList ((s.toList.dropWhile isBlank).reverse.dropWhile isBlank).reverse

end MulticastDns.Text

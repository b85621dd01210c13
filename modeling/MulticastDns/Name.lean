import MulticastDns.Text.Basic

/-! Domain names as dotted text. One trailing dot is allowed and means nothing. -/

namespace MulticastDns.Name

def maxLength : Nat := 255

def maxLabelLength : Nat := 63

/-- The name without its last character if that is a dot; a second dot stays. -/
def dropDot (name : String) : String :=
  if name.toList.getLast? = some '.' then String.ofList name.toList.dropLast else name

def dropDots (name : String) : String :=
  String.ofList (name.toList.reverse.dropWhile (· = '.')).reverse

def parts (name : String) : List String := (name.toList.splitOn '.').map String.ofList

def dotted : List String → String
  | [] => ""
  | [label] => label
  | label :: labels => label ++ "." ++ dotted labels

def ofLabels : List String → String
  | [] => "."
  | labels => dotted labels

def localSuffix : String := ".local"

def isLocal (name : String) : Bool := localSuffix.toList.isSuffixOf (Text.fold name).toList

def ensureLocal (name : String) : String := if isLocal name then name else name ++ localSuffix

@[simp] theorem ofLabels_cons (label : String) (labels : List String) :
    ofLabels (label :: labels) = dotted (label :: labels) := rfl

end MulticastDns.Name

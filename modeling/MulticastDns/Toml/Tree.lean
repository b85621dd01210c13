import MulticastDns.Toml.Value

namespace MulticastDns.Toml

/-- How a table came to be: by a header of its own, as a part of the header of another, or as a part
of a dotted key. -/
inductive Origin
  | header
  | implied
  | dotted
  deriving DecidableEq

inductive Item
  | value (v : Value)
  | table (origin : Origin) (entries : List (String × Item))
  | tables (elements : List (List (String × Item)))

abbrev Entries := List (String × Item)

namespace Entries

def alter (es : Entries) (key : String) (f : Option Item → Option Item) : Option Entries :=
  match es with
  | [] => do return [(key, ← f none)]
  | (k, item) :: rest =>
    if k = key then do return (k, ← f (some item)) :: rest
    else do return (k, item) :: (← alter rest key f)

/-- Changes the table at the end of a path, which is made where it is missing. `part` is what the
path is a part of, a header or a dotted key; the latter may not enter a table that has a header. -/
def enter (part : Origin) (g : Origin → Entries → Option Entries) (origin : Origin)
    (es : Entries) : List String → Option Entries
  | [] => g origin es
  | key :: path =>
    alter es key fun
      | none => do return .table part (← enter part g part [] path)
      | some (.value _) => none
      | some (.table o inner) =>
        if part = .dotted ∧ o = .header then none
        else do return .table o (← enter part g o inner path)
      | some (.tables []) => none
      | some (.tables (last :: earlier)) => do
        return .tables ((← enter part g .header last path) :: earlier)

def assign (es : Entries) (path : List String) (key : String) (v : Value) : Option Entries :=
  enter .dotted (fun origin inner => do
    if path ≠ [] ∧ origin ≠ .dotted then none
    alter inner key fun
      | none => some (.value v)
      | some _ => none) .header es path

def openTable (es : Entries) (path : List String) (key : String) : Option Entries :=
  enter .implied (fun _ inner => alter inner key fun
    | none => some (.table .header [])
    | some (.table .implied entries) => some (.table .header entries)
    | some _ => none) .header es path

def openElement (es : Entries) (path : List String) (key : String) : Option Entries :=
  enter .implied (fun _ inner => alter inner key fun
    | none => some (.tables [[]])
    | some (.tables elements) => some (.tables ([] :: elements))
    | some _ => none) .header es path

def assignWithin (es : Entries) (current path : List String) (key : String) (v : Value) :
    Option Entries :=
  enter .implied (fun _ inner => assign inner path key v) .header es current

end Entries

namespace Item

mutual

def toValue : Item → Value
  | .value v => v
  | .table _ entries => .table (entriesToValues entries)
  | .tables elements => .array (elementsToValues elements).reverse

def entriesToValues : List (String × Item) → List (String × Value)
  | [] => []
  | (key, item) :: rest => (key, toValue item) :: entriesToValues rest

def elementsToValues : List (List (String × Item)) → List Value
  | [] => []
  | entries :: rest => .table (entriesToValues entries) :: elementsToValues rest

end

end Item

end MulticastDns.Toml

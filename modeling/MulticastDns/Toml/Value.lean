namespace MulticastDns.Toml

inductive Value
  | text (s : String)
  | integer (n : Int)
  | float
  | boolean (b : Bool)
  | datetime
  | array (items : List Value)
  | table (entries : List (String × Value))

namespace Value

def text? : Value → Option String
  | .text s => some s
  | _ => none

def boolean? : Value → Option Bool
  | .boolean b => some b
  | _ => none

def nat? (bound : Nat) : Value → Option Nat
  | .integer n => if 0 ≤ n ∧ n < bound then some n.toNat else none
  | _ => none

def u16? (v : Value) : Option UInt16 := (v.nat? 0x10000).map .ofNat

def u32? (v : Value) : Option UInt32 := (v.nat? 0x100000000).map .ofNat

def list? {α : Type} (decode : Value → Option α) : Value → Option (List α)
  | .array items => items.mapM decode
  | _ => none

/-- The fields of a record with these names. A table gives them by name, and what has another name
is passed over; an array gives them in order; a date has none of them. -/
def fields? (names : List String) : Value → Option (List (String × Value))
  | .table entries => some entries
  | .array items => some (names.zip items)
  | .datetime => some []
  | _ => none

def field {α : Type} (fields : List (String × Value)) (name : String) (missing : α)
    (decode : Value → Option α) : Option α :=
  match fields.lookup name with
  | none => some missing
  | some v => decode v

end Value

end MulticastDns.Toml

namespace MulticastDns.Text

def hex (n : Nat) : String := String.ofList (Nat.toDigits 16 n)

def hexPadded (width n : Nat) : String :=
  String.ofList ((Nat.toDigits 16 n).leftpad width '0')

def hexOfBytes (bytes : List UInt8) : String :=
  String.join (bytes.map fun b => hexPadded 2 b.toNat)

def hexDigit? (c : Char) : Option Nat :=
  if c.isDigit then some (c.toNat - '0'.toNat)
  else if 'a' ≤ c ∧ c ≤ 'f' then some (c.toNat - 'a'.toNat + 10)
  else none

def bytesFrom (bytes : Array UInt8) : List Char → Option (Array UInt8)
  | [] => some bytes
  | [_] => none
  | high :: low :: rest =>
    match hexDigit? high, hexDigit? low with
    | some h, some l => bytesFrom (bytes.push (.ofNat (h * 16 + l))) rest
    | _, _ => none

def bytesOfHex? (s : String) : Option (Array UInt8) := bytesFrom #[] s.toList

def ofDecimal (digits : List Char) : Nat :=
  digits.foldl (fun n c => n * 10 + (c.toNat - '0'.toNat)) 0

def decimal? (s : String) : Option Nat :=
  let digits := match s.toList with
    | '+' :: rest => rest
    | cs => cs
  if digits ≠ [] ∧ digits.all Char.isDigit then some (ofDecimal digits) else none

end MulticastDns.Text

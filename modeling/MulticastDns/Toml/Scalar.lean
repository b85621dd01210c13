import MulticastDns.Text.Parser
import MulticastDns.Toml.Value

namespace MulticastDns.Toml

open Text (Parser)
open Text.Parser

def isBlank (c : Char) : Bool := c = ' ' || c = '\t'

def isPlain (c : Char) : Bool := c = '\t' || (0x20 ≤ c.toNat && c.toNat ≠ 0x7F)

def blanks : Parser Unit := do let _ ← takeWhile isBlank

def newline : Parser Unit := (do let _ ← char '\n') <|> word "\r\n"

def comment : Parser Unit := do
  let _ ← char '#'
  let _ ← takeWhile isPlain

def lineEnd : Parser Unit := newline <|> done

def trailing : Parser Unit := do
  blanks
  let _ ← optional comment
  lineEnd

def gap : Parser Unit := do
  let _ ← many ((do let _ ← takeWhile1 isBlank) <|> newline <|> comment)

def isHex (c : Char) : Bool := c.isDigit || ('a' ≤ c && c ≤ 'f') || ('A' ≤ c && c ≤ 'F')

def digitValue (c : Char) : Nat :=
  if c.isDigit then c.toNat - '0'.toNat
  else if 'a' ≤ c then c.toNat - 'a'.toNat + 10
  else c.toNat - 'A'.toNat + 10

def ofDigits (base : Nat) (digits : List Char) : Nat :=
  digits.foldl (fun n c => n * base + digitValue c) 0

def codePoint (digits : Nat) : Parser Char := do
  let n := ofDigits 16 (← repeated digits (satisfy isHex))
  if n.isValidChar then return Char.ofNat n else failure

def escaped : Parser Char := do
  let _ ← char '\\'
  let c ← satisfy fun _ => true
  match c with
  | 'b' => return '\x08'
  | 't' => return '\t'
  | 'n' => return '\n'
  | 'f' => return '\x0c'
  | 'r' => return '\r'
  | '"' => return '"'
  | '\\' => return '\\'
  | 'u' => codePoint 4
  | 'U' => codePoint 8
  | _ => failure

def basicChar : Parser Char := satisfy fun c => isPlain c && c ≠ '"' && c ≠ '\\'

def basicString : Parser String := do
  let _ ← char '"'
  let cs ← many (basicChar <|> escaped)
  let _ ← char '"'
  return String.ofList cs

def literalChar : Parser Char := satisfy fun c => isPlain c && c ≠ '\''

def literalString : Parser String := do
  let _ ← char '\''
  let cs ← many literalChar
  let _ ← char '\''
  return String.ofList cs

def innerQuotes (quote : Char) : Parser (List Char) := do
  let qs ← repeated 2 (char quote) <|> repeated 1 (char quote)
  let _ ← ahead (satisfy (· ≠ quote))
  return qs

def closingQuotes (quote : Char) : Parser (List Char) := do
  let qs ← repeated 5 (char quote) <|> repeated 4 (char quote) <|> repeated 3 (char quote)
  return qs.drop 3

def lineJoin : Parser Unit := do
  let _ ← char '\\'
  blanks
  newline
  let _ ← many ((do let _ ← takeWhile1 isBlank) <|> newline)

def multiline (quote : Char) (piece : Parser (List Char)) : Parser String := do
  let _ ← repeated 3 (char quote)
  let _ ← optional newline
  let pieces ← many (piece <|> (do newline; return ['\n']) <|> innerQuotes quote)
  return String.ofList (pieces.flatten ++ (← closingQuotes quote))

def multilineBasic : Parser String :=
  multiline '"' ((do return [← basicChar]) <|> (do lineJoin; return [])
    <|> (do return [← escaped]))

def multilineLiteral : Parser String := multiline '\'' (do return [← literalChar])

def string : Parser String :=
  multilineBasic <|> basicString <|> multilineLiteral <|> literalString

def simpleKey : Parser String :=
  basicString <|> literalString
    <|> (String.ofList <$> takeWhile1 fun c => c.isAlphanum || c = '_' || c = '-')

def depthLimit : Nat := 80

def key : Parser (List String) := do
  let parts ← separated1 (blanks *> simpleKey <* blanks) (char '.')
  if parts.length < depthLimit then return parts else failure

def digits (isDigit : Char → Bool) : Parser (List Char) := do
  let first ← satisfy isDigit
  let rest ← many (satisfy isDigit <|> (char '_' *> satisfy isDigit))
  return first :: rest

def sign : Parser Bool := do
  match ← optional (char '+' <|> char '-') with
  | some '-' => return true
  | _ => return false

def decimal : Parser (Bool × List Char) := do
  let negative ← sign
  let first ← satisfy Char.isDigit
  if first = '0' then return (negative, [first])
  let rest ← many (satisfy Char.isDigit <|> (char '_' *> satisfy Char.isDigit))
  return (negative, first :: rest)

def fits (n : Int) : Bool := -0x8000000000000000 ≤ n && n ≤ 0x7FFFFFFFFFFFFFFF

def inRange (n : Int) : Parser Value := if fits n then return .integer n else failure

def based (mark : String) (base : Nat) (isDigit : Char → Bool) : Parser Value := do
  word mark
  inRange (ofDigits base (← digits isDigit))

def integer : Parser Value :=
  based "0x" 16 isHex <|> based "0o" 8 (fun c => '0' ≤ c && c ≤ '7')
    <|> based "0b" 2 (fun c => c = '0' || c = '1')
    <|> do
      let (negative, ds) ← decimal
      let n : Int := ofDigits 10 ds
      inRange (if negative then -n else n)

/-- The least number that no double is nearest to; it and all above round to infinity. -/
def overflow : Nat := Nat.pow 2 1024 - Nat.pow 2 970

def overflows (n : Nat) (e : Int) : Bool :=
  if n = 0 then false
  else if 0 ≤ e then 400 < e || overflow ≤ n * Nat.pow 10 e.toNat
  else
    let length : Int := (Nat.toDigits 10 n).length
    309 ≤ length + e && overflow * Nat.pow 10 (-e).toNat ≤ n

/-- A number with a fraction or an exponent. One that is too large is refused unless it is
negative. -/
def finite : Parser Value := do
  let (negative, whole) ← decimal
  let fraction ← optional (char '.' *> digits Char.isDigit)
  let exponent ← optional do
    let _ ← char 'e' <|> char 'E'
    let negative ← sign
    let n : Int := ofDigits 10 (← digits Char.isDigit)
    return if negative then -n else n
  if fraction.isNone && exponent.isNone then failure
  let places := fraction.getD []
  let tooLarge := overflows (ofDigits 10 (whole ++ places)) (exponent.getD 0 - places.length)
  if tooLarge && !negative then failure else return .float

def special : Parser Value := do
  let _ ← sign
  word "inf" <|> word "nan"
  return .float

def number (count low high : Nat) : Parser Nat := do
  let n := ofDigits 10 (← repeated count (satisfy Char.isDigit))
  if low ≤ n && n ≤ high then return n else failure

def daysIn (year month : Nat) : Nat :=
  if month = 2 then
    if year % 4 = 0 && (year % 100 ≠ 0 || year % 400 = 0) then 29 else 28
  else if month = 4 || month = 6 || month = 9 || month = 11 then 30
  else 31

def date : Parser Unit := do
  let year ← number 4 0 9999
  let _ ← char '-'
  let month ← number 2 1 12
  let _ ← char '-'
  let _ ← number 2 1 (daysIn year month)

def time : Parser Unit := do
  let _ ← number 2 0 23
  let _ ← char ':'
  let _ ← number 2 0 59
  let _ ← char ':'
  let _ ← number 2 0 60
  let _ ← optional (char '.' *> takeWhile1 Char.isDigit)

def zone : Parser Unit := do
  let mark ← satisfy fun c => c = 'Z' || c = 'z' || c = '+' || c = '-'
  if mark = '+' || mark = '-' then
    let _ ← number 2 0 23
    let _ ← char ':'
    let _ ← number 2 0 59

def datetime : Parser Value := do
  (do
    date
    let _ ← optional do
      let _ ← char 'T' <|> char 't' <|> char ' '
      time
      let _ ← optional zone) <|> time
  return .datetime

def boolean : Parser Value :=
  (do word "true"; return .boolean true) <|> (do word "false"; return .boolean false)

def scalar : Parser Value :=
  (Value.text <$> string) <|> datetime <|> finite <|> special <|> integer <|> boolean

end MulticastDns.Toml

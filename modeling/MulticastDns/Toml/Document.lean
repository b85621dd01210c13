import MulticastDns.Toml.Scalar
import MulticastDns.Toml.Tree

namespace MulticastDns.Toml

open Text (Parser)
open Text.Parser

def splitKey (parts : List String) : Option (List String × String) :=
  parts.getLast?.map fun last => (parts.dropLast, last)

def assignment (v : Parser Value) : Parser (List String × Value) := do
  let k ← key
  let _ ← char '='
  blanks
  return (k, ← v)

def array (v : Parser Value) : Parser Value := do
  let _ ← char '['
  let items ← separated (gap *> v <* gap) (char ',')
  if !items.isEmpty then
    let _ ← optional (char ',')
  gap
  let _ ← char ']'
  return .array items

def addField (es : Entries) (field : List String × Value) : Option Entries := do
  let (path, last) ← splitKey field.1
  es.assign path last field.2

def inlineTable (v : Parser Value) : Parser Value := do
  let _ ← char '\x7b'
  let fields ← separated (assignment v <* blanks) (char ',')
  blanks
  let _ ← char '\x7d'
  match fields.foldlM addField [] with
  | none => failure
  | some es => return .table (Item.entriesToValues es)

def value : Nat → Parser Value
  | 0 => scalar
  | depth + 1 => scalar <|> array (value depth) <|> inlineTable (value depth)

inductive Statement
  | assign (key : List String) (v : Value)
  | table (key : List String)
  | element (key : List String)

def statement : Parser (Option Statement) := do
  blanks
  (do comment; lineEnd; return none)
    <|> (do newline; return none)
    <|> (do word "[["; let k ← key; word "]]"; trailing; return some (.element k))
    <|> (do word "["; let k ← key; word "]"; trailing; return some (.table k))
    <|> (do
      let (k, v) ← assignment (value (depthLimit - 1))
      trailing
      return some (.assign k v))

def statements : Parser (List Statement) := do
  let _ ← optional (char '\uFEFF')
  let lines ← many statement
  blanks
  done
  return lines.filterMap id

structure Draft where
  entries : Entries
  current : List String

def Draft.add (d : Draft) : Statement → Option Draft
  | .assign k v => do
    let (path, last) ← splitKey k
    return { d with entries := ← d.entries.assignWithin d.current path last v }
  | .table k => do
    let (path, last) ← splitKey k
    return ⟨← d.entries.openTable path last, k⟩
  | .element k => do
    let (path, last) ← splitKey k
    return ⟨← d.entries.openElement path last, k⟩

def parse (s : String) : Option (List (String × Value)) := do
  let (lines, _) ← statements s.toList
  let d ← lines.foldlM Draft.add ⟨[], []⟩
  return Item.entriesToValues d.entries

end MulticastDns.Toml

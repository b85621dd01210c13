namespace MulticastDns.Text

/-- A failure consumes nothing, so that a choice may try the next parser. -/
abbrev Parser := StateT (List Char) Option

namespace Parser

variable {α β : Type}

def satisfy (p : Char → Bool) : Parser Char
  | [] => none
  | c :: rest => if p c then some (c, rest) else none

def char (c : Char) : Parser Char := satisfy (· = c)

def word (s : String) : Parser Unit := fun cs =>
  if s.toList.isPrefixOf cs then some ((), cs.drop s.toList.length) else none

def takeWhile (p : Char → Bool) : Parser (List Char) := fun cs =>
  some (cs.takeWhile p, cs.dropWhile p)

def takeWhile1 (p : Char → Bool) : Parser (List Char) := do
  let c ← satisfy p
  return c :: (← takeWhile p)

def done : Parser Unit := fun cs => if cs.isEmpty then some ((), []) else none

def ahead (p : Parser α) : Parser α := fun cs => (p cs).map fun (a, _) => (a, cs)

def manyFrom (p : Parser α) (cs : List Char) : List α × List Char :=
  match p cs with
  | none => ([], cs)
  | some (a, rest) =>
    if rest.length < cs.length then
      let (as, rest) := manyFrom p rest
      (a :: as, rest)
    else ([], cs)
termination_by cs.length

def many (p : Parser α) : Parser (List α) := fun cs => some (manyFrom p cs)

def separated1 (p : Parser α) (separator : Parser β) : Parser (List α) := do
  let a ← p
  return a :: (← many (separator *> p))

def separated (p : Parser α) (separator : Parser β) : Parser (List α) :=
  separated1 p separator <|> pure []

def repeated : Nat → Parser α → Parser (List α)
  | 0, _ => pure []
  | n + 1, p => do
    let a ← p
    return a :: (← repeated n p)

end Parser

end MulticastDns.Text

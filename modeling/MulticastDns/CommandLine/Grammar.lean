namespace MulticastDns.CommandLine

inductive Refusal
  | help
  | helpForNothing
  | version
  | unknownArgument
  | unknownCommand
  | missingCommand
  | missingArgument
  | conflict
  | invalidValue
  | rejectedValue
  | unwantedValue
  deriving DecidableEq

namespace Refusal

def exitCode : Refusal → Nat
  | .help => 0
  | .version => 0
  | _ => 2

def message : Refusal → String
  | .help => "help"
  | .helpForNothing => "nothing to do"
  | .version => "version"
  | .unknownArgument => "unknown argument"
  | .unknownCommand => "unknown command"
  | .missingCommand => "a command is missing"
  | .missingArgument => "an argument is missing"
  | .conflict => "an argument is given twice, or beside one that excludes it"
  | .invalidValue => "a value is missing or not allowed"
  | .rejectedValue => "a value is not a number in its range"
  | .unwantedValue => "a value is given to a flag"

end Refusal

inductive Role
  | flag
  | option (check : String → Option Refusal)
  | help
  | version

structure Argument where
  name : String
  short : Option Char
  long : String
  role : Role

structure Grammar where
  arguments : List Argument
  positional : Option String
  exclusive : List (String × String)
  commands : List String

def anyValue (_ : String) : Option Refusal := none

def helpArgument : Argument := ⟨"help", some 'h', "help", .help⟩

def versionArgument : Argument := ⟨"version", some 'V', "version", .version⟩

abbrev Found := List (String × String)

namespace Found

def has (found : Found) (name : String) : Bool := found.any (·.1 = name)

def value? (found : Found) (name : String) : Option String := found.lookup name

end Found

structure Progress where
  found : Found
  pending : Option (String × Role × Option String)
  expecting : Bool
  filled : Bool
  trailing : Bool

namespace Progress

def start : Progress := ⟨[], none, false, false, false⟩

def take (s : Progress) (name value : String) : Except Refusal Progress :=
  if s.found.has name then .error .conflict
  else .ok { s with found := s.found ++ [(name, value)] }

def takeOption (s : Progress) (name : String) (check : String → Option Refusal) (value : String) :
    Except Refusal Progress := do
  let s ← s.take name value
  match check value with
  | none => return s
  | some refusal => throw refusal

def settle (s : Progress) : Except Refusal Progress :=
  match s.pending with
  | none => .ok s
  | some (name, role, value) =>
    let s := { s with pending := none }
    match role, value with
    | .option _, none => .error .invalidValue
    | .option check, some v => s.takeOption name check v
    | _, v => s.take name (v.getD "")

def readFlag (s : Progress) (a : Argument) : Except Refusal Progress := do
  let s ← s.settle
  match a.role with
  | .help => throw .help
  | .version => throw .version
  | _ => return { ← s.take a.name "" with expecting := false }

def readOption (s : Progress) (a : Argument) (check : String → Option Refusal) :
    Option String → Except Refusal Progress
  | some v => do
    let s ← s.settle
    return { ← s.takeOption a.name check v with expecting := false }
  | none => do
    let s ← s.settle
    return { s with pending := some (a.name, .option check, none), expecting := true }

def readLong (g : Grammar) (s : Progress) (word : List Char) : Except Refusal Progress :=
  let name := String.ofList (word.takeWhile (· ≠ '='))
  let value := match word.dropWhile (· ≠ '=') with
    | [] => none
    | _ :: v => some (String.ofList v)
  match g.arguments.find? (·.long = name) with
  | none => .error .unknownArgument
  | some a =>
    match a.role, value with
    | .option check, v => s.readOption a check v
    | _, some _ => .error .unwantedValue
    | _, none => s.readFlag a

def readShort (g : Grammar) (s : Progress) : List Char → Except Refusal Progress
  | [] => .ok s
  | c :: rest =>
    match g.arguments.find? (·.short = some c) with
    | none => .error .unknownArgument
    | some a =>
      match a.role with
      | .option check =>
        match rest with
        | [] => s.readOption a check none
        | '=' :: v => s.readOption a check (some (String.ofList v))
        | v => s.readOption a check (some (String.ofList v))
      | _ => do
        let s ← s.readFlag a
        readShort g s rest

def readPositional (g : Grammar) (s : Progress) (word : String) : Except Refusal Progress :=
  match g.positional with
  | some name =>
    if s.filled then .error .unknownArgument
    else do
      let s ← s.settle
      return { s with pending := some (name, .flag, some word), filled := true }
  | none =>
    if g.commands.isEmpty ∨ (s.trailing ∧ word ∈ g.commands) then .error .unknownArgument
    else .error .unknownCommand

def read (g : Grammar) (s : Progress) (word : String) : Except Refusal Progress :=
  if s.trailing then s.readPositional g word
  else
    match word.toList with
    | ['-', '-'] => .ok { s with trailing := true }
    | '-' :: '-' :: rest => s.readLong g rest
    | '-' :: c :: rest => s.readShort g (c :: rest)
    | _ =>
      if s.expecting then
        .ok { s with
          pending := s.pending.map fun (name, role, _) => (name, role, some word)
          expecting := false }
      else s.readPositional g word

end Progress

/-- What a command line comes to: what it holds, and the command that follows with its words. -/
structure Reading where
  found : Found
  command : Option (String × List String)

namespace Grammar

def readWords (g : Grammar) (s : Progress) : List String → Except Refusal Reading
  | [] => do
    let s ← s.settle
    return ⟨s.found, none⟩
  | word :: rest =>
    if !s.trailing ∧ !s.expecting ∧ word ∈ g.commands then do
      let s ← s.settle
      return ⟨s.found, some (word, rest)⟩
    else do
      let s ← s.read g word
      readWords g s rest

def check (g : Grammar) (r : Reading) : Except Refusal Reading :=
  if r.command.isNone ∧ !g.commands.isEmpty then
    if r.found.isEmpty then .error .helpForNothing else .error .missingCommand
  else if g.exclusive.any fun (a, b) => r.found.has a && r.found.has b then .error .conflict
  else if g.positional.any fun name => !r.found.has name then .error .missingArgument
  else .ok r

def read (g : Grammar) (words : List String) : Except Refusal Reading := do
  g.check (← g.readWords .start words)

end Grammar

def helpFor (commands : List String) : List String → Refusal
  | [] => .help
  | [command] => if command ∈ commands then .help else .unknownCommand
  | _ => .unknownCommand

def oneOf (words : List String) (value : String) : Option Refusal :=
  if value ∈ words then none else some .invalidValue

namespace Argument

def usage (a : Argument) : String :=
  let short := match a.short with
    | some c => s!"-{c}, "
    | none => "    "
  let value := match a.role with
    | .option _ => " VALUE"
    | _ => ""
  s!"  {short}--{a.long}{value}"

end Argument

namespace Grammar

def usage (g : Grammar) (program : String) : List String :=
  let positional := g.positional.elim "" fun name => s!" <{name}>"
  let command := if g.commands.isEmpty then "" else " " ++ "|".intercalate g.commands
  s!"usage: {program} [options]{positional}{command}" :: g.arguments.map Argument.usage

end Grammar

end MulticastDns.CommandLine

import MulticastDns.Log
import MulticastDns.Text.Json

namespace MulticastDns

inductive LogFormat
  | text
  | json
  deriving DecidableEq

namespace Event

def line (e : Event) : String := s!"{e.level.text} {e.source.text}: {e.message}"

def json (e : Event) : Text.Json :=
  .object [("level", .text e.level.text), ("fields", .object [("message", .text e.message)]),
    ("target", .text e.source.text)]

def shown (e : Event) : LogFormat → String
  | .text => e.line
  | .json => e.json.render

end Event

namespace Report

def lines (s : String) : List String := (s.toList.splitOn '\n').map String.ofList

def cause (mark indent message : String) : String :=
  mark ++ ("\n" ++ indent).intercalate (lines message) ++ "\n"

def numbered (n : Nat) : List String → List String
  | [] => []
  | message :: rest => cause s!"    {n}: " "       " message :: numbered (n + 1) rest

def render : List String → String
  | [] => ""
  | [message] => s!"Error: {message}\n"
  | [message, reason] => s!"Error: {message}\n\nCaused by:\n" ++ cause "    " "    " reason
  | message :: reasons => s!"Error: {message}\n\nCaused by:\n" ++ String.join (numbered 0 reasons)

end Report

end MulticastDns

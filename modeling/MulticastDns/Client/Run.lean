import MulticastDns.Client.Browse
import MulticastDns.Client.Lookup
import MulticastDns.CommandLine.Grammar
import MulticastDns.Text.Hex

namespace MulticastDns.Client

open CommandLine

inductive Command
  | lookup (q : Lookup)
  | browse (b : Browse)
  deriving DecidableEq

structure Invocation where
  command : Command
  verbose : Bool
  deriving DecidableEq

namespace Invocation

def maxWait : Nat := 3600

def wait? (value : String) : Option Nat := do
  let n ← Text.decimal? value
  guard (1 ≤ n ∧ n ≤ maxWait)
  return n

def checkWait (value : String) : Option Refusal :=
  if (wait? value).isSome then none else some .rejectedValue

def verboseArgument : Argument := ⟨"verbose", some 'v', "verbose", .flag⟩

def sharedArguments : List Argument :=
  [⟨"interface", some 'i', "interface", .option anyValue⟩,
    ⟨"wait", some 'w', "wait", .option checkWait⟩, ⟨"json", none, "json", .flag⟩, verboseArgument,
    helpArgument]

def grammar : Grammar :=
  ⟨[verboseArgument, helpArgument, versionArgument], none, [], ["query", "browse", "help"]⟩

def kinds : List (String × LookupKind) :=
  [("hostname", .hostname), ("service", .service), ("ipv4", .ipv4), ("ipv6", .ipv6)]

def lookupGrammar : Grammar where
  arguments :=
    [⟨"type", some 't', "type", .option (oneOf (kinds.map (·.1)))⟩,
      ⟨"ipv4", some '4', "ipv4", .flag⟩, ⟨"ipv6", some '6', "ipv6", .flag⟩] ++ sharedArguments
  positional := some "name"
  exclusive := [("ipv4", "ipv6")]
  commands := []

def browseGrammar : Grammar := ⟨sharedArguments, some "service type", [], []⟩

def style (found : Found) : Style := if found.has "json" then .json else .plain

def waitOf (found : Found) (missing : Nat) : Nat :=
  ((found.value? "wait").bind wait?).getD missing

def lookupOf (found : Found) : Lookup where
  name := (found.value? "name").getD ""
  kind := ((found.value? "type").bind fun v => kinds.lookup v).getD .hostname
  ipv4 := found.has "ipv4"
  ipv6 := found.has "ipv6"
  interface := found.value? "interface"
  wait := waitOf found 1
  style := style found

def browseOf (found : Found) : Browse where
  kind := (found.value? "service type").getD ""
  interface := found.value? "interface"
  wait := waitOf found 2
  style := style found

def ofWords (words : List String) : Except Refusal Invocation := do
  let outer ← grammar.read words
  match outer.command with
  | some ("query", rest) =>
    let inner ← lookupGrammar.read rest
    return ⟨.lookup (lookupOf inner.found), outer.found.has "verbose" || inner.found.has "verbose"⟩
  | some ("browse", rest) =>
    let inner ← browseGrammar.read rest
    return ⟨.browse (browseOf inner.found), outer.found.has "verbose" || inner.found.has "verbose"⟩
  | some (_, rest) => throw (helpFor grammar.commands rest)
  | none => throw .missingCommand

end Invocation

namespace Command

def run (c : Command) (l : Link) (arrivals : List Datagram) : Logged Session :=
  match c with
  | .lookup q => q.run l arrivals
  | .browse b => b.run l arrivals

end Command

namespace Invocation

def level (i : Invocation) : Level := if i.verbose then .debug else .warn

def run (i : Invocation) (l : Link) (arrivals : List Datagram) : Logged Session :=
  (i.command.run l arrivals).upTo i.level

end Invocation

namespace Session

def exitCode (s : Session) : Nat :=
  match s.outcome with
  | .ok true => 0
  | _ => 1

end Session

end MulticastDns.Client

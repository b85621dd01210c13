import MulticastDns.Client.Session
import MulticastDns.Wire.Message

namespace MulticastDns.Client

inductive LookupKind
  | hostname
  | service
  | ipv4
  | ipv6
  deriving DecidableEq

structure Lookup where
  name : String
  kind : LookupKind
  ipv4 : Bool
  ipv6 : Bool
  interface : Option String
  wait : Nat
  style : Style
  deriving DecidableEq

namespace Lookup

def types (kind : LookupKind) (ipv4 ipv6 : Bool) : Except Failure (List UInt16) :=
  match kind with
  | .hostname =>
    .ok (if ipv4 then [RecordType.a]
      else if ipv6 then [RecordType.aaaa]
      else [RecordType.a, RecordType.aaaa])
  | other =>
    if ipv4 || ipv6 then .error .familyWithoutHostname
    else
      .ok (match other with
        | .service => [RecordType.srv]
        | .ipv4 => [RecordType.a]
        | _ => [RecordType.aaaa])

def fullName (kind : LookupKind) (name : String) : String :=
  if kind ≠ .service ∧ '.' ∉ name.toList then name ++ Name.localSuffix else name

def send (name : String) : List UInt16 → Logged (Option Failure × List (List UInt8))
  | [] => pure (none, [])
  | qtype :: rest =>
    match Query.encode name qtype true with
    | .error e => pure (some (.invalidName name e), [])
    | .ok packet => do
      debug s!"Sent {RecordType.mnemonic qtype} query for {name}"
      let (failure, sent) ← send name rest
      return (failure, packet :: sent)

def run (q : Lookup) (l : Link) (arrivals : List Datagram) : Logged Session := do
  let name := fullName q.kind q.name
  match types q.kind q.ipv4 q.ipv6, interfaceIndex l q.interface with
  | .error e, _ => return .failed e []
  | .ok _, .error e => return .failed e []
  | .ok qtypes, .ok _ =>
    let (failure, sent) ← send name qtypes
    match failure with
    | some e => return .failed e sent
    | none =>
      let found ← responses (Inbox.collect arrivals)
      let shown := found.flatMap fun (source, m) => printed q.style source m.records
      let ending := if found.isEmpty ∧ q.style = .plain then [nothingFound name q.wait] else []
      return ⟨.ok !found.isEmpty, sent, shown ++ ending⟩

end Lookup

end MulticastDns.Client

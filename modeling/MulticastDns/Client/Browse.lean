import MulticastDns.Client.Session
import MulticastDns.Wire.Message

namespace MulticastDns.Client

structure Browse where
  kind : String
  interface : Option String
  wait : Nat
  style : Style
  deriving DecidableEq

namespace Browse

def fullName (kind : String) : Except Failure String :=
  let kind := Name.dropDots kind
  if kind = "" then .error .emptyKind else .ok (Name.ensureLocal kind)

def shows (name : String) (r : Record) : Bool :=
  if r.rtype = RecordType.ptr then Text.same r.name name
  else r.rtype ∈ [RecordType.srv, RecordType.txt, RecordType.a, RecordType.aaaa]

def run (b : Browse) (l : Link) (arrivals : List Datagram) : Logged Session := do
  match fullName b.kind, interfaceIndex l b.interface with
  | .error e, _ => return .failed e []
  | .ok _, .error e => return .failed e []
  | .ok name, .ok index =>
    .tell .debug .core (s!"Joined {Endpoint.groupAddress.text} on interface index {index.toNat} "
      ++ s!"port {Endpoint.multicastPort.toNat}")
    match Query.encode name RecordType.ptr false with
    | .error e => return .failed (.invalidKind b.kind e) []
    | .ok packet =>
      debug s!"Browsing {name} for {b.wait} second(s) on interface index {index.toNat}"
      let opening := if b.style = .plain then [s!"Query sent: PTR {name}"] else []
      let found ← responses (Inbox.collect arrivals)
      let chosen := found.map fun (source, m) => (source, m.records.filter (shows name))
      let shown := chosen.flatMap fun (source, records) => printed b.style source records
      let any := chosen.any fun (_, records) => !records.isEmpty
      let ending := if any then [] else [nothingFound name b.wait]
      return ⟨.ok any, [packet], opening ++ shown ++ ending⟩

end Browse

end MulticastDns.Client

import MulticastDns.Host
import MulticastDns.Message
import MulticastDns.Registry

namespace MulticastDns

inductive Resolution
  | host (h : Host)
  | services (found : List Service)
  | noMatch
  | unsupported (qtype : UInt16)
  deriving DecidableEq

namespace Resolution

def limit : Nat := 32

def splitDot? (cs : List Char) : Option (List Char × List Char) :=
  match cs.dropWhile (· ≠ '.') with
  | [] => none
  | _ :: rest => some (cs.takeWhile (· ≠ '.'), rest)

/-- A name `_service._protocol.domain` as its service type and its domain, the latter without a
trailing dot. The first two labels must start with an underscore. -/
def splitKind? (name : String) : Option (String × String) := do
  let cs := name.toList
  guard (cs.head? = some '_')
  let (service, rest) ← splitDot? cs
  guard (rest.head? = some '_')
  let (protocol, domain) ← splitDot? rest
  return (String.ofList (service ++ '.' :: protocol), Name.dropDot (String.ofList domain))

/-- A name that starts with an underscore asks for every service of a type, any other for the one
service of that name. -/
def findServices (name : String) (r : Registry) : List Service :=
  if name.toList.head? = some '_' then
    match splitKind? name with
    | some (kind, domain) => r.ofKind kind domain limit
    | none => []
  else (r.find? (Name.dropDot name)).toList

end Resolution

def resolve (q : Question) (h : Host) (r : Registry) : Resolution :=
  if q.qtype = RecordType.a ∨ q.qtype = RecordType.aaaa then
    if h.answersTo q.name then .host h else .noMatch
  else if q.qtype = RecordType.srv then
    match Resolution.findServices q.name r with
    | [] => .noMatch
    | found => .services found
  else .unsupported q.qtype

end MulticastDns

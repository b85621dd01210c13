import MulticastDns.Message
import MulticastDns.Net.Address
import MulticastDns.Text.Json

namespace MulticastDns

namespace Record

def line (r : Record) : String :=
  s!"  {RecordType.mnemonic r.rtype} {r.name} {r.data.text} (ttl={r.ttl.toNat})"

end Record

namespace RData

def json : RData → Text.Json
  | .a address => .object [("a", .text address.text)]
  | .aaaa address => .object [("aaaa", .text address.text)]
  | .ptr name => .object [("ptr", .text name)]
  | .srv priority weight port target =>
    .object [("srv", .object [("priority", .number priority.toNat),
      ("weight", .number weight.toNat), ("port", .number port.toNat), ("target", .text target)])]
  | .txt strings => .object [("txt", .array (strings.map .text))]
  | .other bytes => .object [("other", .array (bytes.map fun b => .number b.toNat))]

end RData

namespace Record

def json (r : Record) (source : Endpoint) : Text.Json :=
  .object [("from", .text source.text), ("name", .text r.name),
    ("type", .text (RecordType.mnemonic r.rtype)), ("ttl", .number r.ttl.toNat),
    ("cache_flush", .bool r.cacheFlush), ("data", r.data.json)]

end Record

namespace Client

inductive Style
  | plain
  | json
  deriving DecidableEq

def printed (style : Style) (source : Endpoint) (records : List Record) : List String :=
  match style with
  | .json => records.map fun r => (r.json source).render
  | .plain =>
    if records.isEmpty then []
    else ("Response from " ++ source.text) :: records.map Record.line

def unlines (lines : List String) : String := String.join (lines.map (· ++ "\n"))

end Client

end MulticastDns

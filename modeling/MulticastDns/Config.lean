import MulticastDns.Registry
import MulticastDns.Responder
import MulticastDns.Text.Utf8
import MulticastDns.Toml.Document
import MulticastDns.Toml.Value

namespace MulticastDns

structure Settings where
  interface : Option String
  hostname : Option String
  ttl : UInt32
  reply : ReplyMode
  cacheFlush : Bool
  deriving DecidableEq

structure Config where
  settings : Settings
  services : List Service
  deriving DecidableEq

inductive ConfigError
  | missing
  | notUtf8
  | malformed
  deriving DecidableEq

namespace ReplyMode

def ofName? (name : String) : Option ReplyMode :=
  if name = "source" then some .source
  else if name = "multicast" then some .multicast
  else none

def ofValue? : Toml.Value → Option ReplyMode
  | .text name => ofName? name
  | .table [(name, .table [])] => ofName? name
  | .table [(name, .array [])] => ofName? name
  | _ => none

end ReplyMode

namespace Settings

def default : Settings := ⟨none, none, defaultTtl, .source, true⟩

def fieldNames : List String := ["interface", "hostname", "ttl", "reply", "cache_flush"]

/-- Whether every field is there that has no default. By position, that is the two names. -/
def isFull : Toml.Value → Bool
  | .array items => 2 ≤ items.length
  | _ => true

def ofValue? (v : Toml.Value) : Option Settings := do
  guard (isFull v)
  let fields ← v.fields? fieldNames
  return {
    interface := ← Toml.Value.field fields "interface" none fun v => v.text?.map some
    hostname := ← Toml.Value.field fields "hostname" none fun v => v.text?.map some
    ttl := ← Toml.Value.field fields "ttl" defaultTtl Toml.Value.u32?
    reply := ← Toml.Value.field fields "reply" .source ReplyMode.ofValue?
    cacheFlush := ← Toml.Value.field fields "cache_flush" true Toml.Value.boolean? }

end Settings

namespace Service

def fieldNames : List String :=
  ["instance", "type", "domain", "priority", "weight", "port", "target", "txt", "ttl"]

/-- Missing fields are left blank, and it is for the registry to refuse them. -/
def ofValue? (v : Toml.Value) : Option Service := do
  let fields ← v.fields? fieldNames
  return {
    instanceName := ← Toml.Value.field fields "instance" blank.instanceName Toml.Value.text?
    kind := ← Toml.Value.field fields "type" blank.kind Toml.Value.text?
    domain := ← Toml.Value.field fields "domain" blank.domain Toml.Value.text?
    priority := ← Toml.Value.field fields "priority" blank.priority Toml.Value.u16?
    weight := ← Toml.Value.field fields "weight" blank.weight Toml.Value.u16?
    port := ← Toml.Value.field fields "port" blank.port Toml.Value.u16?
    target := ← Toml.Value.field fields "target" blank.target Toml.Value.text?
    txt := ← Toml.Value.field fields "txt" blank.txt (Toml.Value.list? Toml.Value.text?)
    ttl := ← Toml.Value.field fields "ttl" blank.ttl Toml.Value.u32? }

end Service

namespace Config

def default : Config := ⟨.default, []⟩

def ofTable? (table : List (String × Toml.Value)) : Option Config := do
  return {
    settings := ← Toml.Value.field table "responder" .default Settings.ofValue?
    services := ← Toml.Value.field table "service" [] (Toml.Value.list? Service.ofValue?) }

def parse (contents : String) : Except ConfigError Config :=
  match (Toml.parse contents).bind ofTable? with
  | some config => .ok config
  | none => .error .malformed

def load : Option (Array UInt8) → Except ConfigError Config
  | none => .error .missing
  | some bytes =>
    match Text.ofUtf8? bytes with
    | none => .error .notUtf8
    | some contents => parse contents

def registerAll : List Service → Registry → Logged (Nat × Registry)
  | [], r => pure (0, r)
  | s :: rest, r => do
    match ← r.register s with
    | .ok r =>
      .tell .info .responder s!"Registered service: {s.key}:{s.port.toNat}"
      let (loaded, r) ← registerAll rest r
      return (loaded + 1, r)
    | .error e =>
      .tell .warn .responder s!"Config: failed to register service '{s.key}': {e.message}"
      registerAll rest r

def registerServices (c : Config) (r : Registry) : Logged (Nat × Registry) :=
  registerAll c.services r

end Config

end MulticastDns

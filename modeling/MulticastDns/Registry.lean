import MulticastDns.Log
import MulticastDns.Name
import MulticastDns.Text.Quoted

namespace MulticastDns

def defaultTtl : UInt32 := 120

structure Service where
  instanceName : String
  kind : String
  domain : String
  priority : UInt16
  weight : UInt16
  port : UInt16
  target : String
  txt : List String
  ttl : UInt32
  deriving DecidableEq

namespace Service

/-- The name of the instance's records. It is what tells two services apart. -/
def key (s : Service) : String := s.instanceName ++ "." ++ s.kind ++ "." ++ s.domain

def effectiveTtl (s : Service) : UInt32 := if s.ttl = 0 then defaultTtl else s.ttl

def blank : Service := ⟨"", "", "local", 0, 0, 0, "", [], defaultTtl⟩

end Service

inductive InvalidService
  | emptyField (field : String)
  | domainNotLocal (domain : String)
  | kindWithoutUnderscore (kind : String)
  | zeroPort
  deriving DecidableEq

namespace InvalidService

def message : InvalidService → String
  | .emptyField field => s!"{field} must not be empty"
  | .domainNotLocal domain => s!"domain {Text.quoted domain} is not \"local\""
  | .kindWithoutUnderscore kind => s!"service type {Text.quoted kind} must start with '_'"
  | .zeroPort => "port must not be zero"

end InvalidService

inductive RegistryError
  | invalid (reason : InvalidService)
  | conflict (key : String)
  | notFound (key : String)
  deriving DecidableEq

namespace RegistryError

def message : RegistryError → String
  | .invalid reason => s!"invalid service record: {reason.message}"
  | .conflict key => s!"service {key} is already registered"
  | .notFound key => s!"service {key} is not registered"

end RegistryError

namespace Service

def requiredFields (s : Service) : List (String × String) :=
  [("instance", s.instanceName), ("service type", s.kind), ("domain", s.domain),
    ("target host", s.target)]

def fault? (s : Service) : Option InvalidService :=
  match s.requiredFields.find? (·.2 = "") with
  | some (field, _) => some (.emptyField field)
  | none =>
    if Text.same s.domain "local" = false then some (.domainNotLocal s.domain)
    else if s.kind.toList.head? ≠ some '_' then some (.kindWithoutUnderscore s.kind)
    else if s.port = 0 then some .zeroPort
    else none

end Service

structure Registry where
  services : List Service
  deriving DecidableEq

namespace Registry

def empty : Registry := ⟨[]⟩

def size (r : Registry) : Nat := r.services.length

def isEmpty (r : Registry) : Bool := r.services.isEmpty

def list (r : Registry) (limit : Nat) : List Service := r.services.take limit

def hasKey (key : String) (s : Service) : Bool := Text.same s.key key

def find? (r : Registry) (key : String) : Option Service := r.services.find? (hasKey key)

def isOfKind (kind domain : String) (s : Service) : Bool :=
  Text.same s.kind kind && Text.same s.domain domain

def ofKind (r : Registry) (kind domain : String) (limit : Nat) : List Service :=
  (r.services.filter (isOfKind kind domain)).take limit

def stored (s : Service) : Service := { s with ttl := s.effectiveTtl }

/-- Adds a service behind the others. One with the same key is never replaced. -/
def insert (r : Registry) (s : Service) : Except RegistryError Registry :=
  match s.fault? with
  | some reason => .error (.invalid reason)
  | none =>
    match r.find? s.key with
    | some _ => .error (.conflict s.key)
    | none => .ok ⟨r.services ++ [stored s]⟩

def renewed (old new : Service) : Service :=
  { stored new with instanceName := old.instanceName, kind := old.kind, domain := old.domain }

def changeFirst (p : Service → Bool) (f : Service → Service) : List Service → List Service
  | [] => []
  | s :: rest => if p s then f s :: rest else s :: changeFirst p f rest

def update (r : Registry) (s : Service) : Except RegistryError Registry :=
  match s.fault? with
  | some reason => .error (.invalid reason)
  | none =>
    match r.find? s.key with
    | none => .error (.notFound s.key)
    | some _ => .ok ⟨changeFirst (hasKey s.key) (renewed · s) r.services⟩

def remove (r : Registry) (key : String) : Except RegistryError (Service × Registry) :=
  match r.find? key with
  | none => .error (.notFound key)
  | some s => .ok (s, ⟨r.services.eraseP (hasKey key)⟩)

def clear (_ : Registry) : Registry := empty

def register (r : Registry) (s : Service) : Logged (Except RegistryError Registry) := do
  match r.insert s with
  | .error e => return .error e
  | .ok r =>
    .tell .debug .core s!"Registered service {s.key} on port {s.port.toNat}"
    return .ok r

def registerEach (r : Registry) :
    List Service → Logged (List (Except RegistryError Unit) × Registry)
  | [] => pure ([], r)
  | s :: rest => do
    let outcome ← r.register s
    let (results, r) ← registerEach (outcome.toOption.getD r) rest
    return (outcome.map (fun _ => ()) :: results, r)

def replace (r : Registry) (s : Service) : Logged (Except RegistryError Registry) := do
  match r.update s with
  | .error e => return .error e
  | .ok r =>
    .tell .debug .core s!"Updated service {s.key}"
    return .ok r

@[simp] theorem value_register (r : Registry) (s : Service) :
    (r.register s).value = r.insert s := by
  unfold register
  cases r.insert s <;> rfl

@[simp] theorem value_replace (r : Registry) (s : Service) :
    (r.replace s).value = r.update s := by
  unfold replace
  cases r.update s <;> rfl

end Registry

end MulticastDns

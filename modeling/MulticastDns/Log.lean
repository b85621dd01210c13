namespace MulticastDns

inductive Level
  | error
  | warn
  | info
  | debug
  | trace
  deriving DecidableEq

namespace Level

def text : Level → String
  | .error => "ERROR"
  | .warn => "WARN"
  | .info => "INFO"
  | .debug => "DEBUG"
  | .trace => "TRACE"

def rank : Level → Nat
  | .error => 0
  | .warn => 1
  | .info => 2
  | .debug => 3
  | .trace => 4

end Level

inductive Source
  | core
  | responder
  | client
  deriving DecidableEq

namespace Source

def text : Source → String
  | .core => "shared"
  | .responder => "mdnsd"
  | .client => "mdns_client"

end Source

structure Event where
  level : Level
  source : Source
  message : String
  deriving DecidableEq

/-- A value with the events of its computation, in order. -/
structure Logged (α : Type) where
  value : α
  events : List Event

namespace Logged

variable {α β : Type}

protected def pure (a : α) : Logged α := ⟨a, []⟩

protected def bind (m : Logged α) (f : α → Logged β) : Logged β :=
  let next := f m.value
  ⟨next.value, m.events ++ next.events⟩

instance : Monad Logged where
  pure := Logged.pure
  bind := Logged.bind

@[simp] theorem value_pure (a : α) : (pure a : Logged α).value = a := rfl

@[simp] theorem events_pure (a : α) : (pure a : Logged α).events = [] := rfl

@[simp] theorem value_bind (m : Logged α) (f : α → Logged β) :
    (m >>= f).value = (f m.value).value := rfl

@[simp] theorem events_bind (m : Logged α) (f : α → Logged β) :
    (m >>= f).events = m.events ++ (f m.value).events := rfl

@[simp] theorem value_map (g : α → β) (m : Logged α) : (g <$> m).value = g m.value := rfl

def tell (level : Level) (source : Source) (message : String) : Logged Unit :=
  ⟨(), [⟨level, source, message⟩]⟩

@[simp] theorem value_tell (level : Level) (source : Source) (message : String) :
    (tell level source message).value = () := rfl

def upTo (level : Level) (m : Logged α) : Logged α :=
  ⟨m.value, m.events.filter fun e => e.level.rank ≤ level.rank⟩

end Logged

end MulticastDns

import MulticastDns.Net.Link
import MulticastDns.Resolution
import MulticastDns.Wire.Message
import MulticastDns.Wire.Response

namespace MulticastDns

structure Responder where
  host : Host
  registry : Registry
  cacheFlush : Bool
  deriving DecidableEq

structure Answer where
  length : Nat
  answers : UInt16
  question : Question
  deriving DecidableEq

inductive ReplyMode
  | source
  | multicast
  deriving DecidableEq

namespace ReplyMode

def shown : ReplyMode → String
  | .source => "Source"
  | .multicast => "Multicast"

def destination (mode : ReplyMode) (source group : Endpoint) : Endpoint :=
  match mode with
  | .source => source
  | .multicast => group

end ReplyMode

namespace Responder

def debug (message : String) : Logged Unit := .tell .debug .responder message

def conclude (q : Question) : Except WireError Response.Outcome → Logged (Option Answer)
  | .ok (.complete length answers) => return some ⟨length, answers, q⟩
  | .ok (.truncated length answers) => do
    .tell .warn .responder s!"Response for {q.name} truncated to {answers.toNat} answers"
    return some ⟨length, answers, q⟩
  | .ok .noAnswers => do
    debug s!"Nothing to answer for {q.name} {RecordType.mnemonic q.qtype}"
    return none
  | .error e => do
    .tell .warn .responder s!"Failed to build response for {q.name}: {e.message}"
    return none

def respond (r : Responder) (q : Question) (buffer : Array UInt8) :
    Logged (Option Answer × Array UInt8) := do
  match resolve q r.host r.registry with
  | .host h =>
    let (outcome, buffer) := Response.ofHost q h r.cacheFlush buffer
    return (← conclude q outcome, buffer)
  | .services found =>
    let (outcome, buffer) ← Response.ofServices q found r.cacheFlush buffer
    return (← conclude q outcome, buffer)
  | .noMatch =>
    debug s!"No records for {q.name}"
    return (none, buffer)
  | .unsupported qtype =>
    debug s!"Ignoring unsupported query type {qtype.toNat}"
    return (none, buffer)

/-- Turns a datagram into an answer in the buffer. Responses, malformed packets, questions of other
types and names that are not ours are met with silence. -/
def handle (r : Responder) (p : Packet) (buffer : Array UInt8) :
    Logged (Option Answer × Array UInt8) := do
  match Header.read p with
  | .error e =>
    debug s!"Dropping malformed packet: {e.message}"
    return (none, buffer)
  | .ok header =>
    if header.isResponse then return (none, buffer)
    match Question.first? p with
    | .error e =>
      debug s!"Dropping malformed query: {e.message}"
      return (none, buffer)
    | .ok none => return (none, buffer)
    | .ok (some q) =>
      debug s!"Query {q.name} {RecordType.mnemonic q.qtype}"
      r.respond q buffer

def shutdown (r : Responder) : Logged Responder := do
  .tell .info .responder s!"Cleared {r.registry.size} registered service(s)"
  return { r with registry := r.registry.clear }

end Responder

namespace Responder

structure Sent where
  destination : Endpoint
  bytes : Packet
  deriving DecidableEq

structure Buffers where
  input : Array UInt8
  output : Array UInt8

def Buffers.fresh : Buffers := ⟨Inbox.fresh, Inbox.fresh⟩

def step (r : Responder) (mode : ReplyMode) (group : Endpoint) (d : Datagram) (bs : Buffers) :
    Logged (Option Sent × Buffers) := do
  let (input, p) := Inbox.receive bs.input d.bytes
  let (answer, output) ← r.handle p bs.output
  match answer with
  | none => return (none, ⟨input, output⟩)
  | some a =>
    let destination := mode.destination d.source group
    .tell .info .responder (s!"Answered {a.question.name} {RecordType.mnemonic a.question.qtype} "
      ++ s!"with {a.answers.toNat} record(s) to {destination.text}")
    return (some ⟨destination, output.extract 0 a.length⟩, ⟨input, output⟩)

def replies (r : Responder) (mode : ReplyMode) (group : Endpoint) :
    List Datagram → Buffers → Logged (List (Option Sent))
  | [], _ => pure []
  | d :: rest, bs => do
    let (sent, bs) ← r.step mode group d bs
    return sent :: (← replies r mode group rest bs)

def serve (r : Responder) (mode : ReplyMode) (interface : UInt32) (arrivals : List Datagram) :
    Logged (List (Option Sent)) := do
  .tell .info .responder (s!"Responder running with {r.registry.size} service(s), "
    ++ s!"replying to {mode.shown}")
  r.replies mode (Endpoint.group interface) arrivals .fresh

def stop (r : Responder) : Logged Responder := do
  .tell .info .responder "Responder shutting down"
  r.shutdown

def run (r : Responder) (mode : ReplyMode) (interface : UInt32) (arrivals : List Datagram) :
    Logged (List (Option Sent)) := do
  let sent ← r.serve mode interface arrivals
  let _ ← r.stop
  return sent

end Responder

end MulticastDns

import MulticastDns.Proofs.Packet
import MulticastDns.Proofs.Responder.Soundness
import MulticastDns.Proofs.Response.Agreement
import MulticastDns.Responder

namespace MulticastDns

namespace Responder

structure Alike (x x' : Logged (Option Answer × Array UInt8)) : Prop where
  answer_eq : x.value.1 = x'.value.1
  bytes_eq : ∀ answer ∈ x.value.1,
    x.value.2.extract 0 answer.length = x'.value.2.extract 0 answer.length
  events_eq : x.events = x'.events

section Handle

variable {r : Responder} {q : Question} {p : Packet} {buffer buffer' : Array UInt8}

theorem Alike.silent {x x' : Logged (Option Answer × Array UInt8)} (h : x.value.1 = none)
    (h' : x'.value.1 = none) (events : x.events = x'.events) : Alike x x' := by
  refine ⟨h.trans h'.symm, ?_, events⟩
  intro answer sent
  rw [h] at sent
  cases sent

theorem extract_eq_of_conclude {built built' : Except WireError Response.Outcome × Array UInt8}
    (same : Response.SameBuilt built built') {answer : Answer}
    (sent : (conclude q built.1).value = some answer) :
    built.2.extract 0 answer.length = built'.2.extract 0 answer.length := by
  obtain ⟨outcome, length, ok, hlength, rfl⟩ := conclude_eq_some sent
  have packet : Response.packet? built = some (built.2.extract 0 length) := by
    simp only [Response.packet?, ok, hlength, Option.map_some]
  exact (Response.extract_of_packet? (same.packet_eq ▸ packet)
    (same.outcome_eq ▸ ok) hlength).symm

theorem respond_alike (r : Responder) (q : Question) (h : buffer.size = buffer'.size) :
    Alike (r.respond q buffer) (r.respond q buffer') := by
  unfold respond
  split
  · rename_i own _
    have same := Response.ofHost_agrees q r.cacheFlush own h
    refine ⟨?_, fun answer sent => extract_eq_of_conclude same sent, ?_⟩
    · simp [same.outcome_eq]
    · simp [same.outcome_eq]
  · rename_i found _
    obtain ⟨same, events⟩ := Response.ofServices_agrees q r.cacheFlush found h
    refine ⟨?_, fun answer sent => extract_eq_of_conclude same sent, ?_⟩
    · simp [same.outcome_eq]
    · simp [same.outcome_eq, events]
  · exact .silent rfl rfl rfl
  · exact .silent rfl rfl rfl

theorem handle_alike (r : Responder) (p : Packet) (h : buffer.size = buffer'.size) :
    Alike (r.handle p buffer) (r.handle p buffer') := by
  unfold handle
  split
  · exact .silent rfl rfl rfl
  · split
    · exact .silent rfl rfl rfl
    · split
      · exact .silent rfl rfl rfl
      · exact .silent rfl rfl rfl
      · rename_i q _
        have same := r.respond_alike q h
        refine ⟨same.answer_eq, same.bytes_eq, ?_⟩
        rw [Logged.events_bind, Logged.events_bind, same.events_eq]

theorem size_respond (r : Responder) (q : Question) (buffer : Array UInt8) :
    (r.respond q buffer).value.2.size = buffer.size := by
  unfold respond
  split
  · exact Response.size_ofHost q r.cacheFlush _ buffer
  · exact Response.size_ofServices q r.cacheFlush _ buffer
  · rfl
  · rfl

theorem size_handle (r : Responder) (p : Packet) (buffer : Array UInt8) :
    (r.handle p buffer).value.2.size = buffer.size := by
  unfold handle
  split
  · rfl
  · split
    · rfl
    · split
      · rfl
      · rfl
      · exact r.size_respond _ buffer

end Handle

def alone (r : Responder) (mode : ReplyMode) (group : Endpoint) (d : Datagram) : Option Sent :=
  let (answer, output) := (r.handle (d.bytes.extract 0 1500) (.replicate 1500 0)).value
  answer.map fun a => ⟨mode.destination d.source group, output.extract 0 a.length⟩

structure Buffers.Sized (bs : Buffers) : Prop where
  input : bs.input.size = 1500
  output : bs.output.size = 1500

theorem Buffers.sized_fresh : Buffers.fresh.Sized :=
  ⟨Array.size_replicate, Array.size_replicate⟩

section Loop

variable {r : Responder} {mode : ReplyMode} {group : Endpoint} {bs : Buffers}

theorem Buffers.Sized.step (h : bs.Sized) (r : Responder) (mode : ReplyMode) (group : Endpoint)
    (d : Datagram) : (r.step mode group d bs).value.2.Sized := by
  have input := (Inbox.size_receive bs.input d.bytes).trans h.input
  have output := (r.size_handle (Inbox.receive bs.input d.bytes).2 bs.output).trans h.output
  simp only [Responder.step, Logged.value_bind]
  split
  · exact ⟨input, output⟩
  · exact ⟨input, output⟩

theorem value_step (h : bs.Sized) (d : Datagram) :
    (r.step mode group d bs).value.1 = r.alone mode group d := by
  have received : (Inbox.receive bs.input d.bytes).2 = d.bytes.extract 0 1500 := by
    rw [Inbox.bytes_receive, h.input]
  have same : Alike (r.handle (d.bytes.extract 0 1500) bs.output)
      (r.handle (d.bytes.extract 0 1500) (.replicate 1500 0)) :=
    r.handle_alike _ (h.output.trans Array.size_replicate.symm)
  simp only [step, alone, Logged.value_bind, received, ← same.answer_eq]
  split
  · rename_i silent
    rw [silent]
    rfl
  · rename_i answer sent
    rw [sent, Option.map_some, ← same.bytes_eq answer sent]
    rfl

theorem value_replies (h : bs.Sized) (arrivals : List Datagram) :
    (r.replies mode group arrivals bs).value = arrivals.map (r.alone mode group) := by
  induction arrivals generalizing bs with
  | nil => rfl
  | cons d rest ih =>
    rw [List.map_cons, ← value_step h, ← ih (h.step r mode group d)]
    rfl

end Loop

/-- What the loop sends for each datagram is what it sends for it alone. Whatever a buffer holds, a
packet handled with it is answered alike. -/
theorem run_eq_map_alone (r : Responder) (mode : ReplyMode) (interface : UInt32)
    (arrivals : List Datagram) :
    (r.run mode interface arrivals).value =
        arrivals.map (r.alone mode (Endpoint.group interface)) ∧
      ∀ (p : Packet) (buffer buffer' : Array UInt8), buffer.size = buffer'.size →
        Alike (r.handle p buffer) (r.handle p buffer') :=
  ⟨value_replies Buffers.sized_fresh arrivals, fun p _ _ h => r.handle_alike p h⟩

end Responder

end MulticastDns

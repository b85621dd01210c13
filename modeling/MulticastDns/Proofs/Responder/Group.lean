import Mathlib.Data.List.FinRange
import Mathlib.Logic.Function.Basic
import MulticastDns.Proofs.Responder.Echo
import MulticastDns.Proofs.Responder.Loop

/-! Responders on one group, each of which multicasts its replies to all of them and to itself. The
network may lose, duplicate and reorder what is in flight, and anyone may put in datagrams of any
content. No reply is ever answered: there is at most one for each datagram that comes in from
outside. -/

namespace MulticastDns

namespace Group

structure Member where
  responder : Responder
  interface : UInt32
  endpoint : Endpoint

namespace Member

def group (m : Member) : Endpoint := Endpoint.group m.interface

def answer (m : Member) (d : Datagram) : Option Responder.Sent :=
  m.responder.alone .multicast m.group d

theorem isSome_answer (m : Member) (d : Datagram) : (m.answer d).isSome =
    (m.responder.handle (d.bytes.extract 0 1500) (.replicate 1500 0)).value.1.isSome := by
  rw [answer, Responder.alone]
  exact Option.isSome_map

end Member

structure Flight (n : Nat) where
  sender : Option (Fin n)
  receiver : Fin n
  datagram : Datagram
  deriving DecidableEq

structure Reply (n : Nat) where
  sender : Fin n
  cause : Nat
  sent : Responder.Sent

/-- The members' buffers and what is in flight. What came in and what was sent are kept as history,
in order. -/
structure State (n : Nat) where
  buffers : Fin n → Responder.Buffers
  flying : List (Flight n)
  arrivals : List (Flight n)
  replies : List (Reply n)

def initial (n : Nat) : State n := ⟨fun _ => .fresh, [], [], []⟩

section Steps

variable {n : Nat}

def multicast (g : Fin n → Member) (sender : Fin n) (sent : Responder.Sent) : List (Flight n) :=
  (List.finRange n).map fun receiver => ⟨some sender, receiver, ⟨(g sender).endpoint, sent.bytes⟩⟩

def outcome (g : Fin n → Member) (s : State n) (f : Flight n) :
    Option Responder.Sent × Responder.Buffers :=
  ((g f.receiver).responder.step .multicast (g f.receiver).group f.datagram
    (s.buffers f.receiver)).value

def deliver (g : Fin n → Member) (s : State n) (f : Flight n) : State n where
  buffers := Function.update s.buffers f.receiver (outcome g s f).2
  flying := s.flying.erase f ++ (outcome g s f).1.toList.flatMap (multicast g f.receiver)
  arrivals := s.arrivals ++ [f]
  replies := s.replies ++
    (outcome g s f).1.toList.map fun sent => ⟨f.receiver, s.arrivals.length, sent⟩

inductive Step (g : Fin n → Member) (s : State n) : State n → Prop
  | inject (receiver : Fin n) (d : Datagram) :
      Step g s { s with flying := ⟨none, receiver, d⟩ :: s.flying }
  | lose {f : Flight n} : f ∈ s.flying → Step g s { s with flying := s.flying.erase f }
  | duplicate {f : Flight n} : f ∈ s.flying → Step g s { s with flying := f :: s.flying }
  | deliver {f : Flight n} : f ∈ s.flying → Step g s (deliver g s f)

inductive Reachable (g : Fin n → Member) : State n → Prop
  | initial : Reachable g (initial n)
  | step {s s' : State n} : Reachable g s → Step g s s' → Reachable g s'

end Steps

structure IsResponse (p : Packet) : Prop where
  header : ∃ answers, p.Holds 0 (Response.headerBytes answers)
  short : p.size ≤ 1500

section Response

variable {p : Packet} {m : Member} {d : Datagram} {sent : Responder.Sent}

theorem IsResponse.header_eq (h : IsResponse p) :
    ∃ header, Header.read p = .ok header ∧ header.isResponse = true := by
  obtain ⟨answers, holds⟩ := h.header
  exact ⟨_, Response.header_of_holds holds, rfl⟩

theorem IsResponse.handle_eq_none (h : IsResponse p) (r : Responder) (buffer : Array UInt8) :
    (r.handle p buffer).value.1 = none := by
  obtain ⟨header, reads, response⟩ := h.header_eq
  rw [Responder.handle, reads]
  simp [response]

theorem IsResponse.answer_eq_none (h : IsResponse d.bytes) (m : Member) : m.answer d = none := by
  simp only [Member.answer, Responder.alone, Array.extract_eq_self_of_le h.short,
    h.handle_eq_none, Option.map_none]

theorem isResponse_of_answer (h : m.answer d = some sent) : IsResponse sent.bytes := by
  obtain ⟨answer, answered, rfl⟩ := Option.map_eq_some_iff.1 h
  obtain ⟨-, -, frame⟩ := Responder.holds_frameBytes_of_handle (Prod.ext answered rfl)
  refine ⟨⟨_, (Packet.holds_append.1 frame).1⟩, ?_⟩
  have size := m.responder.size_handle (d.bytes.extract 0 1500) (.replicate 1500 0)
  rw [Array.size_replicate] at size
  rw [Array.size_extract, size]
  omega

theorem destination_of_answer (h : m.answer d = some sent) : sent.destination = m.group := by
  obtain ⟨answer, -, rfl⟩ := Option.map_eq_some_iff.1 h
  rfl

end Response

section Invariant

variable {n : Nat} {g : Fin n → Member} {s s' : State n} {f : Flight n}

/-- What every step preserves: each flight that names a sender carries a reply of that member, and
each reply is the receiver's answer to an arrival from outside, for which it sent no other. -/
structure Sound (g : Fin n → Member) (s : State n) : Prop where
  sized : ∀ i, (s.buffers i).Sized
  attributed : ∀ f ∈ s.flying, ∀ i, f.sender = some i →
    ∃ reply ∈ s.replies, reply.sender = i ∧ f.datagram = ⟨(g i).endpoint, reply.sent.bytes⟩
  caused : ∀ reply ∈ s.replies, ∃ f, s.arrivals[reply.cause]? = some f ∧ f.sender = none ∧
    f.receiver = reply.sender ∧ (g reply.sender).answer f.datagram = some reply.sent
  once : (s.replies.map (·.cause)).Nodup

theorem Sound.initial (g : Fin n → Member) : Sound g (initial n) :=
  ⟨fun _ => Responder.Buffers.sized_fresh, by simp [Group.initial], by simp [Group.initial],
    List.nodup_nil⟩

namespace Sound

theorem isResponse (h : Sound g s) {reply : Reply n} (member : reply ∈ s.replies) :
    IsResponse reply.sent.bytes := by
  obtain ⟨f, -, -, -, answered⟩ := h.caused reply member
  exact isResponse_of_answer answered

theorem of_flying (h : Sound g s) {flying : List (Flight n)}
    (kept : ∀ f ∈ flying, f.sender = none ∨ f ∈ s.flying) : Sound g { s with flying := flying } := by
  refine ⟨h.sized, fun f hf i sender => ?_, h.caused, h.once⟩
  rcases kept f hf with outside | known
  · rw [outside] at sender
    cases sender
  · exact h.attributed f known i sender

theorem cause_lt (h : Sound g s) {reply : Reply n} (member : reply ∈ s.replies) :
    reply.cause < s.arrivals.length := by
  obtain ⟨f, arrived, -⟩ := h.caused reply member
  exact (List.getElem?_eq_some_iff.1 arrived).1

theorem sender_eq_none (h : Sound g s) (flies : f ∈ s.flying) {sent : Responder.Sent}
    (answered : (g f.receiver).answer f.datagram = some sent) : f.sender = none := by
  by_contra inside
  obtain ⟨i, sender⟩ := Option.ne_none_iff_exists'.1 inside
  obtain ⟨reply, member, -, carried⟩ := h.attributed f flies i sender
  have response : IsResponse f.datagram.bytes := carried ▸ h.isResponse member
  rw [response.answer_eq_none] at answered
  cases answered

theorem outcome_eq (h : Sound g s) (f : Flight n) :
    (outcome g s f).1 = (g f.receiver).answer f.datagram :=
  Responder.value_step (h.sized f.receiver) f.datagram

theorem sized_deliver (h : Sound g s) (f : Flight n) (i : Fin n) :
    ((deliver g s f).buffers i).Sized := by
  show (Function.update s.buffers f.receiver (outcome g s f).2 i).Sized
  rw [Function.update_apply]
  split
  · exact (h.sized f.receiver).step _ _ _ _
  · exact h.sized i

theorem attributed_deliver (h : Sound g s) {f' : Flight n} (flies : f' ∈ (deliver g s f).flying)
    {i : Fin n} (sender : f'.sender = some i) : ∃ reply ∈ (deliver g s f).replies,
      reply.sender = i ∧ f'.datagram = ⟨(g i).endpoint, reply.sent.bytes⟩ := by
  rcases List.mem_append.1 flies with old | new
  · obtain ⟨reply, member, rest⟩ := h.attributed f' (List.mem_of_mem_erase old) i sender
    exact ⟨reply, List.mem_append_left _ member, rest⟩
  · obtain ⟨sent, answered, flight⟩ := List.mem_flatMap.1 new
    obtain ⟨receiver, -, rfl⟩ := List.mem_map.1 flight
    cases sender
    exact ⟨_, List.mem_append_right _ (List.mem_map_of_mem answered), rfl, rfl⟩

theorem caused_deliver (h : Sound g s) (flies : f ∈ s.flying) {reply : Reply n}
    (member : reply ∈ (deliver g s f).replies) :
    ∃ f', (deliver g s f).arrivals[reply.cause]? = some f' ∧ f'.sender = none ∧
      f'.receiver = reply.sender ∧ (g reply.sender).answer f'.datagram = some reply.sent := by
  rcases List.mem_append.1 member with old | new
  · obtain ⟨f', arrived, rest⟩ := h.caused reply old
    exact ⟨f', (List.getElem?_append_left (h.cause_lt old)).trans arrived, rest⟩
  · obtain ⟨sent, answered, rfl⟩ := List.mem_map.1 new
    rw [h.outcome_eq, Option.mem_toList] at answered
    exact ⟨f, List.getElem?_concat_length, h.sender_eq_none flies answered, rfl, answered⟩

theorem once_deliver (h : Sound g s) (f : Flight n) :
    ((deliver g s f).replies.map (·.cause)).Nodup := by
  rw [Group.deliver, List.map_append]
  refine h.once.append ?_ (List.disjoint_left.2 fun cause old new => ?_)
  · cases (outcome g s f).1 <;> simp
  · obtain ⟨reply, member, rfl⟩ := List.mem_map.1 old
    obtain ⟨reply', member', same⟩ := List.mem_map.1 new
    obtain ⟨sent, -, rfl⟩ := List.mem_map.1 member'
    exact absurd same (Nat.ne_of_gt (h.cause_lt member))

theorem step (h : Sound g s) (step : Step g s s') : Sound g s' := by
  cases step with
  | inject receiver d =>
    refine h.of_flying fun f hf => ?_
    rcases List.mem_cons.1 hf with rfl | known
    · exact .inl rfl
    · exact .inr known
  | lose => exact h.of_flying fun _ hf => .inr (List.mem_of_mem_erase hf)
  | duplicate flies =>
    refine h.of_flying fun f hf => .inr ?_
    rcases List.mem_cons.1 hf with rfl | known
    · exact flies
    · exact known
  | @deliver f flies =>
    exact ⟨h.sized_deliver f, fun _ flies' _ => h.attributed_deliver flies',
      fun _ => h.caused_deliver flies, h.once_deliver f⟩

end Sound

theorem Reachable.sound (h : Reachable g s) : Sound g s := by
  induction h with
  | initial => exact .initial g
  | step _ step ih => exact ih.step step

/-- However the network behaves, no responder answers what a responder has sent: each reply is for
a datagram from outside that came in at its sender, and is the only one for that arrival. -/
theorem replies_unanswered (reachable : Reachable g s) :
    (∀ reply ∈ s.replies,
      (∃ header, Header.read reply.sent.bytes = .ok header ∧ header.isResponse = true) ∧
      (∀ (r : Responder) (buffer : Array UInt8),
        (r.handle reply.sent.bytes buffer).value.1 = none) ∧
      reply.sent.destination = (g reply.sender).group ∧
      ∃ f, s.arrivals[reply.cause]? = some f ∧ f.sender = none ∧ f.receiver = reply.sender ∧
        (g reply.sender).answer f.datagram = some reply.sent) ∧
    (∀ f ∈ s.flying, ∀ i, f.sender = some i →
      ∃ reply ∈ s.replies, reply.sender = i ∧ f.datagram.bytes = reply.sent.bytes) ∧
    (s.replies.map (·.cause)).Nodup := by
  have sound := reachable.sound
  refine ⟨fun reply member => ?_, fun f flies i sender => ?_, sound.once⟩
  · have response := sound.isResponse member
    obtain ⟨f, arrived, outside, here, answered⟩ := sound.caused reply member
    exact ⟨response.header_eq, response.handle_eq_none, destination_of_answer answered, f, arrived,
      outside, here, answered⟩
  · obtain ⟨reply, member, same, carried⟩ := sound.attributed f flies i sender
    exact ⟨reply, member, same, congrArg Datagram.bytes carried⟩

end Invariant

section Samples

def link (last : UInt8) : IPv6 := ⟨#v[0xfe, 0x80, 0, 0, 0, 0, 0, 0, 0, 0, 0, 0, 0, 0, 0, last]⟩

def pair (i : Fin 2) : Member :=
  ⟨.nas, 2, .v6 (link (.ofNat i)) Endpoint.multicastPort 2⟩

def asked : Flight 2 := ⟨none, 0, ⟨.v6 (link 9) 40000 2, Responder.nasQuery⟩⟩

def afterAsked : State 2 := deliver pair { initial 2 with flying := [asked] } asked

theorem reachable_afterAsked : Reachable pair afterAsked :=
  .step (.step .initial (.inject asked.receiver asked.datagram)) (.deliver List.mem_cons_self)

theorem isSome_answer_asked : ((pair asked.receiver).answer asked.datagram).isSome := by
  have first : Question.first? Responder.nasQuery = .ok (some (Responder.asking 0x8001)) :=
    Responder.eq_ok_of_toOption (by decide +kernel)
  have own : Responder.nas.host.answersTo "nas.local" = true :=
    Text.same_iff_toList.2 (by decide +kernel)
  have room : Response.frameLength (Responder.asking 0x8001) + 12 +
      (Response.octets (.v4 ⟨#v[192, 168, 1, 20]⟩)).length ≤ 1500 := by
    decide +kernel
  have short : Responder.nasQuery.extract 0 1500 = Responder.nasQuery :=
    Array.extract_eq_self_of_le (by decide)
  have answered : (Responder.nas.handle Responder.nasQuery (.replicate 1500 0)).value.1.isSome := by
    rw [Responder.isSome_handle_iff first, Responder.isSome_respond_iff_of_address (.inl rfl)]
    exact ⟨⟨⟨7, 0x100, 1, 0, 0, 0⟩, rfl, by decide⟩, own, _, rfl, by decide +kernel,
      by rwa [Array.size_replicate]⟩
  rw [Member.isSome_answer]
  simp only [pair, asked, short]
  exact answered

theorem pair_replies_once : Reachable pair afterAsked ∧
    afterAsked.flying.map (fun f => (f.sender, f.receiver)) = [(some 0, 0), (some 0, 1)] ∧
    ∀ f ∈ afterAsked.flying, ∀ (r : Responder) (buffer : Array UInt8),
      (r.handle f.datagram.bytes buffer).value.1 = none := by
  obtain ⟨unanswered, attributed, -⟩ := replies_unanswered reachable_afterAsked
  obtain ⟨sent, answered⟩ := Option.isSome_iff_exists.1 isSome_answer_asked
  have before : Sound pair { initial 2 with flying := [asked] } :=
    (Sound.initial pair).of_flying fun f hf => .inl (List.mem_singleton.1 hf ▸ rfl)
  have flights : afterAsked.flying = multicast pair 0 sent := by
    have sends := (before.outcome_eq asked).trans answered
    rw [afterAsked, deliver]
    simp only [sends]
    simp [asked]
  have senders : afterAsked.flying.map (fun f => (f.sender, f.receiver)) =
      [(some 0, 0), (some 0, 1)] := by
    rw [flights]
    rfl
  refine ⟨reachable_afterAsked, senders, fun f flies r buffer => ?_⟩
  have sender : f.sender = some 0 := by
    rw [flights] at flies
    obtain ⟨receiver, -, rfl⟩ := List.mem_map.1 flies
    rfl
  obtain ⟨reply, member, -, carried⟩ := attributed f flies 0 sender
  rw [carried]
  exact (unanswered reply member).2.1 r buffer

end Samples

end Group

end MulticastDns

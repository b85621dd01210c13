import MulticastDns.Proofs.Resolution
import MulticastDns.Proofs.Response.Host
import MulticastDns.Responder

namespace MulticastDns

def Service.announced (cacheFlush : Bool) (s : Service) : List Record :=
  [⟨s.key, RecordType.srv, RecordClass.internet, cacheFlush, s.ttl,
      .srv s.priority s.weight s.port (Name.canonical s.target)⟩,
    ⟨s.key, RecordType.txt, RecordClass.internet, cacheFlush, s.ttl,
      .txt (s.txt.filter (· ≠ ""))⟩]

namespace Responder

/-- The records a responder may answer a question with: its own address, or some of the services
that the question selects, each once and in the order they were registered. -/
inductive Vouches (r : Responder) (q : Question) : List Record → Prop
  | ipv4 {a : IPv4} : q.qtype = RecordType.a → Text.same (Name.dropDot q.name) r.host.name = true →
      r.host.ipv4 = some a → Vouches r q
        [⟨Name.dropDot q.name, q.qtype, RecordClass.internet, r.cacheFlush, r.host.ttl, .a a⟩]
  | ipv6 {a : IPv6} : q.qtype = RecordType.aaaa →
      Text.same (Name.dropDot q.name) r.host.name = true → r.host.ipv6 = some a → Vouches r q
        [⟨Name.dropDot q.name, q.qtype, RecordClass.internet, r.cacheFlush, r.host.ttl, .aaaa a⟩]
  | services {found kept : List Service} : resolve q r.host r.registry = .services found →
      found.Sublist r.registry.services → kept.Sublist found → kept.Nodup → kept ≠ [] →
      Vouches r q (kept.flatMap (·.announced r.cacheFlush))

section Runs

variable {r : Responder} {p : Packet} {q : Question} {buffer out : Array UInt8} {answer : Answer}

theorem conclude_eq_some {built : Except WireError Response.Outcome}
    (h : (conclude q built).value = some answer) :
    ∃ outcome length, built = .ok outcome ∧ outcome.length? = some length ∧
      answer = ⟨length, outcome.answers, q⟩ := by
  unfold conclude at h
  split at h
  · cases h
    exact ⟨_, _, rfl, rfl, rfl⟩
  · cases h
    exact ⟨_, _, rfl, rfl, rfl⟩
  · cases h
  · cases h

theorem handle_eq_some (h : (r.handle p buffer).value = (some answer, out)) :
    ∃ header q, Header.read p = .ok header ∧ header.isResponse = false ∧
      Question.first? p = .ok (some q) ∧ (r.respond q buffer).value = (some answer, out) := by
  unfold handle at h
  split at h
  · cases h
  · rename_i header hheader
    split at h
    · cases h
    · rename_i query
      split at h
      · cases h
      · cases h
      · rename_i q hq
        exact ⟨header, q, hheader, by simpa using query, hq, h⟩

theorem handle_of_query {header : Header} (h : Header.read p = .ok header)
    (query : header.isResponse = false) (hq : Question.first? p = .ok (some q)) :
    (r.handle p buffer).value = (r.respond q buffer).value := by
  simp [handle, h, query, hq]

theorem respond_of_services {found : List Service}
    (h : resolve q r.host r.registry = .services found) :
    (r.respond q buffer).value =
      ((conclude q (Response.ofServices q found r.cacheFlush buffer).value.1).value,
        (Response.ofServices q found r.cacheFlush buffer).value.2) := by
  simp [respond, h]

theorem respond_eq_some (h : (r.respond q buffer).value = (some answer, out)) :
    (∃ own, resolve q r.host r.registry = .host own ∧
      (conclude q (Response.ofHost q own r.cacheFlush buffer).1).value = some answer ∧
      (Response.ofHost q own r.cacheFlush buffer).2 = out) ∨
    ∃ found, resolve q r.host r.registry = .services found ∧
      (conclude q (Response.ofServices q found r.cacheFlush buffer).value.1).value = some answer ∧
      (Response.ofServices q found r.cacheFlush buffer).value.2 = out := by
  unfold respond at h
  split at h
  · rename_i own hown
    exact .inl ⟨own, hown, congrArg Prod.fst h, congrArg Prod.snd h⟩
  · rename_i found hfound
    exact .inr ⟨found, hfound, congrArg Prod.fst h, congrArg Prod.snd h⟩
  · cases h
  · cases h

end Runs

theorem records_eq_announced {s : Service} (sound : s.fault? = none) (lasting : s.ttl ≠ 0)
    (cacheFlush : Bool) : s.records cacheFlush = s.announced cacheFlush := by
  have key : Name.canonical s.key = s.key := by
    rw [Name.canonical, Service.dropDot_key sound, if_neg (Resolution.key_ne_empty s)]
  have ttl : s.effectiveTtl = s.ttl := if_neg lasting
  simp only [Service.records, Service.announced, key, ttl]

theorem message_eq {q : Question} (h : Name.dropDot q.name ≠ "") (records : List Record) :
    Response.message q records = ⟨⟨0, 0x8400, 1, .ofNat records.length, 0, 0⟩,
      [⟨Name.dropDot q.name, q.qtype, q.qclass⟩], records, [], []⟩ := by
  rw [Response.message, Name.canonical, if_neg h]
  rfl

section Vouches

variable {r : Responder} {q : Question}

theorem vouches_hostRecord {address : Address} (h : Name.dropDot q.name ≠ "")
    (own : r.host.answersTo q.name = true) (k : Response.address? q r.host = some address) :
    r.Vouches q [Response.hostRecord q address r.cacheFlush r.host.ttl] := by
  rw [Response.hostRecord, Name.canonical, if_neg h, Response.addressType_of_address? k]
  unfold Response.address? at k
  split at k
  · rename_i qtype
    obtain ⟨a, ha, rfl⟩ := Option.map_eq_some_iff.1 k
    exact .ipv4 qtype own ha
  · split at k
    · rename_i qtype
      obtain ⟨a, ha, rfl⟩ := Option.map_eq_some_iff.1 k
      exact .ipv6 qtype own ha
    · cases k

theorem vouches_records {found kept : List Service} (valid : r.registry.Valid)
    (h : resolve q r.host r.registry = .services found) (k : kept.Sublist found)
    (nonempty : kept ≠ []) : r.Vouches q (kept.flatMap (·.records r.cacheFlush)) := by
  obtain ⟨-, rfl, -⟩ := resolve_eq_services h
  have registered := Resolution.findServices_sublist q.name r.registry
  have announced (s : Service) (hs : s ∈ kept) :
      s.records r.cacheFlush = s.announced r.cacheFlush := by
    have stored := registered.subset (k.subset hs)
    exact records_eq_announced (valid.sound s stored) (valid.lasting s stored) _
  rw [List.flatMap_congr announced]
  have once : r.registry.services.Nodup := valid.keys.of_map _
  exact .services h registered k ((once.sublist registered).sublist k) nonempty

end Vouches

/-- An answer to a datagram fits its buffer, belongs to the datagram's question, and reads as that
question with records the responder stands for. -/
theorem handle_sound {r : Responder} {name : String} {ipv4 : Option IPv4} {ipv6 : Option IPv6}
    {ttl : UInt32} {p : Packet} {buffer out : Array UInt8} {answer : Answer}
    (reachable : r.registry.Reachable) (host : r.host = .named name ipv4 ipv6 ttl)
    (h : (r.handle p buffer).value = (some answer, out)) :
    answer.length ≤ buffer.size ∧ out.size = buffer.size ∧
    (∃ header, Header.read p = .ok header ∧ header.isResponse = false) ∧
    Question.first? p = .ok (some answer.question) ∧
    ∃ records, r.Vouches answer.question records ∧ records.length = answer.answers.toNat ∧
      (Message.read (out.extract 0 answer.length)).value =
        .ok ⟨⟨0, 0x8400, 1, answer.answers, 0, 0⟩, [⟨Name.dropDot answer.question.name,
          answer.question.qtype, answer.question.qclass⟩], records, [], []⟩ := by
  obtain ⟨header, q, hheader, query, hq, responds⟩ := handle_eq_some h
  obtain ⟨own, resolved, concluded, rfl⟩ | ⟨found, resolved, concluded, rfl⟩ :=
    respond_eq_some responds
  · -- the host's own address
    obtain ⟨outcome, length, sent, hlength, rfl⟩ := conclude_eq_some concluded
    obtain ⟨rfl, answered, -⟩ := resolve_eq_host resolved
    obtain ⟨address, haddress, within, size, answers, reads⟩ := Response.read_ofHost sent hlength
    have nonempty : Name.dropDot q.name ≠ "" := by
      rw [host] at answered
      exact Host.dropDot_ne_empty_of_answersTo answered
    rw [message_eq nonempty] at reads
    refine ⟨within, size, ⟨header, hheader, query⟩, hq, _,
      vouches_hostRecord nonempty answered haddress, ?_, ?_⟩
    · rw [answers]
      rfl
    · rw [answers]
      exact reads
  · -- services from the registry
    obtain ⟨outcome, length, sent, hlength, rfl⟩ := conclude_eq_some concluded
    obtain ⟨-, hfound, anyFound⟩ := resolve_eq_services resolved
    have few : found.length ≤ 0x7FFF := by
      rw [← hfound]
      exact Nat.le_trans (Resolution.length_findServices_le _ _) (by decide)
    have nonempty : Name.dropDot q.name ≠ "" :=
      Resolution.dropDot_ne_empty_of_findServices (by rwa [hfound])
    obtain ⟨kept, chosen, anyKept, within, size, answers, reads⟩ :=
      Response.read_ofServices few anyFound sent hlength
    rw [message_eq nonempty, Response.length_flatMap_records, ← answers] at reads
    refine ⟨within, size, ⟨header, hheader, query⟩, hq, _,
      vouches_records reachable.valid resolved chosen anyKept, ?_, reads⟩
    rw [Response.length_flatMap_records, answers,
      Response.toNat_answers (Nat.le_trans chosen.length_le few)]

section Samples

def scanner : Service :=
  ⟨"scanner", "_scan._tcp", "local", 0, 0, 631, "desk.local.", ["flatbed", ""], 120⟩

def desk : Responder :=
  ⟨.named "desk" none none 120, Registry.empty.after (.register scanner), true⟩

def scanning : Question := ⟨"_scan._tcp.local", RecordType.srv, RecordClass.internet⟩

def scanQuery : Packet :=
  #[0, 7, 0, 0, 0, 1, 0, 0, 0, 0, 0, 0,
    5, 95, 115, 99, 97, 110, 4, 95, 116, 99, 112, 5, 108, 111, 99, 97, 108, 0, 0, 33, 0, 1]

theorem eq_ok_of_toOption {ε α : Type} {x : Except ε α} {a : α} (h : x.toOption = some a) :
    x = .ok a := by
  cases x <;> cases h
  rfl

theorem services_desk : desk.registry.services = [scanner] := by
  have sound : scanner.fault? = none := scanner.fault?_eq_none_iff.2
    ⟨by decide +kernel, Text.same_refl _, by decide +kernel, by decide⟩
  exact congrArg Registry.services (Registry.after_register sound rfl)

theorem resolve_scanning : resolve scanning desk.host desk.registry = .services [scanner] := by
  have kind : Resolution.splitKind? scanning.name = some (scanner.kind, scanner.domain) := by
    decide +kernel
  have found : Resolution.findServices scanning.name desk.registry = [scanner] := by
    rw [Resolution.findServices, if_pos (by decide +kernel), kind]
    have same : Registry.isOfKind scanner.kind scanner.domain scanner = true := by
      simp [Registry.isOfKind]
    simp [Registry.ofKind, services_desk, same, Resolution.limit]
  rw [resolve, found, if_neg (by decide), if_pos (by decide)]

theorem handle_scanQuery :
    (desk.handle scanQuery (.replicate 140 0xFF)).value =
      (some ⟨133, 2, scanning⟩,
        (Response.ofServices scanning [scanner] true (.replicate 140 0xFF)).value.2) := by
  have header : Header.read scanQuery = .ok ⟨7, 0, 1, 0, 0, 0⟩ := rfl
  have first : Question.first? scanQuery = .ok (some scanning) :=
    eq_ok_of_toOption (by decide +kernel)
  have sent : (Response.ofServices scanning [scanner] true (.replicate 140 0xFF)).value.1 =
      .ok (.complete 133 2) := eq_ok_of_toOption (by decide +kernel)
  have flush : desk.cacheFlush = true := rfl
  rw [handle_of_query header (by decide) first, respond_of_services resolve_scanning, flush, sent]
  rfl

theorem desk_answers_scanQuery :
    ∃ records out, (desk.handle scanQuery (.replicate 140 0xFF)).value =
        (some ⟨133, 2, scanning⟩, out) ∧
      desk.Vouches scanning records ∧ records.length = 2 ∧
      (Message.read (out.extract 0 133)).value =
        .ok ⟨⟨0, 0x8400, 1, 2, 0, 0⟩, [scanning], records, [], []⟩ := by
  have reachable : desk.registry.Reachable := .step (.register scanner) .empty
  have host : desk.host = .named "desk" none none 120 := rfl
  have dotless : Name.dropDot scanning.name = scanning.name := by decide +kernel
  obtain ⟨-, -, -, -, records, vouched, count, reads⟩ :=
    handle_sound reachable host handle_scanQuery
  rw [dotless] at reads
  exact ⟨records, _, handle_scanQuery, vouched, count, reads⟩

end Samples

end Responder

end MulticastDns

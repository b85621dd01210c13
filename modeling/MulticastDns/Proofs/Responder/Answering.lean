import MulticastDns.Proofs.Resolution.Naming
import MulticastDns.Proofs.Responder.Soundness
import MulticastDns.Proofs.Response.Skipping

namespace MulticastDns

def Response.Sends (built : Except WireError Outcome) : Prop :=
  ∃ outcome length, built = .ok outcome ∧ outcome.length? = some length

namespace Responder

section Handle

variable {r : Responder} {p : Packet} {q : Question} {buffer : Array UInt8}

theorem isSome_conclude_iff (q : Question) (built : Except WireError Response.Outcome) :
    (conclude q built).value.isSome ↔ Response.Sends built := by
  constructor
  · intro sent
    obtain ⟨answer, sent⟩ := Option.isSome_iff_exists.1 sent
    obtain ⟨outcome, length, ok, hlength, -⟩ := conclude_eq_some sent
    exact ⟨outcome, length, ok, hlength⟩
  · rintro ⟨outcome, length, rfl, hlength⟩
    cases outcome with
    | complete => rfl
    | truncated => rfl
    | noAnswers => cases hlength

theorem isSome_handle_iff (asked : Question.first? p = .ok (some q)) (r : Responder)
    (buffer : Array UInt8) :
    (r.handle p buffer).value.1.isSome ↔
      (∃ header, Header.read p = .ok header ∧ header.isResponse = false) ∧
        (r.respond q buffer).value.1.isSome := by
  constructor
  · intro sent
    obtain ⟨answer, sent⟩ := Option.isSome_iff_exists.1 sent
    obtain ⟨header, q', hheader, query, asked', responds⟩ := handle_eq_some (Prod.ext sent rfl)
    cases asked.symm.trans asked'
    rw [responds]
    exact ⟨⟨header, hheader, query⟩, rfl⟩
  · rintro ⟨⟨header, hheader, query⟩, sent⟩
    rwa [handle_of_query hheader query asked]

theorem respond_of_host {own : Host} (h : resolve q r.host r.registry = .host own) :
    (r.respond q buffer).value =
      ((conclude q (Response.ofHost q own r.cacheFlush buffer).1).value,
        (Response.ofHost q own r.cacheFlush buffer).2) := by
  simp [respond, h]

theorem respond_of_noMatch (h : resolve q r.host r.registry = .noMatch) :
    (r.respond q buffer).value = (none, buffer) := by
  simp [respond, h]

theorem respond_of_unsupported {qtype : UInt16}
    (h : resolve q r.host r.registry = .unsupported qtype) :
    (r.respond q buffer).value = (none, buffer) := by
  simp [respond, h]

end Handle

end Responder

section Addresses

variable {q : Question} {h : Host}

theorem Response.isSome_address?_iff
    (address : q.qtype = RecordType.a ∨ q.qtype = RecordType.aaaa) :
    (Response.address? q h).isSome ↔
      if q.qtype = RecordType.a then h.ipv4.isSome else h.ipv6.isSome := by
  unfold Response.address?
  rcases address with ipv4 | ipv6
  · rw [if_pos ipv4, if_pos ipv4, Option.isSome_map]
  · have other : ¬q.qtype = RecordType.a := by
      rw [ipv6]
      decide
    rw [if_neg other, if_neg other, if_pos ipv6, Option.isSome_map]

theorem Response.length_octets_of_address? {address : Address}
    (found : Response.address? q h = some address) :
    (octets address).length = if q.qtype = RecordType.a then 4 else 16 := by
  rw [← addressType_of_address? found]
  cases address with
  | v4 a => simp [octets, addressType]
  | v6 a =>
    rw [addressType, if_neg (by decide)]
    simp [octets]

theorem Response.sends_ofHost_iff (q : Question) (h : Host) (cacheFlush : Bool)
    (buffer : Array UInt8) :
    Sends (ofHost q h cacheFlush buffer).1 ↔
      ∃ address, address? q h = some address ∧ Name.Encodable q.name ∧
        frameLength q + 12 + (octets address).length ≤ buffer.size := by
  cases found : address? q h with
  | none =>
    rw [ofHost, found]
    constructor
    · rintro ⟨outcome, length, ⟨⟩, ⟨⟩⟩
    · rintro ⟨address, ⟨⟩, -⟩
  | some address =>
    constructor
    · rintro ⟨outcome, length, sent, -⟩
      refine ⟨address, rfl, ?_⟩
      by_contra unfit
      obtain ⟨e, refused⟩ := ofHost_of_full found cacheFlush
        fun name => Nat.lt_of_not_le (not_and.1 unfit name)
      cases refused.symm.trans sent
    · rintro ⟨_, ⟨⟩, name, room⟩
      exact ⟨_, _, (ofHost_of_fits found cacheFlush name room).1, rfl⟩

end Addresses

namespace Responder

section Addresses

variable {p : Packet} {q : Question}

theorem isSome_respond_iff_of_address
    (address : q.qtype = RecordType.a ∨ q.qtype = RecordType.aaaa) (r : Responder)
    (buffer : Array UInt8) :
    (r.respond q buffer).value.1.isSome ↔
      r.host.answersTo q.name = true ∧ ∃ found, Response.address? q r.host = some found ∧
        Name.Encodable q.name ∧
        Response.frameLength q + 12 + (Response.octets found).length ≤ buffer.size := by
  by_cases own : r.host.answersTo q.name = true
  · have resolved : resolve q r.host r.registry = .host r.host := by
      rw [resolve, if_pos address, if_pos own]
    rw [respond_of_host resolved, isSome_conclude_iff, Response.sends_ofHost_iff]
    exact (and_iff_right own).symm
  · have resolved : resolve q r.host r.registry = .noMatch := by
      rw [resolve, if_pos address, if_neg own]
    rw [respond_of_noMatch resolved]
    exact iff_of_false (by simp) fun answered => own answered.1

theorem respond_of_fits {r : Responder} {own : Host} {address : Address} {buffer : Array UInt8}
    (resolved : resolve q r.host r.registry = .host own)
    (found : Response.address? q own = some address) (name : Name.Encodable q.name)
    (room : Response.frameLength q + 12 + (Response.octets address).length ≤ buffer.size) :
    ∃ out, (r.respond q buffer).value =
        (some ⟨Response.frameLength q + 12 + (Response.octets address).length, 1, q⟩, out) ∧
      out.extract 0 (Response.frameLength q + 12 + (Response.octets address).length) =
        (Response.hostBytes q 1 address (RecordClass.internetWith r.cacheFlush) own.ttl).toArray := by
  obtain ⟨sent, packet, -⟩ := Response.ofHost_of_fits found r.cacheFlush name room
  rw [respond_of_host resolved, sent]
  exact ⟨_, rfl, Response.extract_of_packet? packet sent rfl⟩

/-- A question for an address is answered exactly if it comes in a query, is for the host's own
name and for a family of which the host has an address, and the answer has a wire form that fits
the buffer. A buffer of 1500 bytes takes every such answer. -/
theorem isSome_handle_iff_of_address (asked : Question.first? p = .ok (some q))
    (address : q.qtype = RecordType.a ∨ q.qtype = RecordType.aaaa) (r : Responder)
    (buffer : Array UInt8) :
    ((r.handle p buffer).value.1.isSome ↔
      (∃ header, Header.read p = .ok header ∧ header.isResponse = false) ∧
        Text.same (Name.dropDot q.name) r.host.name = true ∧
        (if q.qtype = RecordType.a then r.host.ipv4.isSome else r.host.ipv6.isSome) ∧
        ∃ encoded, Name.encode q.name = .ok encoded ∧
          28 + encoded.length + (if q.qtype = RecordType.a then 4 else 16) ≤ buffer.size) ∧
    ∀ encoded, Name.encode q.name = .ok encoded →
      28 + encoded.length + (if q.qtype = RecordType.a then 4 else 16) ≤ 1500 := by
  have needed {encoded : List UInt8} (h : Name.encode q.name = .ok encoded) :
      Response.frameLength q + 12 = 28 + encoded.length := by
    have whole : Name.bytes q.name = encoded :=
      Except.ok.inj ((Name.encode_of_encodable ⟨encoded, h⟩).symm.trans h)
    rw [Response.frameLength, whole]
    omega
  constructor
  · rw [isSome_handle_iff asked, isSome_respond_iff_of_address address,
      ← Response.isSome_address?_iff address, Option.isSome_iff_exists]
    apply and_congr_right
    intro _
    apply and_congr_right
    intro _
    constructor
    · rintro ⟨found, hfound, ⟨encoded, h⟩, room⟩
      rw [Response.length_octets_of_address? hfound, needed h] at room
      exact ⟨⟨found, hfound⟩, encoded, h, room⟩
    · rintro ⟨⟨found, hfound⟩, encoded, h, room⟩
      refine ⟨found, hfound, ⟨encoded, h⟩, ?_⟩
      rwa [Response.length_octets_of_address? hfound, needed h]
  · intro encoded h
    have short := (Name.length_of_encode h).2
    have : Name.maxLength = 255 := rfl
    split <;> omega

def nas : Responder :=
  ⟨.named "NAS" (some ⟨#v[192, 168, 1, 20]⟩) none 120, .empty, true⟩

def nasQuery : Packet :=
  #[0, 7, 1, 0, 0, 1, 0, 0, 0, 0, 0, 0,
    3, 110, 97, 115, 0xC0, 22, 0, 1, 0x80, 1, 5, 108, 111, 99, 97, 108, 0]

theorem nas_answers_where_it_fits :
    Question.first? nasQuery = .ok (some ⟨"nas.local", RecordType.a, 0x8001⟩) ∧
      (nas.handle nasQuery (.replicate 43 0)).value.1.isSome ∧
      ¬(nas.handle nasQuery (.replicate 42 0)).value.1.isSome := by
  have asked : Question.first? nasQuery = .ok (some ⟨"nas.local", RecordType.a, 0x8001⟩) :=
    eq_ok_of_toOption (by decide +kernel)
  have encoded : (Name.encode "nas.local").toOption =
      some [3, 110, 97, 115, 5, 108, 111, 99, 97, 108, 0] := by
    decide +kernel
  have own : Text.same (Name.dropDot "nas.local") nas.host.name = true :=
    Text.same_iff_toList.2 (by decide +kernel)
  refine ⟨asked, ?_, ?_⟩
  · exact (isSome_handle_iff_of_address asked (.inl rfl) nas _).1.2
      ⟨⟨⟨7, 0x100, 1, 0, 0, 0⟩, rfl, by decide⟩, own, rfl, _, eq_ok_of_toOption encoded,
        by decide +kernel⟩
  · rw [(isSome_handle_iff_of_address asked (.inl rfl) nas _).1]
    rintro ⟨-, -, -, bytes, h, room⟩
    cases h.symm.trans (eq_ok_of_toOption encoded)
    exact absurd room (by decide +kernel)

end Addresses

end Responder

namespace Response

section Fill

variable {room : Nat} {s t : Service} {before after services : List Service}

/-- A service that leaves the response open for a later one: it is written, or left out. -/
def Passes (room : Nat) (t : Service) : Prop :=
  (t.Encodable ∧ pairLength t ≤ room) ∨ (¬t.Encodable ∧ Skipped room t)

theorem fill_ne_nil_of_fits (good : s.Encodable) (fits : pairLength s ≤ room)
    (passed : ∀ t ∈ before, Passes room t) : (fill room (before ++ s :: after)).1 ≠ [] := by
  induction before with
  | nil =>
    rw [List.nil_append, fill_of_fits good fits]
    exact List.cons_ne_nil _ _
  | cons t before ih =>
    rw [List.cons_append]
    rcases passed t List.mem_cons_self with ⟨good', fits'⟩ | ⟨bad, skipped⟩
    · rw [fill_of_fits good' fits']
      exact List.cons_ne_nil _ _
    · rw [fill_of_skipped bad skipped]
      exact ih fun t' ht' => passed t' (List.mem_cons_of_mem t ht')

theorem fill_append_eq_nil (bad : ∀ t ∈ before, ¬t.Encodable) (h : (fill room services).1 = []) :
    (fill room (before ++ services)).1 = [] := by
  induction before with
  | nil => exact h
  | cons t before ih =>
    have bad' : ¬t.Encodable := bad t List.mem_cons_self
    rw [List.cons_append]
    by_cases skipped : Skipped room t
    · rw [fill_of_skipped bad' skipped]
      exact ih fun t' ht' => bad t' (List.mem_cons_of_mem t ht')
    · rw [fill_of_not_skipped bad' skipped]

theorem fill_eq_nil_of_full (bad : ∀ t ∈ before, ¬t.Encodable) (good : s.Encodable)
    (full : room < pairLength s) : (fill room (before ++ s :: after)).1 = [] :=
  fill_append_eq_nil bad (by rw [fill_of_full good full])

theorem fill_eq_nil_of_not_encodable (bad : ∀ t ∈ services, ¬t.Encodable) :
    (fill room services).1 = [] := by
  rw [← List.append_nil services]
  exact fill_append_eq_nil bad rfl

theorem skipped_of_name (h : ¬Name.Encodable t.key ∨ ¬Name.Encodable t.target)
    (room_ge : 271 ≤ room) : ¬t.Encodable ∧ Skipped room t := by
  by_cases key : Name.Encodable t.key
  · have target : ¬Name.Encodable t.target := h.resolve_left (not_not_intro key)
    have short := (Name.length_of_encode (Name.encode_of_encodable key)).2
    have : Name.maxLength = 255 := rfl
    exact ⟨fun good => target good.target, _, faultOffset?_of_target key target, by omega⟩
  · exact ⟨fun good => key good.key, 0, faultOffset?_of_key key, Nat.zero_le _⟩

end Fill

section Build

variable {q : Question} {services : List Service} {buffer : Array UInt8}

theorem frameLength_le (h : Name.Encodable q.name) : frameLength q ≤ 271 := by
  have short := (Name.length_of_encode (Name.encode_of_encodable h)).2
  have : Name.maxLength = 255 := rfl
  unfold frameLength
  omega

theorem sends_verdict_iff (q : Question) (kept : List Service) (full : Bool) :
    Sends (verdict q kept full) ↔ kept ≠ [] := by
  constructor
  · rintro ⟨outcome, length, ok, hlength⟩
    exact (verdict_eq_ok ok hlength).1
  · intro nonempty
    rw [verdict, if_neg nonempty]
    cases full with
    | true => exact ⟨_, _, rfl, rfl⟩
    | false => exact ⟨_, _, rfl, rfl⟩

theorem sends_ofServices_iff (h : Name.Encodable q.name) (cacheFlush : Bool)
    (few : services.length ≤ 0x7FFF) (room : frameLength q ≤ buffer.size) :
    Sends (ofServices q services cacheFlush buffer).value.1 ↔
      (fill (buffer.size - frameLength q) services).1 ≠ [] := by
  rw [(ofServices_eq h cacheFlush few room).1, sends_verdict_iff]

end Build

end Response

namespace Responder

section Kinds

variable {r : Responder} {p : Packet} {q : Question} {header : Header} {kind domain : String}
  {buffer : Array UInt8}

/-- The services that an answer for this type and domain is made from: the first 32 of them. -/
def candidates (r : Responder) (kind domain : String) : List Service :=
  (r.registry.services.filter (Registry.isOfKind kind domain)).take 32

theorem findServices_of_split (typed : Resolution.splitKind? q.name = some (kind, domain))
    (r : Responder) : Resolution.findServices q.name r.registry = r.candidates kind domain :=
  Resolution.findServices_of_splitKind? typed r.registry

theorem isSome_respond_iff_of_split (srv : q.qtype = RecordType.srv)
    (name : Name.Encodable q.name)
    (typed : Resolution.splitKind? q.name = some (kind, domain)) (r : Responder)
    (room : Response.frameLength q ≤ buffer.size) :
    (r.respond q buffer).value.1.isSome ↔
      (Response.fill (buffer.size - Response.frameLength q) (r.candidates kind domain)).1 ≠ [] := by
  have resolved := Resolution.resolve_of_srv srv r.host r.registry
  rw [findServices_of_split typed] at resolved
  by_cases nothing : r.candidates kind domain = []
  · rw [if_pos nothing] at resolved
    rw [respond_of_noMatch resolved, nothing]
    exact iff_of_false (by simp) (by simp [Response.fill])
  · rw [if_neg nothing] at resolved
    have few : (r.candidates kind domain).length ≤ 0x7FFF :=
      Nat.le_trans (List.length_take_le _ _) (by decide)
    rw [respond_of_services resolved, isSome_conclude_iff,
      Response.sends_ofServices_iff name r.cacheFlush few room]

/-- A question for a service type is answered if one of the first 32 services of that type and
domain can be written and fits on its own, and none before it ends the response; one whose key or
target has no wire form never does. The first that can be written but does not fit ends it, and
services behind the first 32 are not looked at. -/
theorem isSome_handle_of_candidate (hheader : Header.read p = .ok header)
    (query : header.isResponse = false) (asked : Question.first? p = .ok (some q))
    (srv : q.qtype = RecordType.srv) (name : Name.Encodable q.name)
    (typed : Resolution.splitKind? q.name = some (kind, domain)) (r : Responder)
    (size : buffer.size = 1500) :
    (∀ before s after, r.candidates kind domain = before ++ s :: after → s.Encodable →
      Response.frameLength q + Response.pairLength s ≤ 1500 →
      (∀ t ∈ before, ¬Name.Encodable t.key ∨ ¬Name.Encodable t.target ∨
        Response.Passes (1500 - Response.frameLength q) t) →
      (r.handle p buffer).value.1.isSome) ∧
    (∀ before s after, r.candidates kind domain = before ++ s :: after → s.Encodable →
      1500 < Response.frameLength q + Response.pairLength s → (∀ t ∈ before, ¬t.Encodable) →
      (r.handle p buffer).value.1 = none) ∧
    ((∀ t ∈ r.candidates kind domain, ¬t.Encodable) → (r.handle p buffer).value.1 = none) := by
  have frame := Response.frameLength_le name
  have answered : (r.handle p buffer).value.1.isSome ↔
      (Response.fill (1500 - Response.frameLength q) (r.candidates kind domain)).1 ≠ [] := by
    rw [handle_of_query hheader query asked,
      isSome_respond_iff_of_split srv name typed r (by omega), size]
  have silent (h : (Response.fill (1500 - Response.frameLength q)
      (r.candidates kind domain)).1 = []) : (r.handle p buffer).value.1 = none := by
    rw [← Option.not_isSome_iff_eq_none, answered]
    exact not_not_intro h
  refine ⟨?_, ?_, ?_⟩
  · intro before s after split good fits passed
    rw [answered, split]
    apply Response.fill_ne_nil_of_fits good (by omega)
    intro t ht
    rcases passed t ht with key | target | passes
    · exact .inr (Response.skipped_of_name (.inl key) (by omega))
    · exact .inr (Response.skipped_of_name (.inr target) (by omega))
    · exact passes
  · intro before s after split good full bad
    apply silent
    rw [split]
    exact Response.fill_eq_nil_of_full bad good (by omega)
  · intro bad
    exact silent (Response.fill_eq_nil_of_not_encodable bad)

section Samples

def web (instanceName target : String) (txt : List String) : Service :=
  ⟨instanceName, "_http._tcp", "local", 0, 0, 80, target, txt, 120⟩

def lamp : Service := web "lamp" "nas.local" []

def mural : Service := web "mural" "nas.local" (.replicate 6 (.ofList (.replicate 255 'x')))

def strays (count : Nat) : List Service :=
  (List.range count).map fun i => web (.ofList (.replicate (i + 5) 'x')) "bad..local" []

def serving (services : List Service) : Responder :=
  ⟨.named "nas" none none 120, Registry.empty.run (services.map .register), true⟩

theorem length_key_web (instanceName target : String) (txt : List String) :
    (web instanceName target txt).key.length = instanceName.length + 17 := by
  have behind : ".".length + ("_http._tcp".length + (".".length + "local".length)) = 17 := by
    decide +kernel
  simp only [Service.key, web, String.length_append, Nat.add_assoc, behind]

structure Registrable (services : List Service) : Prop where
  made : ∀ s ∈ services, s = web s.instanceName s.target s.txt ∧ s.instanceName ≠ "" ∧ s.target ≠ ""
  lengths : (services.map (·.instanceName.length)).Nodup

theorem Registrable.services_eq {services : List Service} (h : Registrable services) :
    (serving services).registry.services = services := by
  refine Registry.services_run_register (r := Registry.empty) (fun s hs => ?_) (fun s hs => ?_) ?_
  · obtain ⟨alike, named, targeted⟩ := h.made s hs
    rw [alike]
    exact (Service.fault?_eq_none_iff _).2
      ⟨⟨named, (by decide : "_http._tcp" ≠ ""), (by decide : "local" ≠ ""), targeted⟩,
        Text.same_refl _, (by decide : "_http._tcp".toList.head? = some '_'),
        (by decide : (80 : UInt16) ≠ 0)⟩
  · rw [(h.made s hs).1]
    exact (by decide : (120 : UInt32) ≠ 0)
  · have lengths : (services.map fun s => (Text.fold s.key).length) =
        services.map (·.instanceName.length + 17) := by
      refine List.map_congr_left fun s hs => ?_
      rw [Text.length_fold, (h.made s hs).1, length_key_web, web]
    have distinct := h.lengths.map fun _ _ => Nat.add_right_cancel (m := 17)
    rw [List.map_map, Function.comp_def, ← lengths] at distinct
    refine List.Nodup.of_map String.length ?_
    rwa [Registry.empty, List.nil_append, List.map_map]

theorem Registrable.candidates_eq {services : List Service} (h : Registrable services) :
    (serving services).candidates "_http._tcp" "local" = services.take 32 := by
  rw [candidates, h.services_eq, List.filter_eq_self.2]
  intro s hs
  rw [(h.made s hs).1]
  simp [Registry.isOfKind, web]

theorem registrable_strays (count : Nat) : Registrable (strays count ++ [lamp]) := by
  refine ⟨fun s hs => ?_, ?_⟩
  · rcases List.mem_append.1 hs with hs | hs
    · obtain ⟨i, -, rfl⟩ := List.mem_map.1 hs
      refine ⟨rfl, ?_, (by decide : "bad..local" ≠ "")⟩
      simp [web, ← String.toList_inj]
    · rw [List.mem_singleton.1 hs]
      decide
  · have lengths : (strays count).map (·.instanceName.length) = (List.range count).map (· + 5) := by
      simp [strays, web]
    rw [List.map_append, lengths, List.map_singleton]
    refine (List.nodup_range.map fun _ _ => Nat.add_right_cancel).append (List.nodup_singleton _) ?_
    have shorter : lamp.instanceName.length = 4 := by decide +kernel
    simp [shorter]

def httpQuery : Packet :=
  #[0, 0, 0, 0, 0, 1, 0, 0, 0, 0, 0, 0,
    5, 95, 104, 116, 116, 112, 4, 95, 116, 99, 112, 5, 108, 111, 99, 97, 108, 0, 0, 33, 0, 1]

theorem header_httpQuery : Header.read httpQuery = .ok ⟨0, 0, 1, 0, 0, 0⟩ := rfl

theorem first?_httpQuery : Question.first? httpQuery = .ok (some Response.asked) :=
  eq_ok_of_toOption (by decide +kernel)

theorem splitKind?_asked :
    Resolution.splitKind? Response.asked.name = some ("_http._tcp", "local") := by
  decide +kernel

theorem handle_serving_eq_none {services : List Service} (h : Registrable services)
    (nothing : (Response.fill (1500 - Response.frameLength Response.asked)
      (services.take 32)).1 = []) :
    ((serving services).handle httpQuery (.replicate 1500 0)).value.1 = none := by
  have size : (Array.replicate 1500 (0 : UInt8)).size = 1500 := Array.size_replicate
  have room : Response.frameLength Response.asked ≤ (Array.replicate 1500 (0 : UInt8)).size := by
    rw [size]
    decide +kernel
  have unsent := isSome_respond_iff_of_split rfl (by decide +kernel) splitKind?_asked
    (serving services) room
  rw [size, h.candidates_eq, nothing] at unsent
  rw [handle_of_query header_httpQuery (by decide) first?_httpQuery,
    ← Option.not_isSome_iff_eq_none, unsent]
  exact not_not_intro rfl

theorem not_encodable_of_mem_strays {count : Nat} {s : Service} (h : s ∈ strays count) :
    ¬Name.Encodable s.target := by
  obtain ⟨i, -, rfl⟩ := List.mem_map.1 h
  exact (by decide +kernel : ¬Name.Encodable "bad..local")

theorem lamp_answers_behind_strays :
    ((serving (strays 31 ++ [lamp])).handle httpQuery (.replicate 1500 0)).value.1.isSome :=
  (isSome_handle_of_candidate header_httpQuery (by decide) first?_httpQuery rfl
    (by decide +kernel) splitKind?_asked _ Array.size_replicate).1 (strays 31) lamp []
    (registrable_strays 31).candidates_eq (by decide +kernel) (by decide +kernel)
    fun _ ht => .inr (.inl (not_encodable_of_mem_strays ht))

theorem lamp_silenced :
    lamp.Encodable ∧
      Response.frameLength Response.asked + Response.pairLength lamp ≤ 1500 ∧
      ∀ others ∈ [[mural], strays 32],
        (serving (others ++ [lamp])).registry.Reachable ∧
        lamp ∈ (serving (others ++ [lamp])).registry.services ∧
        ((serving (others ++ [lamp])).handle httpQuery (.replicate 1500 0)).value.1 = none := by
  refine ⟨by decide +kernel, by decide +kernel, fun others member => ?_⟩
  have settled : Registrable (others ++ [lamp]) ∧
      (Response.fill (1500 - Response.frameLength Response.asked)
        ((others ++ [lamp]).take 32)).1 = [] := by
    rcases List.mem_pair.1 member with rfl | rfl
    · refine ⟨⟨by decide +kernel, by decide +kernel⟩, ?_⟩
      rw [List.singleton_append, List.take_of_length_le (by simp),
        Response.fill_of_full (by decide +kernel) (by decide +kernel)]
    · refine ⟨registrable_strays 32, Response.fill_eq_nil_of_not_encodable fun t ht => ?_⟩
      have stray : t ∈ strays 32 := by
        have length : (strays 32).length = 32 := by simp [strays]
        rwa [List.take_left' length] at ht
      exact fun good => not_encodable_of_mem_strays stray good.target
  obtain ⟨registrable, nothing⟩ := settled
  refine ⟨Registry.Reachable.empty.run _, ?_, handle_serving_eq_none registrable nothing⟩
  rw [registrable.services_eq]
  exact List.mem_append_right _ List.mem_cons_self

end Samples

end Kinds

end Responder

end MulticastDns

import MulticastDns.Proofs.Resolution.Selection
import MulticastDns.Proofs.Responder.Answering

namespace MulticastDns

namespace Responder

section Records

variable {r : Responder} {q q' : Question} {buffer : Array UInt8}

def records? (r : Responder) (q : Question) (room : Nat) : Option (UInt16 × List UInt8) :=
  let rclass := RecordClass.internetWith r.cacheFlush
  match resolve q r.host r.registry with
  | .host h =>
    match Response.address? q h with
    | some address =>
      if 12 + (Response.octets address).length ≤ room then
        some (1, Response.pointedBytes address rclass h.ttl)
      else none
    | none => none
  | .services found =>
    let kept := (Response.fill room found).1
    if kept = [] then none
    else some (.ofNat (2 * kept.length), kept.flatMap (Response.serviceBytes rclass))
  | .noMatch => none
  | .unsupported _ => none

theorem records?_congr (resolved : resolve q r.host r.registry = resolve q' r.host r.registry)
    (type : q.qtype = q'.qtype) (room : Nat) : r.records? q room = r.records? q' room := by
  have address (h : Host) : Response.address? q h = Response.address? q' h := by
    rw [Response.address?, Response.address?, type]
  simp only [records?, resolved, address]

/-- What is sent is the question with these records behind it, and nothing without them. -/
inductive Carries (q : Question) :
    Option (UInt16 × List UInt8) → Option Answer × Array UInt8 → Prop
  | nothing (buffer : Array UInt8) : Carries q none (none, buffer)
  | packet {count : UInt16} {bytes : List UInt8} {out : Array UInt8} :
      out.extract 0 (Response.frameLength q + bytes.length) =
        (Response.frameBytes q count ++ bytes).toArray →
      Carries q (some (count, bytes)) (some ⟨Response.frameLength q + bytes.length, count, q⟩, out)

theorem carries_of_conclude {built : Except WireError Response.Outcome × Array UInt8}
    {count : UInt16} {bytes : List UInt8}
    (concluded : (conclude q built.1).value =
      some ⟨Response.frameLength q + bytes.length, count, q⟩)
    (packet : Response.packet? built = some (Response.frameBytes q count ++ bytes).toArray) :
    Carries q (some (count, bytes)) ((conclude q built.1).value, built.2) := by
  obtain ⟨outcome, length, sent, hlength, same⟩ := conclude_eq_some concluded
  cases same
  rw [concluded]
  exact .packet (Response.extract_of_packet? packet sent hlength)

theorem conclude_verdict (q : Question) (kept : List Service) (full : Bool) :
    (conclude q (Response.verdict q kept full)).value =
      if kept = [] then none
      else some ⟨Response.frameLength q + Response.pairsLength kept, .ofNat (2 * kept.length), q⟩ := by
  unfold Response.verdict
  split
  · cases full <;> rfl
  · cases full <;> rfl

theorem carries_ofHost (name : Name.Encodable q.name) {own : Host}
    (resolved : resolve q r.host r.registry = .host own)
    (room : Response.frameLength q ≤ buffer.size) :
    Carries q (r.records? q (buffer.size - Response.frameLength q)) (r.respond q buffer).value := by
  rw [records?, resolved]
  dsimp only
  cases found : Response.address? q own with
  | none =>
    rw [respond_of_host resolved, Response.ofHost, found]
    exact .nothing buffer
  | some address =>
    dsimp only
    split
    · have fits : Response.frameLength q + 12 + (Response.octets address).length ≤ buffer.size := by
        omega
      obtain ⟨out, answered, packet⟩ := respond_of_fits resolved found name fits
      have length : Response.frameLength q + 12 + (Response.octets address).length =
          Response.frameLength q + (Response.pointedBytes address
            (RecordClass.internetWith r.cacheFlush) own.ttl).length := by
        rw [Response.length_pointedBytes, Nat.add_assoc]
      rw [length] at answered packet
      rw [answered]
      exact .packet packet
    · have refused : ∃ e, (Response.ofHost q own r.cacheFlush buffer).1 = .error e :=
        Response.ofHost_of_full found r.cacheFlush fun _ => by omega
      obtain ⟨e, refused⟩ := refused
      rw [respond_of_host resolved, refused]
      exact .nothing _

theorem carries_ofServices (name : Name.Encodable q.name) {found : List Service}
    (resolved : resolve q r.host r.registry = .services found)
    (room : Response.frameLength q ≤ buffer.size) :
    Carries q (r.records? q (buffer.size - Response.frameLength q)) (r.respond q buffer).value := by
  have few : found.length ≤ 0x7FFF := by
    obtain ⟨-, rfl, -⟩ := resolve_eq_services resolved
    exact Nat.le_trans (Resolution.length_findServices_le _ _) (by decide)
  obtain ⟨sent, packet, -⟩ := Response.ofServices_eq name r.cacheFlush few room
  have concluded := conclude_verdict q (Response.fill (buffer.size - Response.frameLength q) found).1
    (Response.fill (buffer.size - Response.frameLength q) found).2
  rw [← sent] at concluded
  rw [respond_of_services resolved, records?, resolved]
  dsimp only
  split
  · rename_i nothing
    rw [concluded, if_pos nothing]
    exact .nothing _
  · rename_i something
    rw [if_neg something] at concluded packet
    refine carries_of_conclude ?_ packet
    rw [concluded, Response.length_flatMap_serviceBytes]

theorem carries_respond (name : Name.Encodable q.name)
    (room : Response.frameLength q ≤ buffer.size) (r : Responder) :
    Carries q (r.records? q (buffer.size - Response.frameLength q)) (r.respond q buffer).value := by
  cases resolved : resolve q r.host r.registry with
  | host own => exact carries_ofHost name resolved room
  | services found => exact carries_ofServices name resolved room
  | noMatch =>
    rw [respond_of_noMatch resolved, records?, resolved]
    exact .nothing buffer
  | unsupported qtype =>
    rw [respond_of_unsupported resolved, records?, resolved]
    exact .nothing buffer

theorem respond_eq_none (unfit : Name.Encodable q.name → buffer.size < Response.frameLength q)
    (r : Responder) : (r.respond q buffer).value.1 = none := by
  cases resolved : resolve q r.host r.registry with
  | host own =>
    rw [respond_of_host resolved, ← Option.not_isSome_iff_eq_none, isSome_conclude_iff,
      Response.sends_ofHost_iff]
    rintro ⟨address, -, name, fits⟩
    have := unfit name
    omega
  | services found =>
    obtain ⟨-, -, nonempty⟩ := resolve_eq_services resolved
    have refused : ∃ e, (Response.ofServices q found r.cacheFlush buffer).value.1 = .error e := by
      by_cases name : Name.Encodable q.name
      · exact ⟨_, Response.ofServices_of_short name nonempty r.cacheFlush (unfit name)⟩
      · obtain ⟨_, refused⟩ :=
          Response.ofServices_of_not_encodable name nonempty r.cacheFlush
        exact ⟨_, refused buffer⟩
    obtain ⟨e, refused⟩ := refused
    rw [respond_of_services resolved, refused]
    rfl
  | noMatch => rw [respond_of_noMatch resolved]
  | unsupported qtype => rw [respond_of_unsupported resolved]

end Records

section Respelled

variable {r : Responder} {p p' : Packet} {q q' : Question} {buffer buffer' : Array UInt8}

/-- The datagram is no response, and its first question is this one. -/
structure Asks (p : Packet) (q : Question) : Prop where
  query : ∃ header, Header.read p = .ok header ∧ header.isResponse = false
  question : Question.first? p = .ok (some q)

theorem Asks.handle_eq (h : Asks p q) (r : Responder) (buffer : Array UInt8) :
    (r.handle p buffer).value = (r.respond q buffer).value := by
  obtain ⟨⟨header, hheader, query⟩, asked⟩ := h
  exact handle_of_query hheader query asked

structure Respelled (q q' : Question) : Prop where
  qtype : q.qtype = q'.qtype
  qclass : q.qclass = q'.qclass
  name : Text.same (Name.dropDot q.name) (Name.dropDot q'.name) = true

namespace Respelled

theorem symm (h : Respelled q q') : Respelled q' q :=
  ⟨h.qtype.symm, h.qclass.symm, Text.same_iff.2 (Text.same_iff.1 h.name).symm⟩

theorem bytes (h : Respelled q q') (name : Name.Encodable q.name) :
    Name.Encodable q'.name ∧
      (Name.bytes q'.name).map Text.foldByte = (Name.bytes q.name).map Text.foldByte := by
  obtain ⟨bytes', encoded, alike⟩ :=
    Name.encode_of_same (Text.same_iff.1 h.name) (Name.encode_of_encodable name)
  have whole : Name.bytes q'.name = bytes' :=
    Except.ok.inj ((Name.encode_of_encodable ⟨_, encoded⟩).symm.trans encoded)
  exact ⟨⟨_, encoded⟩, whole ▸ alike⟩

theorem frameLength (h : Respelled q q') (name : Name.Encodable q.name) :
    Response.frameLength q' = Response.frameLength q := by
  have lengths := congrArg List.length (h.bytes name).2
  rw [List.length_map, List.length_map] at lengths
  rw [Response.frameLength, Response.frameLength, lengths]

end Respelled

/-- Datagrams that ask the same question in two spellings are both met with silence, or are both
answered by as many bytes and records, and the answers differ in the case of the name alone. -/
theorem handle_respelled (reachable : r.registry.Reachable) (asks : Asks p q) (asks' : Asks p' q')
    (h : Respelled q q') (size : buffer.size = buffer'.size) :
    ((r.handle p buffer).value.1 = none ∧ (r.handle p' buffer').value.1 = none) ∨
    ∃ length answers out out' front name name' back,
      (r.handle p buffer).value = (some ⟨length, answers, q⟩, out) ∧
      (r.handle p' buffer').value = (some ⟨length, answers, q'⟩, out') ∧
      out.extract 0 length = (front ++ name ++ back).toArray ∧
      out'.extract 0 length = (front ++ name' ++ back).toArray ∧
      front.length = 12 ∧ Name.encode q.name = .ok name ∧ Name.encode q'.name = .ok name' ∧
      name.map Text.foldByte = name'.map Text.foldByte := by
  rw [asks.handle_eq, asks'.handle_eq]
  by_cases fits : Name.Encodable q.name ∧ Response.frameLength q ≤ buffer.size
  · obtain ⟨name, room⟩ := fits
    obtain ⟨name', alike⟩ := h.bytes name
    have frame := h.frameLength name
    have room' : Response.frameLength q' ≤ buffer'.size := by rwa [frame, ← size]
    have carried := carries_respond name room r
    have carried' := carries_respond name' room' r
    have resolved := Resolution.resolve_congr reachable.valid h.qtype (Text.same_iff.1 h.name) r.host
    -- both packets carry the same records, as the room behind both questions is the same
    rw [frame, ← size, ← records?_congr resolved h.qtype] at carried'
    generalize r.records? q (buffer.size - Response.frameLength q) = records at carried carried'
    generalize (r.respond q buffer).value = sent at *
    generalize (r.respond q' buffer').value = sent' at *
    cases carried with
    | nothing =>
      cases carried'
      exact .inl ⟨rfl, rfl⟩
    | @packet count bytes out packet =>
      cases carried' with
      | @packet _ _ out' packet' =>
        rw [frame] at packet'
        refine .inr ⟨_, count, out, out', Response.headerBytes count, Name.bytes q.name,
          Name.bytes q'.name, bytesOfU16 q.qtype ++ bytesOfU16 q.qclass ++ bytes, rfl, ?_, ?_, ?_,
          rfl, Name.encode_of_encodable name, Name.encode_of_encodable name', alike.symm⟩
        · rw [frame]
        · rw [packet, Response.frameBytes, Response.questionBytes]
          simp only [List.append_assoc]
        · rw [packet', Response.frameBytes, Response.questionBytes, h.qtype, h.qclass]
          simp only [List.append_assoc]
  · have unfit : Name.Encodable q.name → buffer.size < Response.frameLength q :=
      fun name => Nat.lt_of_not_le (not_and.1 fits name)
    have unfit' : Name.Encodable q'.name → buffer'.size < Response.frameLength q' := by
      intro name'
      have frame := h.symm.frameLength name'
      have := unfit (h.symm.bytes name').1
      omega
    exact .inl ⟨respond_eq_none unfit r, respond_eq_none unfit' r⟩

def loudScanQuery : Packet :=
  #[1, 2, 1, 0, 0, 1, 0, 0, 0, 3, 0, 0,
    5, 95, 83, 67, 65, 78, 4, 95, 116, 99, 112, 6, 76, 79, 67, 65, 76, 46, 0, 0, 33, 0, 1, 9, 9]

def loudScanning : Question := ⟨"_SCAN._tcp.LOCAL.", RecordType.srv, RecordClass.internet⟩

theorem desk_answers_loudScanQuery :
    desk.registry.Reachable ∧ Asks scanQuery scanning ∧ Asks loudScanQuery loudScanning ∧
      Respelled scanning loudScanning ∧
      ∃ (out out' : Array UInt8) (front name name' back : List UInt8),
        (desk.handle scanQuery (.replicate 140 0xFF)).value = (some ⟨133, 2, scanning⟩, out) ∧
        (desk.handle loudScanQuery (.replicate 140 0)).value =
          (some ⟨133, 2, loudScanning⟩, out') ∧
        out.extract 0 133 = (front ++ name ++ back).toArray ∧
        out'.extract 0 133 = (front ++ name' ++ back).toArray ∧
        name.map Text.foldByte = name'.map Text.foldByte := by
  have reachable : desk.registry.Reachable := .step (.register scanner) .empty
  have asks : Asks scanQuery scanning :=
    ⟨⟨⟨7, 0, 1, 0, 0, 0⟩, rfl, by decide⟩, eq_ok_of_toOption (by decide +kernel)⟩
  have asks' : Asks loudScanQuery loudScanning :=
    ⟨⟨⟨0x102, 0x100, 1, 0, 3, 0⟩, rfl, by decide⟩, eq_ok_of_toOption (by decide +kernel)⟩
  have respelled : Respelled scanning loudScanning :=
    ⟨rfl, rfl, Text.same_iff_toList.2 (by decide +kernel)⟩
  have size : (Array.replicate 140 (0xFF : UInt8)).size = (Array.replicate 140 (0 : UInt8)).size := by
    simp
  refine ⟨reachable, asks, asks', respelled, ?_⟩
  obtain ⟨silent, -⟩ | ⟨length, answers, out, out', front, name, name', back, sent, sent', packet,
      packet', -, -, -, alike⟩ :=
    handle_respelled reachable asks asks' respelled size
  · rw [handle_scanQuery] at silent
    cases silent
  · cases congrArg Prod.fst (handle_scanQuery.symm.trans sent)
    exact ⟨out, out', front, name, name', back, sent, sent', packet, packet', alike⟩

end Respelled

end Responder

end MulticastDns

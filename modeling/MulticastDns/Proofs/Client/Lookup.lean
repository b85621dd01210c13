import MulticastDns.Client.Lookup
import MulticastDns.Proofs.Name.RoundTrip
import MulticastDns.Proofs.Query
import MulticastDns.Proofs.Responder.Answering

namespace MulticastDns

namespace Name

/-- One label, and no dots in it. -/
structure Bare (name : String) : Prop where
  label : isLabel name = true
  dotless : '.' ∉ name.toList

section Bare

variable {name : String}

theorem isLocal_of_not_mem (h : '.' ∉ name.toList) : isLocal name = false := by
  have sign : '.'.isAlpha = false := by decide
  rw [isLocal, Bool.eq_false_iff, ne_eq, List.isSuffixOf_iff_suffix]
  exact fun ending => h ((Text.mem_fold_iff sign).1 (ending.subset (by decide)))

theorem append_localSuffix (name : String) : name ++ localSuffix = dotted [name, "local"] := by
  apply String.toList_inj.1
  simp [dotted, localSuffix]

theorem encodable_ofLabels {ls : List String} (good : ∀ label ∈ ls, isLabel label = true)
    (dotless : Dotless ls) (short : encodedLength ls ≤ maxLength) : Encodable (ofLabels ls) := by
  refine ⟨wireForm ls, ?_⟩
  rw [encode_eq_map, labels_ofLabels good dotless, if_neg (Nat.not_lt.2 short)]
  rfl

namespace Bare

theorem ne_empty (h : Bare name) : name ≠ "" := by
  rintro rfl
  exact absurd h.label (by decide)

theorem forall_isLabel (h : Bare name) : ∀ label ∈ [name, "local"], isLabel label = true := by
  intro label member
  rcases List.mem_pair.1 member with rfl | rfl
  · exact h.label
  · decide +kernel

theorem dotless_pair (h : Bare name) : Dotless [name, "local"] := by
  intro label member
  rcases List.mem_pair.1 member with rfl | rfl
  · exact h.dotless
  · decide

theorem encodedLength_le (h : Bare name) : encodedLength [name, "local"] ≤ maxLength := by
  have length := (isLabel_iff.1 h.label).2
  have suffix : "local".utf8ByteSize = 5 := by decide +kernel
  have limits : maxLength = 255 ∧ maxLabelLength = 63 := ⟨rfl, rfl⟩
  simp only [encodedLength, suffix]
  omega

theorem encodable_local (h : Bare name) : Encodable (name ++ localSuffix) := by
  have whole := encodable_ofLabels h.forall_isLabel h.dotless_pair h.encodedLength_le
  rwa [ofLabels_cons, ← append_localSuffix] at whole

theorem dropDot_local (h : Bare name) : dropDot (name ++ localSuffix) = name ++ localSuffix := by
  rw [append_localSuffix, dropDot_dotted h.forall_isLabel h.dotless_pair]

theorem canonical_local (h : Bare name) :
    canonical (name ++ localSuffix) = name ++ localSuffix := by
  have nonempty : name ++ localSuffix ≠ "" := by
    rw [append_localSuffix]
    exact (dotted_eq_empty_iff h.forall_isLabel).not.2 (List.cons_ne_nil _ _)
  rw [canonical, h.dropDot_local, if_neg nonempty]

theorem encodable_dot (h : Bare name) : Encodable (name ++ ".") := by
  have shorter : encodedLength [name] ≤ encodedLength [name, "local"] := by
    simp only [encodedLength]
    omega
  have good : ∀ label ∈ [name], isLabel label = true := List.forall_mem_singleton.2 h.label
  have dotless : Dotless [name] := List.forall_mem_singleton.2 h.dotless
  have whole : Encodable (ofLabels [name]) :=
    encodable_ofLabels good dotless (Nat.le_trans shorter h.encodedLength_le)
  rw [ofLabels_cons, dotted] at whole
  rw [Encodable, encodable_iff, dropDot_of_not_mem h.dotless] at whole
  rwa [Encodable, encodable_iff, dropDot_append_dot]

theorem canonical_dot (h : Bare name) : canonical (name ++ ".") = name := by
  rw [canonical, dropDot_append_dot, if_neg h.ne_empty]

end Bare

end Bare

end Name

def Host.Has (h : Host) : Address → Prop
  | .v4 a => h.ipv4 = some a
  | .v6 a => h.ipv6 = some a

namespace Client.Lookup

section Bare

variable {name : String} {ipv4 : Option IPv4} {ipv6 : Option IPv6} {ttl : UInt32}

theorem fullName_of_bare (bare : Name.Bare name) :
    fullName .hostname name = name ++ Name.localSuffix :=
  if_pos ⟨by decide, bare.dotless⟩

theorem fullName_dot (name : String) : fullName .hostname (name ++ ".") = name ++ "." :=
  if_neg fun plain => plain.2 (by simp)

theorem name_named (bare : Name.Bare name) (ipv4 : Option IPv4) (ipv6 : Option IPv6)
    (ttl : UInt32) : (Host.named name ipv4 ipv6 ttl).name = name ++ Name.localSuffix := by
  rw [Host.named, Name.dropDot_of_not_mem bare.dotless, Name.ensureLocal,
    Name.isLocal_of_not_mem bare.dotless]
  rfl

theorem named_dot (bare : Name.Bare name) (ipv4 : Option IPv4) (ipv6 : Option IPv6)
    (ttl : UInt32) : Host.named (name ++ ".") ipv4 ipv6 ttl = Host.named name ipv4 ipv6 ttl := by
  rw [Host.named, Host.named, Name.dropDot_append_dot, Name.dropDot_of_not_mem bare.dotless]

theorem answersTo_local (bare : Name.Bare name) :
    (Host.named name ipv4 ipv6 ttl).answersTo (name ++ Name.localSuffix) = true := by
  rw [Host.answersTo, name_named bare, bare.dropDot_local]
  exact Text.same_refl _

theorem not_answersTo_bare (bare : Name.Bare name) :
    (Host.named name ipv4 ipv6 ttl).answersTo name = false := by
  rw [Host.answersTo, name_named bare, Name.dropDot_of_not_mem bare.dotless, Bool.eq_false_iff]
  intro same
  have lengths := congrArg String.length (Text.same_iff.1 same)
  rw [Text.length_fold, Text.length_fold, String.length_append] at lengths
  have suffix : Name.localSuffix.length = 6 := by decide +kernel
  omega

theorem address?_of_has {q : Question} {h : Host} {address : Address} (has : h.Has address)
    (type : q.qtype = Response.addressType address) : Response.address? q h = some address := by
  cases address with
  | v4 a =>
    have found : h.ipv4 = some a := has
    rw [Response.address?, type, Response.addressType, if_pos rfl, found, Option.map_some]
  | v6 a =>
    have found : h.ipv6 = some a := has
    rw [Response.address?, type, Response.addressType, if_neg (by decide), if_pos rfl, found,
      Option.map_some]

theorem handle_of_encode {full : String} {qtype : UInt16} {unicast : Bool} {packet : List UInt8}
    (h : Query.encode full qtype unicast = .ok packet) (r : Responder) (buffer : Array UInt8) :
    (r.handle packet.toArray buffer).value =
      (r.respond ⟨Name.canonical full, qtype, RecordClass.internetWith unicast⟩ buffer).value :=
  Responder.handle_of_query (Query.header_of_encode h) (by decide) (Query.first?_of_encode h)

def Finds (r : Responder) (name : String) (unicast : Bool) (record : Record) : Prop :=
  ∃ packet, Query.encode (fullName .hostname name) record.rtype unicast = .ok packet ∧
    ∀ buffer : Array UInt8, buffer.size = 1500 → ∃ answer out,
      (r.handle packet.toArray buffer).value = (some answer, out) ∧
      (Message.read (out.extract 0 answer.length)).value = .ok ⟨⟨0, 0x8400, 1, 1, 0, 0⟩,
        [⟨record.name, record.rtype, RecordClass.internetWith unicast⟩], [record], [], []⟩

def Misses (r : Responder) (name : String) (unicast : Bool) (qtype : UInt16) : Prop :=
  ∃ packet, Query.encode (fullName .hostname name) qtype unicast = .ok packet ∧
    ∀ buffer : Array UInt8, (r.handle packet.toArray buffer).value.1 = none

theorem finds_bare_name (bare : Name.Bare name) (registry : Registry) (cacheFlush unicast : Bool)
    {address : Address} (has : (Host.named name ipv4 ipv6 ttl).Has address) :
    Finds ⟨.named name ipv4 ipv6 ttl, registry, cacheFlush⟩ name unicast
      ⟨name ++ ".local", Response.addressType address, RecordClass.internet, cacheFlush, ttl,
        Response.addressData address⟩ := by
  let q : Question := ⟨name ++ Name.localSuffix, Response.addressType address,
    RecordClass.internetWith unicast⟩
  have sent := Query.encode_of_encodable bare.encodable_local q.qtype unicast
  rw [Finds, fullName_of_bare bare]
  refine ⟨_, sent, fun buffer size => ?_⟩
  rw [handle_of_encode sent, bare.canonical_local]
  have type : q.qtype = RecordType.a ∨ q.qtype = RecordType.aaaa := by
    cases address with
    | v4 => exact .inl rfl
    | v6 => exact .inr rfl
  have resolved : resolve q (.named name ipv4 ipv6 ttl) registry =
      .host (.named name ipv4 ipv6 ttl) := by
    rw [resolve, if_pos type, if_pos (answersTo_local bare)]
  have room : Response.frameLength q + 12 + (Response.octets address).length ≤ buffer.size := by
    have frame := Response.frameLength_le (q := q) bare.encodable_local
    have octets := Response.length_octets address
    omega
  obtain ⟨out, answered, bytes⟩ := Responder.respond_of_fits (r := ⟨_, registry, cacheFlush⟩)
    resolved (address?_of_has has rfl) bare.encodable_local room
  refine ⟨_, out, answered, ?_⟩
  have reads := Response.read_hostBytes (q := q) bare.encodable_local address cacheFlush ttl
  rw [Response.message, Response.hostRecord, bare.canonical_local] at reads
  dsimp only
  rw [bytes]
  exact reads

theorem misses_name_with_dot (bare : Name.Bare name) (ipv4 : Option IPv4) (ipv6 : Option IPv6)
    (ttl : UInt32) (registry : Registry) (cacheFlush unicast : Bool) {qtype : UInt16}
    (address : qtype = RecordType.a ∨ qtype = RecordType.aaaa) :
    Misses ⟨.named (name ++ ".") ipv4 ipv6 ttl, registry, cacheFlush⟩ (name ++ ".") unicast
      qtype := by
  have sent := Query.encode_of_encodable bare.encodable_dot qtype unicast
  rw [Misses, fullName_dot]
  refine ⟨_, sent, fun buffer => ?_⟩
  -- the dot is gone from the question that is read, and gone from the host before it is local
  rw [handle_of_encode sent, bare.canonical_dot, named_dot bare]
  have unknown : resolve ⟨name, qtype, RecordClass.internetWith unicast⟩
      (.named name ipv4 ipv6 ttl) registry = .noMatch := by
    rw [resolve, if_pos address, not_answersTo_bare bare]
    rfl
  rw [Responder.respond_of_noMatch unknown]

/-- A host named by one label is found under that label, in every family of which it has an
address. With a dot behind the label the query is for the label alone, and the host, whose name is
the same as before, is silent. -/
theorem bare_name_found (bare : Name.Bare name) (ipv4 : Option IPv4) (ipv6 : Option IPv6)
    (ttl : UInt32) (registry : Registry) (cacheFlush unicast : Bool) :
    (∀ address, (Host.named name ipv4 ipv6 ttl).Has address →
      Finds ⟨.named name ipv4 ipv6 ttl, registry, cacheFlush⟩ name unicast
        ⟨name ++ ".local", Response.addressType address, RecordClass.internet, cacheFlush, ttl,
          Response.addressData address⟩) ∧
    ∀ qtype, qtype = RecordType.a ∨ qtype = RecordType.aaaa →
      Misses ⟨.named (name ++ ".") ipv4 ipv6 ttl, registry, cacheFlush⟩ (name ++ ".") unicast
        qtype :=
  ⟨fun _ has => finds_bare_name bare registry cacheFlush unicast has,
    fun _ => misses_name_with_dot bare ipv4 ipv6 ttl registry cacheFlush unicast⟩

def home : IPv4 := ⟨.replicate 4 10⟩

theorem local_found : Name.Bare "local" ∧ (Host.named "local" (some home) none 120).Has (.v4 home) ∧
    Finds ⟨.named "local" (some home) none 120, .empty, true⟩ "local" true
      ⟨"local.local", RecordType.a, RecordClass.internet, true, 120, .a home⟩ := by
  have bare : Name.Bare "local" := ⟨by decide +kernel, by decide⟩
  have has : (Host.named "local" (some home) none 120).Has (.v4 home) := rfl
  have found := (bare_name_found bare (some home) none 120 .empty true true).1 (.v4 home) has
  exact ⟨bare, has, found⟩

theorem nas_with_dot_missed :
    Name.Bare (Name.dropDot "nas.") ∧ (Host.named "nas." (some home) none 120).Has (.v4 home) ∧
    Misses ⟨.named "nas." (some home) none 120, .empty, true⟩ "nas." true RecordType.a := by
  have bare : Name.Bare "nas" := ⟨by decide +kernel, by decide⟩
  have dropped : Name.dropDot "nas." = "nas" := Name.dropDot_append_dot "nas"
  have missed := misses_name_with_dot bare (some home) none 120 .empty true true (.inl rfl)
  exact ⟨dropped ▸ bare, rfl, missed⟩

end Bare

end Client.Lookup

end MulticastDns

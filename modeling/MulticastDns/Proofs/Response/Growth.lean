import MulticastDns.Proofs.Response.Services

namespace MulticastDns.Response

section Fill

variable {room more : Nat} {s : Service}

theorem Skipped.mono (h : Skipped room s) (larger : room ≤ more) : Skipped more s := by
  obtain ⟨n, fault, within⟩ := h
  exact ⟨n, fault, Nat.le_trans within larger⟩

theorem fill_of_le (larger : room ≤ more) (services : List Service) :
    (fill room services).1 <+: (fill more services).1 ∧
      ((fill room services).2 = false → fill more services = fill room services) := by
  induction services generalizing room more with
  | nil => exact ⟨List.prefix_rfl, fun _ => rfl⟩
  | cons s rest ih =>
    by_cases good : s.Encodable
    · by_cases fits : pairLength s ≤ room
      · obtain ⟨first, same⟩ := ih (Nat.sub_le_sub_right larger (pairLength s))
        rw [fill_of_fits good fits, fill_of_fits good (Nat.le_trans fits larger)]
        exact ⟨(List.prefix_cons_inj s).2 first, fun enough => by rw [same enough]⟩
      · rw [fill_of_full good (Nat.lt_of_not_le fits)]
        exact ⟨List.nil_prefix, nofun⟩
    · by_cases skipped : Skipped room s
      · rw [fill_of_skipped good skipped, fill_of_skipped good (skipped.mono larger)]
        exact ih larger
      · rw [fill_of_not_skipped good skipped]
        exact ⟨List.nil_prefix, nofun⟩

end Fill

theorem pairsLength_append (before after : List Service) :
    pairsLength (before ++ after) = pairsLength before + pairsLength after := by
  induction before with
  | nil => rw [List.nil_append, pairsLength, Nat.zero_add]
  | cons s before ih => rw [List.cons_append, pairsLength, pairsLength, ih, Nat.add_assoc]

theorem length_responseBytes (q : Question) (rclass : UInt16) (kept : List Service) :
    (responseBytes q rclass kept).length = frameLength q + pairsLength kept := by
  rw [responseBytes, List.length_append, length_frameBytes, length_flatMap_serviceBytes]

theorem responseBytes_agree {kept kept' : List Service} (first : kept <+: kept') (q : Question)
    (rclass : UInt16) :
    (responseBytes q rclass kept').take 6 = (responseBytes q rclass kept).take 6 ∧
      (responseBytes q rclass kept).drop 8 <+: (responseBytes q rclass kept').drop 8 := by
  obtain ⟨later, rfl⟩ := first
  have behind (answers : UInt16) (rest : List UInt8) : (bytesOfU16 0 ++ (bytesOfU16 flags ++
      (bytesOfU16 1 ++ (bytesOfU16 answers ++ rest)))).drop 8 = rest := rfl
  simp only [responseBytes, frameBytes_eq, List.append_assoc, List.flatMap_append, behind]
  refine ⟨rfl, ?_⟩
  simp only [← List.append_assoc]
  exact List.prefix_append _ _

theorem extract_of_drop_prefix {bytes bytes' : List UInt8} {n : Nat}
    (h : bytes.drop n <+: bytes'.drop n) :
    bytes'.toArray.extract n bytes.length = bytes.toArray.extract n bytes.length := by
  have same := List.prefix_iff_eq_take.1 h
  rw [List.length_drop] at same
  simp only [List.extract_toArray, List.extract, ← same]
  rw [List.take_of_length_le (Nat.le_of_eq List.length_drop)]

section Outcomes

variable {q : Question} {kept : List Service} {full : Bool}

theorem verdict_eq_truncated {length : Nat} {answers : UInt16}
    (h : verdict q kept full = .ok (.truncated length answers)) :
    kept ≠ [] ∧ length = frameLength q + pairsLength kept ∧
      answers = .ofNat (2 * kept.length) :=
  verdict_eq_ok h rfl

theorem verdict_of_ne_nil (some : kept ≠ []) (full : Bool) :
    let length := frameLength q + pairsLength kept
    let answers := .ofNat (2 * kept.length)
    verdict q kept full =
      .ok (if full then .truncated length answers else .complete length answers) :=
  if_neg some

theorem enough_of_verdict (whole : ∀ length answers,
    verdict q kept full ≠ .ok (.truncated length answers))
    (fits : verdict q kept full ≠ .error .bufferFull) : full = false := by
  cases full with
  | false => rfl
  | true =>
    by_cases none : kept = []
    · exact absurd (if_pos none) fits
    · exact absurd (verdict_of_ne_nil none true) (whole _ _)

end Outcomes

/-- The same bytes but for the count of the answers, and maybe more behind them. -/
structure Continues (packet packet' : Packet) : Prop where
  size_le : packet.size ≤ packet'.size
  front : packet'.extract 0 6 = packet.extract 0 6
  rest : packet'.extract 8 packet.size = packet.extract 8 packet.size

section Growth

variable {q : Question} {services : List Service} {buffer larger : Array UInt8}

theorem continues_responseBytes {kept kept' : List Service} (first : kept <+: kept') (q : Question)
    (rclass : UInt16) :
    Continues (responseBytes q rclass kept).toArray (responseBytes q rclass kept').toArray := by
  obtain ⟨front, rest⟩ := responseBytes_agree first q rclass
  refine ⟨?_, congrArg List.toArray front, extract_of_drop_prefix rest⟩
  obtain ⟨later, rfl⟩ := first
  rw [List.size_toArray, List.size_toArray, length_responseBytes, length_responseBytes,
    pairsLength_append]
  omega

theorem ofServices_eq_of_enough (name : Name.Encodable q.name) (cacheFlush : Bool)
    (few : services.length ≤ 0x7FFF) (room : frameLength q ≤ buffer.size)
    (h : buffer.size ≤ larger.size)
    (enough : (fill (buffer.size - frameLength q) services).2 = false) :
    let small := (ofServices q services cacheFlush buffer).value
    let large := (ofServices q services cacheFlush larger).value
    large.1 = small.1 ∧ packet? large = packet? small := by
  obtain ⟨outcome, packet, -⟩ := ofServices_eq name cacheFlush few room
  obtain ⟨outcome', packet', -⟩ := ofServices_eq name cacheFlush few (Nat.le_trans room h)
  rw [(fill_of_le (Nat.sub_le_sub_right h _) services).2 enough] at outcome' packet'
  exact ⟨outcome'.trans outcome.symm, packet'.trans packet.symm⟩

theorem ofServices_of_truncated (name : Name.Encodable q.name) (cacheFlush : Bool)
    (few : services.length ≤ 0x7FFF) (room : frameLength q ≤ buffer.size)
    (h : buffer.size ≤ larger.size) {length : Nat} {answers : UInt16}
    (truncated : (ofServices q services cacheFlush buffer).value.1 =
      .ok (.truncated length answers)) :
    ∃ length' answers' packet packet',
      ((ofServices q services cacheFlush larger).value.1 = .ok (.truncated length' answers') ∨
        (ofServices q services cacheFlush larger).value.1 = .ok (.complete length' answers')) ∧
      length ≤ length' ∧ answers ≤ answers' ∧
      packet? (ofServices q services cacheFlush buffer).value = some packet ∧
      packet.size = length ∧
      packet? (ofServices q services cacheFlush larger).value = some packet' ∧
      packet'.size = length' ∧ Continues packet packet' := by
  obtain ⟨outcome, packet, -⟩ := ofServices_eq name cacheFlush few room
  obtain ⟨outcome', packet', -⟩ := ofServices_eq name cacheFlush few (Nat.le_trans room h)
  have first := (fill_of_le (Nat.sub_le_sub_right h (frameLength q)) services).1
  have fewer := Nat.le_trans (fill_sublist (larger.size - frameLength q) services).length_le few
  generalize fill (buffer.size - frameLength q) services = written at *
  generalize fill (larger.size - frameLength q) services = written' at *
  obtain ⟨anyKept, rfl, rfl⟩ := verdict_eq_truncated (outcome.symm.trans truncated)
  have anyKept' : written'.1 ≠ [] := first.ne_nil anyKept
  rw [if_neg anyKept] at packet
  rw [if_neg anyKept'] at packet'
  rw [verdict_of_ne_nil anyKept'] at outcome'
  have continues := continues_responseBytes first q (RecordClass.internetWith cacheFlush)
  have longer := continues.size_le
  rw [List.size_toArray, List.size_toArray, length_responseBytes, length_responseBytes] at longer
  have counted : UInt16.ofNat (2 * written.1.length) ≤ .ofNat (2 * written'.1.length) := by
    have shorter := first.length_le
    rw [UInt16.le_iff_toNat_le, toNat_answers (Nat.le_trans shorter fewer), toNat_answers fewer]
    omega
  refine ⟨_, _, _, _, ?_, longer, counted, packet, ?_, packet', ?_, continues⟩
  · rw [outcome']
    cases written'.2
    · exact .inr rfl
    · exact .inl rfl
  · rw [List.size_toArray, length_responseBytes]
  · rw [List.size_toArray, length_responseBytes]

/-- A larger buffer changes nothing of a response that did not run out of room. One that did has at
least the services it had, and differs before their end in the count of the answers only. -/
theorem ofServices_grows (q : Question) (cacheFlush : Bool) (few : services.length ≤ 0x7FFF)
    (h : buffer.size ≤ larger.size) :
    let small := (ofServices q services cacheFlush buffer).value
    let large := (ofServices q services cacheFlush larger).value
    ((∀ length answers, small.1 ≠ .ok (.truncated length answers)) →
      small.1 ≠ .error .bufferFull → large.1 = small.1 ∧ packet? large = packet? small) ∧
    ∀ length answers, small.1 = .ok (.truncated length answers) →
      ∃ length' answers' packet packet',
        (large.1 = .ok (.truncated length' answers') ∨
          large.1 = .ok (.complete length' answers')) ∧
        length ≤ length' ∧ answers ≤ answers' ∧
        packet? small = some packet ∧ packet.size = length ∧
        packet? large = some packet' ∧ packet'.size = length' ∧ Continues packet packet' := by
  by_cases empty : services = []
  · subst empty
    exact ⟨fun _ _ => ⟨rfl, rfl⟩, nofun⟩
  by_cases name : Name.Encodable q.name
  · by_cases room : frameLength q ≤ buffer.size
    · refine ⟨fun whole fits => ?_, fun length answers truncated =>
        ofServices_of_truncated name cacheFlush few room h truncated⟩
      rw [(ofServices_eq name cacheFlush few room).1] at whole fits
      exact ofServices_eq_of_enough name cacheFlush few room h (enough_of_verdict whole fits)
    · have full := ofServices_of_short name empty cacheFlush (Nat.lt_of_not_le room)
      exact ⟨fun _ fits => absurd full fits, fun _ _ truncated => nomatch full.symm.trans truncated⟩
  · obtain ⟨e, refused⟩ := ofServices_of_not_encodable name empty cacheFlush
    refine ⟨fun _ fits => ?_, fun _ _ truncated => nomatch (refused buffer).symm.trans truncated⟩
    have room : Header.size ≤ buffer.size := by
      by_contra short
      exact fits ((refused buffer).trans (congrArg _ (if_neg short)))
    have small := (refused buffer).trans (congrArg _ (if_pos room))
    have large := (refused larger).trans (congrArg _ (if_pos (Nat.le_trans room h)))
    refine ⟨large.trans small.symm, ?_⟩
    rw [packet?, packet?, large, small]

end Growth

section Samples

def listening : Question := ⟨"_raop._tcp.local", RecordType.srv, RecordClass.internet⟩

def speaker : Service :=
  ⟨"speaker", "_raop._tcp", "local", 0, 0, 7000, "speaker.local", ["ch=2"], 120⟩

def muted : Service := ⟨"muted", "_raop._tcp", "local", 0, 0, 7000, "muted..local", [], 120⟩

def mixer : Service := ⟨"mixer", "_raop._tcp", "local", 1, 0, 7000, "mixer.local", [], 0⟩

theorem speaker_stays_before_mixer :
    let small := (ofServices listening [muted, speaker, mixer] true (.replicate 140 0)).value
    let large := (ofServices listening [muted, speaker, mixer] true (.replicate 220 0)).value
    small.1 = .ok (.truncated 132 2) ∧ large.1 = .ok (.complete 220 4) ∧
      ∃ packet packet', packet? small = some packet ∧ packet? large = some packet' ∧
        Continues packet packet' := by
  have truncated : (ofServices listening [muted, speaker, mixer] true
      (.replicate 140 0)).value.1 = .ok (.truncated 132 2) := by decide +kernel
  have complete : (ofServices listening [muted, speaker, mixer] true
      (.replicate 220 0)).value.1 = .ok (.complete 220 4) := by decide +kernel
  have more : (Array.replicate 140 (0 : UInt8)).size ≤ (Array.replicate 220 (0 : UInt8)).size := by
    simp
  obtain ⟨_, _, packet, packet', -, -, -, sent, -, sent', -, continues⟩ :=
    (ofServices_grows listening true (by decide) more).2 132 2 truncated
  exact ⟨truncated, complete, packet, packet', sent, sent', continues⟩

end Samples

end MulticastDns.Response

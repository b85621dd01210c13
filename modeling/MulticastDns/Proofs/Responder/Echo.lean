import MulticastDns.Proofs.Message
import MulticastDns.Proofs.Name.RoundTrip
import MulticastDns.Proofs.Responder.Answering

namespace MulticastDns

namespace Responder

section Echo

variable {r : Responder} {p : Packet} {buffer out : Array UInt8} {answer : Answer}

theorem holds_frameBytes_of_handle (h : (r.handle p buffer).value = (some answer, out)) :
    Question.first? p = .ok (some answer.question) ∧ Name.Encodable answer.question.name ∧
      Packet.Holds (out.extract 0 answer.length) 0
        (Response.frameBytes answer.question answer.answers) := by
  obtain ⟨header, q, -, -, asked, responds⟩ := handle_eq_some h
  obtain ⟨own, -, concluded, rfl⟩ | ⟨found, resolved, concluded, rfl⟩ := respond_eq_some responds
  · obtain ⟨outcome, length, sent, hlength, rfl⟩ := conclude_eq_some concluded
    obtain ⟨address, -, name, -, -, answers, packet⟩ := Response.packet_of_ofHost sent hlength
    refine ⟨asked, name, ?_⟩
    rw [packet, answers]
    exact (Packet.holds_append.1 (Packet.holds_toArray _)).1
  · obtain ⟨outcome, length, sent, hlength, rfl⟩ := conclude_eq_some concluded
    obtain ⟨-, rfl, anyFound⟩ := resolve_eq_services resolved
    have few := Nat.le_trans (Resolution.length_findServices_le q.name r.registry)
      (by decide : Resolution.limit ≤ 0x7FFF)
    obtain ⟨kept, -, -, -, name, -, -, answers, packet⟩ :=
      Response.packet_of_ofServices few anyFound sent hlength
    refine ⟨asked, name, ?_⟩
    rw [packet, answers]
    exact (Packet.holds_append.1 (Packet.holds_toArray _)).1

/-- A reply asks the question of the query again. Type and class are the same, and the name has the
same text up to a dot at its end, cut into labels at every dot: it has the labels of the query
exactly if none of these has a dot of its own. -/
theorem handle_echoes_question (h : (r.handle p buffer).value = (some answer, out)) :
    ∃ visits stop, Name.Walk p 12 visits stop ∧
      p.u16 (Name.behind visits stop) = .ok answer.question.qtype ∧
      p.u16 (Name.behind visits stop + 2) = .ok answer.question.qclass ∧
      ∃ echoed : List String,
        Packet.Holds (out.extract 0 answer.length) 12
          (echoed.flatMap Name.labelBytes ++ [0] ++
            (bytesOfU16 answer.question.qtype ++ bytesOfU16 answer.question.qclass)) ∧
        (∀ label ∈ echoed, Name.isLabel label = true) ∧ Name.Dotless echoed ∧
        Name.dotted echoed = Name.dropDot (Name.dotted (Name.spelled visits)) ∧
        (echoed = Name.spelled visits ↔
          ∀ label ∈ Name.spelled visits, 0x2E ∉ Text.utf8 label) := by
  obtain ⟨asked, ⟨bytes, encoded⟩, frame⟩ := holds_frameBytes_of_handle h
  obtain ⟨_, reads⟩ := Question.first?_eq_some asked
  obtain ⟨next, named, htype, hclass⟩ := Question.read_eq_ok reads
  obtain ⟨visits, stop, walk, -, text, rfl⟩ := Name.exists_walk_of_decode named
  obtain ⟨echoed, found, rfl⟩ := Name.exists_labels_of_encode encoded
  obtain ⟨good, short, -⟩ := Name.labels_eq_ok found
  rw [text] at found
  obtain ⟨dotless, same⟩ := Name.labels_ofLabels_eq_ok found
  have question := (Packet.holds_append.1 frame).2
  have written : Name.bytes answer.question.name = Name.wireForm echoed :=
    Except.ok.inj ((Name.encode_of_encodable ⟨_, encoded⟩).symm.trans encoded)
  rw [Response.questionBytes, written] at question
  refine ⟨visits, stop, walk, htype, hclass, echoed, question, good, dotless, same, ?_⟩
  rw [← Name.dotless_iff]
  constructor
  · rintro rfl
    exact dotless
  · intro plain
    rw [Name.labels_ofLabels (fun _ => walk.isLabel_of_mem_spelled) plain] at found
    split at found
    · cases found
    · exact (Except.ok.inj found).symm

section Samples

def asking (qclass : UInt16) : Question := ⟨"nas.local", RecordType.a, qclass⟩

theorem handle_nas {header : Header} {qclass : UInt16} (hheader : Header.read p = .ok header)
    (query : header.isResponse = false) (asked : Question.first? p = .ok (some (asking qclass))) :
    ∃ out, (nas.handle p (.replicate 43 0)).value = (some ⟨43, 1, asking qclass⟩, out) := by
  have own : nas.host.answersTo "nas.local" = true := Text.same_iff_toList.2 (by decide +kernel)
  have resolved : resolve (asking qclass) nas.host nas.registry = .host nas.host := by
    rw [resolve, if_pos (.inl rfl)]
    exact if_pos own
  have name : Name.Encodable "nas.local" := by decide +kernel
  have frame : Response.frameLength (asking qclass) = 27 :=
    congrArg (· + 16) (by decide +kernel : (Name.bytes "nas.local").length = 11)
  have address : Response.address? (asking qclass) nas.host =
      some (.v4 ⟨#v[192, 168, 1, 20]⟩) := rfl
  have room : Response.frameLength (asking qclass) + 12 +
      (Response.octets (.v4 ⟨#v[192, 168, 1, 20]⟩)).length ≤
        (Array.replicate 43 (0 : UInt8)).size := by simp [frame, Response.octets]
  obtain ⟨out, answered, -⟩ := respond_of_fits resolved address name room
  rw [frame] at answered
  exact ⟨out, (handle_of_query hheader query asked).trans answered⟩

theorem nasQuery_echoed :
    ∃ out, (nas.handle nasQuery (.replicate 43 0)).value =
        (some ⟨43, 1, asking 0x8001⟩, out) ∧
      Packet.Holds (out.extract 0 43) 12 (["nas", "local"].flatMap Name.labelBytes ++ [0] ++
        (bytesOfU16 RecordType.a ++ bytesOfU16 0x8001)) := by
  have asked : Question.first? nasQuery = .ok (some (asking 0x8001)) :=
    eq_ok_of_toOption (by decide +kernel)
  have header : Header.read nasQuery = .ok ⟨7, 0x100, 1, 0, 0, 0⟩ := rfl
  obtain ⟨out, answered⟩ := handle_nas header (by decide) asked
  obtain ⟨visits, stop, walk, -, -, echoed, holds, -, -, -, same⟩ := handle_echoes_question answered
  have nas : Name.Move nasQuery 12 (some "nas") 16 :=
    .label (n := 3) rfl (by decide) (by decide) (by decide) (by decide +kernel)
  have rest : Name.Move nasQuery 22 (some "local") 28 :=
    .label (n := 5) rfl (by decide) (by decide) (by decide) (by decide +kernel)
  have spelled : Name.Walk nasQuery 12 [⟨12, some "nas"⟩, ⟨16, none⟩, ⟨22, some "local"⟩] 28 :=
    .move nas (.move (.pointer rfl (by decide) rfl rfl (by decide)) (.move rest (.stop rfl)))
  obtain ⟨rfl, rfl⟩ := walk.unique spelled
  rw [same.2 (by decide +kernel)] at holds
  exact ⟨out, answered, holds⟩

def oneLabelQuery : Packet :=
  #[0, 7, 1, 0, 0, 1, 0, 0, 0, 0, 0, 0,
    9, 110, 97, 115, 46, 108, 111, 99, 97, 108, 0, 0, 1, 0, 1]

theorem oneLabelQuery_not_echoed :
    nas.registry.Reachable ∧ nas.host = .named "NAS" (some ⟨#v[192, 168, 1, 20]⟩) none 120 ∧
    (∃ visits stop, Name.Walk oneLabelQuery 12 visits stop ∧
      Name.spelled visits = ["nas.local"]) ∧
    ∃ answer out, (nas.handle oneLabelQuery (.replicate 43 0)).value = (some answer, out) ∧
      Packet.Holds (out.extract 0 answer.length) 12
        (["nas", "local"].flatMap Name.labelBytes ++ [0]) ∧
      ¬Packet.Holds (out.extract 0 answer.length) 12
        (["nas.local"].flatMap Name.labelBytes ++ [0]) := by
  have asked : Question.first? oneLabelQuery = .ok (some (asking 1)) :=
    eq_ok_of_toOption (by decide +kernel)
  have label : Name.Move oneLabelQuery 12 (some "nas.local") 22 :=
    .label (n := 9) rfl (by decide) (by decide) (by decide) (by decide +kernel)
  have header : Header.read oneLabelQuery = .ok ⟨7, 0x100, 1, 0, 0, 0⟩ := rfl
  obtain ⟨out, answered⟩ := handle_nas header (by decide) asked
  obtain ⟨-, -, frame⟩ := holds_frameBytes_of_handle answered
  have question := (Packet.holds_append.1 frame).2
  have written : Name.bytes "nas.local" = ["nas", "local"].flatMap Name.labelBytes ++ [0] := by
    decide +kernel
  have name := (Packet.holds_append.1 question).1
  rw [show (asking 1).name = "nas.local" from rfl, written] at name
  refine ⟨.empty, rfl, ⟨_, _, .move label (.stop rfl), rfl⟩, _, _, answered, name, fun whole => ?_⟩
  have three := (Packet.holds_cons.1 name).1.getElem?_eq
  have nine := (Packet.holds_cons.1 whole).1.getElem?_eq
  exact absurd (three.symm.trans nine) (by decide +kernel)

end Samples

end Echo

end Responder

end MulticastDns

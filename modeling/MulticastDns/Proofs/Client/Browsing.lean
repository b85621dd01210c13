import MulticastDns.Proofs.Message.Extents
import MulticastDns.Proofs.Name.Local
import MulticastDns.Proofs.Query

namespace MulticastDns

namespace Query

variable {name : String} {qtype : UInt16} {unicast : Bool} {packet : List UInt8}

theorem exists_walk_of_encode (h : encode name qtype unicast = .ok packet) : ∃ asked stop,
    Name.Walk packet.toArray Header.size asked stop ∧
      Name.ofLabels (Name.spelled asked) = Name.canonical name := by
  obtain ⟨stop, question⟩ := question_of_encode h
  obtain ⟨next, named, -, -⟩ := Question.read_eq_ok question
  obtain ⟨asked, last, walk, -, labels, -⟩ := Name.exists_walk_of_decode named
  exact ⟨asked, last, walk, labels.symm⟩

end Query

namespace Record

theorem name_of_walk {p : Packet} {r : Record} {e : Extent} (lies : r.Lies p e)
    {visits : List Name.Visit} {stop : Nat} (walk : Name.Walk p e.start visits stop) :
    r.name = Name.ofLabels (Name.spelled visits) := by
  obtain ⟨visits', stop', walk', name⟩ := exists_walk_of_lies lies
  rw [name, (walk.unique walk').1]

end Record

namespace Client.Browse

variable {kind name : String}

theorem canonical_fullName (named : fullName kind = .ok name) : Name.canonical name = name := by
  obtain ⟨-, rfl⟩ := fullName_eq_ok_iff.1 named
  rw [Name.canonical, (Name.endsLocal_ensureLocal _).dropDot_eq,
    if_neg (Name.ensureLocal_ne_empty _)]

theorem shows_ptr_iff {r : Record} (pointer : r.rtype = RecordType.ptr) :
    shows name r = true ↔ Text.fold r.name = Text.fold name := by
  rw [shows, if_pos pointer, Text.same_iff]

/-- Browsing asks for its name and knows the answers. The question reads back as just that name. A
pointer in any packet is shown if its owner, wherever its labels stand, has those of the question up
to case, and one that is shown has the name for its owner up to case. -/
theorem shows_own_answers (named : fullName kind = .ok name) {query : List UInt8}
    (written : Query.encode name RecordType.ptr false = .ok query) :
    ∃ q asked last, Question.first? query.toArray = .ok (some q) ∧ q.name = name ∧
      Name.Walk query.toArray Header.size asked last ∧
      Name.ofLabels (Name.spelled asked) = name ∧
      ∀ packet m, (Message.read packet).value = .ok m →
        ∀ r ∈ m.records, r.rtype = RecordType.ptr →
          (∃ e, r.Lies packet e) ∧
          (∀ e visits stop, r.Lies packet e → Name.Walk packet e.start visits stop →
            List.Forall₂ (fun label other => Text.fold label = Text.fold other)
              (Name.spelled visits) (Name.spelled asked) → shows name r = true) ∧
          (shows name r = true → Text.fold r.name = Text.fold name) := by
  obtain ⟨asked, last, walk, text⟩ := Query.exists_walk_of_encode written
  rw [canonical_fullName named] at text
  refine ⟨_, asked, last, Query.first?_of_encode written, canonical_fullName named, walk, text, ?_⟩
  intro packet m read r hr pointer
  refine ⟨Message.exists_lies_of_mem read hr, ?_, (shows_ptr_iff pointer).1⟩
  intro e visits stop lies owner labels
  rw [shows_ptr_iff pointer, Record.name_of_walk lies owner, ← text]
  exact Name.fold_ofLabels_congr labels

section Sample

def asking : List UInt8 := [0, 0, 0, 0, 0, 1, 0, 0, 0, 0, 0, 0,
  5, 95, 104, 116, 116, 112, 4, 95, 116, 99, 112, 5, 108, 111, 99, 97, 108, 0, 0, 12, 0, 1]

def pointed : Packet := #[0, 0, 0x84, 0, 0, 1, 0, 1, 0, 0, 0, 0,
  5, 95, 104, 116, 116, 112, 4, 95, 116, 99, 112, 5, 108, 111, 99, 97, 108, 0, 0, 12, 0, 1,
  5, 95, 72, 84, 84, 80, 0xC0, 18, 0, 12, 0, 1, 0, 0, 0, 9, 0, 4, 1, 97, 0xC0, 12]

def pointer : Record := ⟨"_HTTP._tcp.local", RecordType.ptr, 1, false, 9, .ptr "a._http._tcp.local"⟩

theorem pointer_lies_in_pointed : pointer.Lies pointed ⟨34, 56⟩ := by
  have found : (Record.read pointed 34).map (fun reading => (reading.record, reading.next)) =
      .ok (pointer, 56) := by decide +kernel
  obtain ⟨⟨record, next, fault⟩, read, same⟩ := exists_ok_of_map found
  cases same
  exact ⟨fault, read⟩

theorem pointed_shows_own_answer : fullName "_http._tcp" = .ok "_http._tcp.local" ∧
    Query.encode "_http._tcp.local" RecordType.ptr false = .ok asking ∧
    shows "_http._tcp.local" pointer = true := by
  have named : fullName "_http._tcp" = .ok "_http._tcp.local" := by decide +kernel
  have written : Query.encode "_http._tcp.local" RecordType.ptr false = .ok asking := by
    decide +kernel
  have read : (Message.read pointed).value = .ok ⟨⟨0, 0x8400, 1, 1, 0, 0⟩,
      [⟨"_http._tcp.local", RecordType.ptr, RecordClass.internet⟩], [pointer], [], []⟩ := by
    decide +kernel
  have owner : Name.walk pointed 34 0 0 = .ok (["_HTTP", "_tcp", "local"], 42) := by decide +kernel
  have name : Name.walk asking.toArray 12 0 0 = .ok (["_http", "_tcp", "local"], 30) := by
    decide +kernel
  obtain ⟨visits, stop, walk, -, labels, -⟩ := Name.exists_walk_of_walk owner (Nat.zero_le _)
  obtain ⟨visits', last', walk', -, labels', -⟩ := Name.exists_walk_of_walk name (Nat.zero_le _)
  obtain ⟨q, asked, last, -, -, question, -, answers⟩ := shows_own_answers named written
  have here : pointer ∈ Message.records ⟨⟨0, 0x8400, 1, 1, 0, 0⟩,
      [⟨"_http._tcp.local", RecordType.ptr, RecordClass.internet⟩], [pointer], [], []⟩ :=
    List.mem_cons_self
  have first : Text.fold "_HTTP" = Text.fold "_http" := by
    rw [← Text.same_iff, Text.same_iff_toList]
    simp
  have alike : List.Forall₂ (fun label other => Text.fold label = Text.fold other)
      (Name.spelled visits) (Name.spelled asked) := by
    rw [(question.unique walk').1, ← labels, ← labels']
    exact .cons first (.cons rfl (.cons rfl .nil))
  obtain ⟨-, known, -⟩ := answers pointed _ read pointer here rfl
  exact ⟨named, written, known _ visits stop pointer_lies_in_pointed walk alike⟩

end Sample

end Client.Browse

end MulticastDns

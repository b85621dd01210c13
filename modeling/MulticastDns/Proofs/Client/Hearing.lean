import Mathlib.Data.List.Forall2
import MulticastDns.Client.Run
import MulticastDns.Proofs.Packet

/-! What a client makes of the datagrams it hears. Each is printed for itself, between a line before
the first and a line behind the last, and one that is no response leaves no trace. -/

namespace MulticastDns

/-- What is taken in of the datagram reads as this message, and the message is a response. -/
structure Datagram.Brings (d : Datagram) (m : Message) : Prop where
  reads : (Message.read d.cut.bytes).value = .ok m
  isResponse : m.header.isResponse = true

def Record.Belongs (name : String) (r : Record) : Prop :=
  r.rtype = RecordType.srv ∨ r.rtype = RecordType.txt ∨ r.rtype = RecordType.a ∨
    r.rtype = RecordType.aaaa ∨ r.rtype = RecordType.ptr ∧ Text.fold r.name = Text.fold name

namespace Client

section Responses

variable {d : Datagram} {m : Message}

def brought? (d : Datagram) : Option Message := (response? d.cut).value

theorem brought?_of_error {e : WireError} (h : (Message.read d.cut.bytes).value = .error e) :
    brought? d = none := by
  rw [brought?, response?, Logged.value_bind, h]
  rfl

theorem brought?_of_read (h : (Message.read d.cut.bytes).value = .ok m) :
    brought? d = if m.header.isResponse then some m else none := by
  rw [brought?, response?, Logged.value_bind, h]
  rfl

theorem brought?_eq_some_iff : brought? d = some m ↔ d.Brings m := by
  constructor
  · intro h
    cases reads : (Message.read d.cut.bytes).value with
    | error e =>
      rw [brought?_of_error reads] at h
      cases h
    | ok found =>
      rw [brought?_of_read reads] at h
      split at h
      · cases h
        exact ⟨reads, ‹_›⟩
      · cases h
  · rintro ⟨reads, isResponse⟩
    rw [brought?_of_read reads, if_pos isResponse]

theorem brought?_eq_none_iff : brought? d = none ↔ ∀ m, ¬ d.Brings m := by
  simp only [Option.eq_none_iff_forall_ne_some, ne_eq, brought?_eq_some_iff]

def brought (arrivals : List Datagram) : List (Endpoint × Message) :=
  arrivals.flatMap fun d => ((brought? d).map (d.source, ·)).toList

theorem value_responses (arrivals : List Datagram) :
    (responses (Inbox.collect arrivals)).value = brought arrivals := by
  rw [Inbox.collect_eq_map]
  induction arrivals with
  | nil => rfl
  | cons d rest ih =>
    rw [List.map_cons, responses, Logged.value_bind, Logged.value_bind, ih]
    rfl

theorem any_brought (p : Endpoint × Message → Bool) (arrivals : List Datagram) :
    (brought arrivals).any p = arrivals.any fun d => (brought? d).any fun m => p (d.source, m) := by
  rw [brought, List.any_flatMap]
  refine List.any_congr rfl fun d => ?_
  cases brought? d with
  | none => rfl
  | some m => exact Bool.or_false _

end Responses

theorem Browse.shows_iff {name : String} {r : Record} :
    shows name r = true ↔ r.Belongs name := by
  unfold shows Record.Belongs
  split
  · rename_i pointer
    rw [pointer, Text.same_iff]
    simp [RecordType.ptr, RecordType.srv, RecordType.txt, RecordType.a, RecordType.aaaa]
  · rename_i other
    simp [other]

namespace Lookup

abbrev Writes (name : String) : List UInt16 → List (List UInt8) → Prop :=
  List.Forall₂ fun qtype packet => Query.encode name qtype true = .ok packet

theorem value_send {name : String} {qtypes : List UInt16} {sent : List (List UInt8)}
    (h : Writes name qtypes sent) : (send name qtypes).value = (none, sent) := by
  induction h with
  | nil => rfl
  | cons written _ ih =>
    rw [send, written]
    simp [ih]

theorem writes_or_fails (name : String) (qtypes : List UInt16) :
    (∃ sent, Writes name qtypes sent) ∨ ∃ e sent, (send name qtypes).value = (some e, sent) := by
  induction qtypes with
  | nil => exact .inl ⟨[], .nil⟩
  | cons qtype rest ih =>
    rw [send]
    cases written : Query.encode name qtype true with
    | error e => exact .inr ⟨_, _, rfl⟩
    | ok packet =>
      rcases ih with ⟨sent, later⟩ | ⟨e, sent, later⟩
      · exact .inl ⟨packet :: sent, .cons written later⟩
      · refine .inr ⟨e, packet :: sent, ?_⟩
        simp [later]

end Lookup

namespace Command

def style : Command → Style
  | .lookup q => q.style
  | .browse b => b.style

def shows (c : Command) (name : String) (r : Record) : Bool :=
  match c with
  | .lookup _ => true
  | .browse _ => Browse.shows name r

def shown (c : Command) (name : String) (d : Datagram) : List Record :=
  match brought? d with
  | none => []
  | some m => m.records.filter (c.shows name)

def heard (c : Command) (name : String) (d : Datagram) : List String :=
  printed c.style d.source (c.shown name d)

def counts (c : Command) (name : String) (d : Datagram) : Bool :=
  match c with
  | .lookup _ => (brought? d).isSome
  | .browse _ => !(c.shown name d).isEmpty

def opening (c : Command) (name : String) : List String :=
  match c with
  | .lookup _ => []
  | .browse b => if b.style = .plain then [s!"Query sent: PTR {name}"] else []

def closing (c : Command) (name : String) (found : Bool) : List String :=
  match c with
  | .lookup q => if found = false ∧ q.style = .plain then [nothingFound name q.wait] else []
  | .browse b => if found then [] else [nothingFound name b.wait]

/-- The command gets as far as listening: its options agree, its interface is there, and its queries
for this name can be written. -/
inductive Asks (l : Link) : Command → String → List (List UInt8) → Prop
  | lookup {q : Lookup} {qtypes : List UInt16} {index : UInt32} {sent : List (List UInt8)} :
      Lookup.types q.kind q.ipv4 q.ipv6 = .ok qtypes →
      interfaceIndex l q.interface = .ok index →
      Lookup.Writes (Lookup.fullName q.kind q.name) qtypes sent →
      Asks l (.lookup q) (Lookup.fullName q.kind q.name) sent
  | browse {b : Browse} {name : String} {index : UInt32} {packet : List UInt8} :
      Browse.fullName b.kind = .ok name → interfaceIndex l b.interface = .ok index →
      Query.encode name RecordType.ptr false = .ok packet → Asks l (.browse b) name [packet]

def session (c : Command) (name : String) (sent : List (List UInt8))
    (arrivals : List Datagram) : Session :=
  let found := arrivals.any (c.counts name)
  ⟨.ok found, sent, c.opening name ++ arrivals.flatMap (c.heard name) ++ c.closing name found⟩

section Hearing

variable {c : Command} {name : String} {d : Datagram}

theorem shown_of_some {m : Message} (h : brought? d = some m) (c : Command) (name : String) :
    c.shown name d = m.records.filter (c.shows name) := by
  rw [shown, h]

theorem shown_of_none (h : brought? d = none) (c : Command) (name : String) :
    c.shown name d = [] := by
  rw [shown, h]

theorem heard_of_shown_nil (h : c.shown name d = []) : c.heard name d = [] := by
  rw [heard, h]
  cases c.style <;> rfl

theorem filter_shows_lookup (q : Lookup) (name : String) (records : List Record) :
    records.filter ((lookup q).shows name) = records :=
  List.filter_eq_self.2 fun _ _ => rfl

theorem flatMap_heard (c : Command) (name : String) (arrivals : List Datagram) :
    arrivals.flatMap (c.heard name) = (brought arrivals).flatMap fun x =>
      printed c.style x.1 (x.2.records.filter (c.shows name)) := by
  rw [brought, List.flatMap_assoc]
  refine List.flatMap_congr fun d _ => ?_
  cases brings : brought? d with
  | none => exact heard_of_shown_nil (shown_of_none brings c name)
  | some m =>
    rw [heard, shown_of_some brings]
    exact (List.append_nil _).symm

theorem any_counts_lookup (q : Lookup) (name : String) (arrivals : List Datagram) :
    arrivals.any ((lookup q).counts name) = !(brought arrivals).isEmpty := by
  have something : (!(brought arrivals).isEmpty) = (brought arrivals).any fun _ => true := by
    cases brought arrivals <;> rfl
  rw [something, any_brought]
  refine List.any_congr rfl fun d => ?_
  rw [counts]
  cases brought? d <;> rfl

theorem any_counts_browse (b : Browse) (name : String) (arrivals : List Datagram) :
    arrivals.any ((browse b).counts name) =
      (brought arrivals).any fun x => !(x.2.records.filter (Browse.shows name)).isEmpty := by
  rw [any_brought]
  refine List.any_congr rfl fun d => ?_
  rw [counts]
  cases brings : brought? d with
  | none =>
    rw [shown_of_none brings]
    rfl
  | some m =>
    rw [shown_of_some brings]
    rfl

end Hearing

section Run

variable {c : Command} {l : Link} {name : String} {sent : List (List UInt8)}
  {arrivals : List Datagram}

theorem run_of_asks (h : c.Asks l name sent) (arrivals : List Datagram) :
    (c.run l arrivals).value = c.session name sent arrivals := by
  cases h with
  | @lookup q qtypes index _ types interface written =>
    rw [run, Lookup.run]
    dsimp only
    rw [types, interface]
    simp only [Logged.value_bind, Lookup.value_send written, value_responses, session,
      any_counts_lookup, flatMap_heard, filter_shows_lookup, opening, closing, style]
    rw [Logged.value_pure]
    simp
  | @browse b _ index packet named interface written =>
    rw [run, Browse.run]
    dsimp only
    rw [named, interface]
    dsimp only
    rw [written]
    simp only [Logged.value_bind, value_responses, session, any_counts_browse, flatMap_heard,
      opening, closing, style, List.any_map, List.flatMap_map]
    rfl

theorem asks_or_fails (c : Command) (l : Link) : (∃ name sent, c.Asks l name sent) ∨
    ∃ e sent, ∀ arrivals, (c.run l arrivals).value = .failed e sent := by
  -- what can fail comes in the order of the run: the options, the interface, the queries
  cases c with
  | lookup q =>
    cases types : Lookup.types q.kind q.ipv4 q.ipv6 with
    | error e =>
      refine .inr ⟨e, [], fun arrivals => ?_⟩
      rw [run, Lookup.run, types]
      rfl
    | ok qtypes =>
      cases interface : interfaceIndex l q.interface with
      | error e =>
        refine .inr ⟨e, [], fun arrivals => ?_⟩
        rw [run, Lookup.run, types, interface]
        rfl
      | ok index =>
        rcases Lookup.writes_or_fails (Lookup.fullName q.kind q.name) qtypes with
          ⟨sent, written⟩ | ⟨e, sent, stopped⟩
        · exact .inl ⟨_, sent, .lookup types interface written⟩
        · refine .inr ⟨e, sent, fun arrivals => ?_⟩
          rw [run, Lookup.run, types, interface]
          simp only [Logged.value_bind, stopped]
          rfl
  | browse b =>
    cases named : Browse.fullName b.kind with
    | error e =>
      refine .inr ⟨e, [], fun arrivals => ?_⟩
      rw [run, Browse.run, named]
      rfl
    | ok name =>
      cases interface : interfaceIndex l b.interface with
      | error e =>
        refine .inr ⟨e, [], fun arrivals => ?_⟩
        rw [run, Browse.run, named, interface]
        rfl
      | ok index =>
        cases written : Query.encode name RecordType.ptr false with
        | error e =>
          refine .inr ⟨.invalidKind b.kind e, [], fun arrivals => ?_⟩
          rw [run, Browse.run, named, interface]
          dsimp only
          rw [written]
          rfl
        | ok packet => exact .inl ⟨name, [packet], .browse named interface written⟩

/-- The command finds what it asks for: any response will do for a lookup, and browsing takes one
with a record that belongs to the name. -/
def Succeeds : Command → String → List Datagram → Prop
  | .lookup _, _, arrivals => ∃ d ∈ arrivals, ∃ m, d.Brings m
  | .browse _, name, arrivals => ∃ d ∈ arrivals, ∃ m, d.Brings m ∧
      ∃ r ∈ m.answers ++ m.authority ++ m.additional, r.Belongs name

theorem counts_lookup_iff {q : Lookup} {d : Datagram} :
    (lookup q).counts name d = true ↔ ∃ m, d.Brings m := by
  simp only [counts, Option.isSome_iff_exists, brought?_eq_some_iff]

theorem counts_browse_iff {b : Browse} {d : Datagram} : (browse b).counts name d = true ↔
    ∃ m, d.Brings m ∧ ∃ r ∈ m.answers ++ m.authority ++ m.additional, r.Belongs name := by
  simp only [counts, Bool.not_eq_true', List.isEmpty_eq_false_iff_exists_mem,
    ← brought?_eq_some_iff, ← Browse.shows_iff]
  cases brings : brought? d with
  | none => simp [shown_of_none brings]
  | some m =>
    simp only [shown_of_some brings, List.mem_filter, Option.some.injEq, exists_eq_left', shows,
      Message.records]

theorem any_counts_iff : arrivals.any (c.counts name) = true ↔ c.Succeeds name arrivals := by
  cases c with
  | lookup q => simp only [List.any_eq_true, counts_lookup_iff, Succeeds]
  | browse b => simp only [List.any_eq_true, counts_browse_iff, Succeeds]

section Headings

def isHeading (line : String) : Bool := "Response from ".toList.isPrefixOf line.toList

theorem isHeading_append (text : String) : isHeading ("Response from " ++ text) = true := by
  rw [isHeading, String.toList_append, List.isPrefixOf_iff_prefix]
  exact List.prefix_append _ _

theorem isHeading_eq_false (front : String) {c : Char} (first : front.toList.head? = some c)
    (other : c ≠ 'R') (back : String) : isHeading (front ++ back) = false := by
  rw [isHeading, Bool.eq_false_iff, ne_eq, List.isPrefixOf_iff_prefix]
  rintro ⟨rest, whole⟩
  have start : (front ++ back).toList.head? = some c := by
    rw [String.toList_append, List.head?_append, first]
    rfl
  rw [← whole] at start
  exact other (Option.some.inj start).symm

theorem isHeading_line (r : Record) : isHeading r.line = false := by
  simp only [Record.line, String.append_assoc]
  exact isHeading_eq_false "  " (c := ' ') (by simp) (by decide) _

theorem isHeading_opening (name : String) : isHeading s!"Query sent: PTR {name}" = false :=
  isHeading_eq_false "Query sent: PTR " (c := 'Q') (by simp) (by decide) _

theorem isHeading_nothingFound (name : String) (wait : Nat) :
    isHeading (nothingFound name wait) = false := by
  change isHeading ("No responses for " ++ name ++ " within " ++ toString wait ++ " second(s)") = _
  simp only [String.append_assoc]
  exact isHeading_eq_false "No responses for " (c := 'N') (by simp) (by decide) _

theorem filter_isHeading_heard (plain : c.style = .plain) (d : Datagram) :
    (c.heard name d).filter isHeading =
      if (c.shown name d).isEmpty then [] else ["Response from " ++ d.source.text] := by
  rw [heard, plain]
  cases c.shown name d with
  | nil => rfl
  | cons r rest =>
    have others : ((r :: rest).map Record.line).filter isHeading = [] := by
      simp only [List.filter_eq_nil_iff, List.forall_mem_map, isHeading_line, Bool.false_eq_true,
        not_false_eq_true, implies_true]
    change List.filter isHeading (_ :: (r :: rest).map Record.line) = _
    rw [List.filter_cons_of_pos (isHeading_append _), others]
    rfl

theorem filter_isHeading_opening (c : Command) (name : String) :
    (c.opening name).filter isHeading = [] := by
  cases c with
  | lookup q => rfl
  | browse b =>
    rw [opening]
    split
    · exact List.filter_cons_of_neg (Bool.eq_false_iff.1 (isHeading_opening name))
    · rfl

theorem filter_isHeading_closing (c : Command) (name : String) (found : Bool) :
    (c.closing name found).filter isHeading = [] := by
  have alone (wait : Nat) : [nothingFound name wait].filter isHeading = [] :=
    List.filter_cons_of_neg (Bool.eq_false_iff.1 (isHeading_nothingFound name wait))
  cases c with
  | lookup q =>
    rw [closing]
    split
    · exact alone q.wait
    · rfl
  | browse b =>
    rw [closing]
    split
    · rfl
    · exact alone b.wait

theorem filter_isHeading_session (plain : c.style = .plain) :
    (c.session name sent arrivals).output.filter isHeading =
      (arrivals.filter fun d => !(c.shown name d).isEmpty).map
        fun d => "Response from " ++ d.source.text := by
  rw [session]
  simp only [List.filter_append, filter_isHeading_opening, filter_isHeading_closing,
    List.nil_append, List.append_nil]
  induction arrivals with
  | nil => rfl
  | cons d rest ih =>
    rw [List.flatMap_cons, List.filter_append, ih, filter_isHeading_heard plain, List.filter_cons]
    cases c.shown name d <;> rfl

end Headings

theorem session_of_silent {d : Datagram} (silent : ∀ m, ¬ d.Brings m)
    (c : Command) (name : String) (sent : List (List UInt8)) (before after : List Datagram) :
    c.session name sent (before ++ d :: after) = c.session name sent (before ++ after) := by
  have none := brought?_eq_none_iff.2 silent
  have unheard := heard_of_shown_nil (shown_of_none none c name)
  have uncounted : c.counts name d = false := by
    cases c with
    | lookup q => rw [counts, none]; rfl
    | browse b => rw [counts, shown_of_none none]; rfl
  simp only [session, List.any_append, List.any_cons, List.flatMap_append, List.flatMap_cons,
    unheard, uncounted, Bool.false_or, List.nil_append]

/-- Each datagram is heard for itself. Between the opening line and the closing one stands what each
of them alone would have printed there, in the order they came, and one that brings no response
changes nothing at all. The command says that it found something exactly if it did, and a plain
listing has one heading for each datagram of which a record is shown. -/
theorem run_hears_each_alone (asks : c.Asks l name sent) (arrivals : List Datagram) :
    (c.run l arrivals).value.output = c.opening name ++ arrivals.flatMap (c.heard name) ++
      c.closing name (arrivals.any (c.counts name)) ∧
    (∀ d, (c.run l [d]).value.output =
      c.opening name ++ c.heard name d ++ c.closing name (c.counts name d)) ∧
    (∀ before d after, arrivals = before ++ d :: after → (∀ m, ¬ d.Brings m) →
      c.heard name d = [] ∧ (c.run l arrivals).value = (c.run l (before ++ after)).value) ∧
    ((c.run l arrivals).value.outcome = .ok true ↔ c.Succeeds name arrivals) ∧
    ((c.run l arrivals).value.outcome = .ok false ↔ ¬ c.Succeeds name arrivals) ∧
    (c.style = .plain → (c.run l arrivals).value.output.filter isHeading =
      (arrivals.filter fun d => !(c.shown name d).isEmpty).map
        fun d => "Response from " ++ d.source.text) := by
  simp only [run_of_asks asks]
  refine ⟨rfl, fun d => ?_, ?_, ?_, ?_, filter_isHeading_session⟩
  · simp [session]
  · rintro before d after rfl silent
    exact ⟨heard_of_shown_nil (shown_of_none (brought?_eq_none_iff.2 silent) c name),
      session_of_silent silent c name sent before after⟩
  · rw [← any_counts_iff, session]
    simp
  · rw [← any_counts_iff, session]
    simp

section Sample

def browsing : Browse := ⟨"_http._tcp", some "lo", 2, .plain⟩

def neighbour : Endpoint := .v6 .loopback Endpoint.multicastPort 0

def noise : List Datagram := [⟨neighbour, #[0, 0, 0x84]⟩,
  ⟨neighbour, #[0, 0, 0, 0, 0, 1, 0, 0, 0, 0, 0, 0, 5, 95, 104, 116, 116, 112, 4, 95, 116, 99, 112,
    5, 108, 111, 99, 97, 108, 0, 0, 12, 0, 1]⟩,
  ⟨neighbour, #[0, 0, 0x84, 0, 0, 0, 0, 2, 0, 0, 0, 0,
    1, 97, 0, 0, 12, 0, 1, 0, 0, 0, 9, 0, 3, 1, 98, 0,
    1, 98, 0, 0, 1, 0, 1, 0, 0, 0, 9, 0, 4, 10, 0, 0, 7]⟩]

theorem address_heard_through_noise : ∃ sent,
    (browse browsing).Asks .silentLoopback "_http._tcp.local" sent ∧
    ((browse browsing).run .silentLoopback noise).value.outcome = .ok true ∧
    ((browse browsing).run .silentLoopback noise).value.output =
      ["Query sent: PTR _http._tcp.local", "Response from [::1]:5353",
        "  A b 10.0.0.7 (ttl=9)"] := by
  obtain ⟨packet, written⟩ : ∃ packet,
      Query.encode "_http._tcp.local" RecordType.ptr false = .ok packet := ⟨_, rfl⟩
  have interface : interfaceIndex .silentLoopback browsing.interface = .ok 1 := by decide +kernel
  have asks : (browse browsing).Asks .silentLoopback "_http._tcp.local" [packet] :=
    .browse (by decide +kernel) interface written
  obtain ⟨output, -, -, found, -, -⟩ := run_hears_each_alone asks noise
  refine ⟨_, asks, found.2 ?_, output.trans ?_⟩
  · rw [← any_counts_iff]
    decide +kernel
  · decide +kernel

end Sample

end Run

end Command

end Client

end MulticastDns

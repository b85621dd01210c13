import MulticastDns.Client.Printer
import MulticastDns.Proofs.Message.Extents
import MulticastDns.Proofs.Text.Controls

namespace MulticastDns

open Text

section Numerals

theorem IPv4.controls_text (a : IPv4) : controls a.text = [] :=
  controls_intercalate_eq_nil rfl (List.forall_mem_map.2 fun _ _ => controls_toString _)

theorem IPv6.controls_colons (gs : List Nat) : controls (colons gs) = [] :=
  controls_intercalate_eq_nil rfl (List.forall_mem_map.2 fun _ _ => controls_hex _)

theorem IPv6.controls_text (a : IPv6) : controls a.text = [] := by
  have dotted (bytes : List UInt8) :
      controls (".".intercalate (bytes.map fun b => toString b.toNat)) = [] :=
    controls_intercalate_eq_nil rfl (List.forall_mem_map.2 fun _ _ => controls_toString _)
  unfold text
  split
  · rw [controls_append, dotted]
    rfl
  · dsimp only
    split
    · rw [controls_append, controls_append, controls_colons, controls_colons]
      rfl
    · exact controls_colons _

theorem Endpoint.controls_text (source : Endpoint) : controls source.text = [] := by
  cases source with
  | v4 a port =>
    rw [text, controls_append, controls_append, a.controls_text, controls_toString]
    rfl
  | v6 a port scope =>
    have zone : controls (if scope = 0 then "" else "%" ++ toString scope.toNat) = [] := by
      split
      · rfl
      · rw [controls_append, controls_toString]
        rfl
    simp only [text, controls_append, a.controls_text, controls_toString, zone]
    rfl

theorem RecordType.controls_mnemonic (rtype : UInt16) : controls (mnemonic rtype) = [] := by
  unfold mnemonic
  split_ifs <;> rfl

end Numerals

section Pieces

variable {p : Packet} {start : Nat} {bytes : Array UInt8} {data : RData} {e : Extent} {r : Record}
  {pieces : List (List UInt8)}

/-- The byte strings that the sender of some data chose for what is printed of it: the labels of the
name it holds, or its strings. -/
inductive RData.Pieces (p : Packet) (start : Nat) (bytes : Array UInt8) :
    RData → List (List UInt8) → Prop
  | a {address : IPv4} : Pieces p start bytes (.a address) []
  | aaaa {address : IPv6} : Pieces p start bytes (.aaaa address) []
  | ptr {visits : List Name.Visit} {stop : Nat} : Name.Walk p start visits stop →
      Pieces p start bytes (.ptr (Name.ofLabels (Name.spelled visits)))
        ((Name.spelled visits).map utf8)
  | srv {priority weight port : UInt16} {visits : List Name.Visit} {stop : Nat} :
      Name.Walk p (start + 6) visits stop →
      Pieces p start bytes (.srv priority weight port (Name.ofLabels (Name.spelled visits)))
        ((Name.spelled visits).map utf8)
  | txt {strings : List (List UInt8)} : (∀ s ∈ strings, s.length ≤ 255) →
      bytes.toList = RData.stringBytes strings → Pieces p start bytes
        (.txt ((strings.filter (!·.isEmpty)).map fun s => ofUtf8Lossy s.toArray)) strings
  | other : Pieces p start bytes (.other bytes.toList) []

inductive Record.Pieces (p : Packet) (e : Extent) (r : Record) : List (List UInt8) → Prop
  | mk {f : Frame} {visits : List Name.Visit} {stop : Nat} {inner : List (List UInt8)} :
      Frame.read p e.start = .ok f → f.Becomes p r → Name.Walk p e.start visits stop →
      r.name = Name.ofLabels (Name.spelled visits) → RData.Pieces p f.start f.bytes r.data inner →
      Pieces p e r ((Name.spelled visits).map utf8 ++ inner)

theorem RData.exists_pieces {rtype : UInt16} (h : Found p start bytes rtype data) :
    ∃ pieces, Pieces p start bytes data pieces := by
  obtain means | ⟨rfl, -⟩ := h
  · cases means with
    | a => exact ⟨_, .a⟩
    | aaaa => exact ⟨_, .aaaa⟩
    | ptr _ named _ =>
      obtain ⟨visits, stop, walk, -, rfl, -⟩ := Name.exists_walk_of_decode named
      exact ⟨_, .ptr walk⟩
    | srv _ _ _ _ named _ =>
      obtain ⟨visits, stop, walk, -, rfl, -⟩ := Name.exists_walk_of_decode named
      exact ⟨_, .srv walk⟩
    | txt short tiles => exact ⟨_, .txt short tiles⟩
  · exact ⟨_, .other⟩

theorem Record.exists_pieces (h : r.Lies p e) : ∃ pieces, r.Pieces p e pieces := by
  obtain ⟨f, framed, becomes⟩ := exists_frame_of_lies h
  obtain ⟨visits, stop, walk, name⟩ := exists_walk_of_lies h
  obtain ⟨inner, data⟩ := RData.exists_pieces becomes.data
  exact ⟨_, .mk framed becomes walk name data⟩

theorem Name.controls_ofLabels_eq (labels : List String) :
    controls (ofLabels labels) = (labels.map utf8).flatMap controlBytes := by
  rw [controls_ofLabels, List.flatMap_map]
  exact List.flatMap_congr fun label _ => controls_eq_controlBytes label

theorem RData.flatMap_controls_strings (strings : List (List UInt8)) :
    ((strings.filter (!·.isEmpty)).map fun s => ofUtf8Lossy s.toArray).flatMap controls =
      strings.flatMap controlBytes := by
  induction strings with
  | nil => rfl
  | cons s strings ih =>
    cases s with
    | nil => exact ih
    | cons b rest =>
      rw [List.filter_cons_of_pos rfl, List.map_cons, List.flatMap_cons, ih, List.flatMap_cons,
        controls_ofUtf8Lossy, List.toList_toArray]

theorem RData.controls_text (h : Pieces p start bytes data pieces) :
    controls data.text = pieces.flatMap controlBytes := by
  cases h with
  | a => exact IPv4.controls_text _
  | aaaa => exact IPv6.controls_text _
  | ptr walk =>
    rw [text, controls_append, Name.controls_ofLabels_eq]
    rfl
  | @srv priority weight port visits stop walk =>
    change controls ("port=" ++ toString port.toNat ++ " priority=" ++ toString priority.toNat ++
      " weight=" ++ toString weight.toNat ++ " target=" ++ Name.ofLabels _) = _
    simp only [controls_append, controls_toString, Name.controls_ofLabels_eq]
    rfl
  | txt short tiles =>
    rw [text, controls_append, controls_append, controls_intercalate rfl,
      flatMap_controls_strings]
    exact List.append_nil _
  | other =>
    change controls ("<" ++ toString bytes.toList.length ++ " bytes>") = _
    rw [controls_append, controls_append, controls_toString]
    rfl

theorem Record.controls_line (h : r.Pieces p e pieces) :
    controls r.line = pieces.flatMap controlBytes := by
  obtain ⟨-, -, -, name, data⟩ := h
  change controls ("  " ++ RecordType.mnemonic r.rtype ++ " " ++ r.name ++ " " ++ r.data.text ++
    " (ttl=" ++ toString r.ttl.toNat ++ ")") = _
  simp only [controls_append, RecordType.controls_mnemonic, name, Name.controls_ofLabels_eq,
    RData.controls_text data, controls_toString, List.flatMap_append]
  have signs :
      controls "  " = [] ∧ controls " " = [] ∧ controls " (ttl=" = [] ∧ controls ")" = [] :=
    ⟨rfl, rfl, rfl, rfl⟩
  simp only [signs, List.nil_append, List.append_nil]

end Pieces

namespace Client

theorem controls_unlines (lines : List String) :
    controls (unlines lines) = lines.flatMap fun line => controls line ++ ['\n'] := by
  rw [unlines, controls_join, List.flatMap_map]
  exact List.flatMap_congr fun line _ => controls_append line "\n"

variable {packet : Packet} {m : Message}

theorem controls_of_mem_printed_json {source : Endpoint} {records : List Record} {line : String}
    (h : line ∈ printed .json source records) : controls line = [] := by
  obtain ⟨r, -, rfl⟩ := List.mem_map.1 h
  exact Json.controls_render _

theorem controls_unlines_json (source : Endpoint) (records : List Record) :
    controls (unlines (printed .json source records)) = List.replicate records.length '\n' := by
  have ends : (printed .json source records).flatMap (fun line => controls line ++ ['\n']) =
      (printed .json source records).flatMap fun _ => ['\n'] :=
    List.flatMap_congr fun line hl => by rw [controls_of_mem_printed_json hl, List.nil_append]
  rw [controls_unlines, ends, ← List.map_eq_flatMap, List.map_const', printed, List.length_map]

theorem printed_plain_eq (source : Endpoint) (records : List Record) :
    printed .plain source records =
      (if records.isEmpty then [] else ["Response from " ++ source.text]) ++
        records.map Record.line := by
  cases records <;> rfl

theorem controls_unlines_plain (source : Endpoint) (records : List Record) :
    controls (unlines (printed .plain source records)) =
      (if records.isEmpty then [] else ['\n']) ++
        records.flatMap fun r => controls r.line ++ ['\n'] := by
  have heading : controls ("Response from " ++ source.text) = [] := by
    rw [controls_append, source.controls_text]
    rfl
  rw [printed_plain_eq, controls_unlines, List.flatMap_append, List.flatMap_map]
  cases records with
  | nil => rfl
  | cons r rest =>
    change controls ("Response from " ++ source.text) ++ ['\n'] ++ [] ++ _ = _
    rw [heading]
    rfl

theorem line_feed_mem_iff {s : String} : '\n' ∈ s.toList ↔ '\n' ∈ controls s :=
  ⟨fun h => List.mem_filter.2 ⟨h, rfl⟩, fun h => (List.mem_filter.1 h).1⟩

theorem line_feed_mem_line_iff {p : Packet} {e : Extent} {r : Record} {pieces : List (List UInt8)}
    (h : r.Pieces p e pieces) : '\n' ∈ r.line.toList ↔ ∃ piece ∈ pieces, 0x0A ∈ piece := by
  have byte (piece : List UInt8) : '\n' ∈ controlBytes piece ↔ 0x0A ∈ piece :=
    mem_controlBytes_iff (b := 0x0A) (by decide)
  simp only [line_feed_mem_iff, Record.controls_line h, List.mem_flatMap, byte]

/-- The records of a message, or those of them that are chosen to be shown, are printed one by one.
As JSON each is one line, and there is no control character besides the line ends. As people read
them, there is a heading before the first, and a record's line has just the control characters that
its sender put into labels and strings, one after another; it is one line exactly if there is no
line feed among those. -/
theorem printed_controls (read : (Message.read packet).value = .ok m) {records : List Record}
    (chosen : records.Sublist m.records) (source : Endpoint) :
    (∀ line ∈ printed .json source records, controls line = []) ∧
    controls (unlines (printed .json source records)) = List.replicate records.length '\n' ∧
    (∀ r ∈ records, ∃ e pieces, r.Lies packet e ∧ r.Pieces packet e pieces ∧
      controls r.line = pieces.flatMap controlBytes ∧
      ('\n' ∈ r.line.toList ↔ ∃ piece ∈ pieces, 0x0A ∈ piece)) ∧
    printed .plain source records =
      (if records.isEmpty then [] else ["Response from " ++ source.text]) ++
        records.map Record.line ∧
    controls (unlines (printed .plain source records)) =
      (if records.isEmpty then [] else ['\n']) ++
        records.flatMap fun r => controls r.line ++ ['\n'] := by
  refine ⟨fun line => controls_of_mem_printed_json, controls_unlines_json source records,
    fun r hr => ?_, printed_plain_eq source records, controls_unlines_plain source records⟩
  obtain ⟨e, lies⟩ := Message.exists_lies_of_mem read (chosen.subset hr)
  obtain ⟨pieces, pieced⟩ := Record.exists_pieces lies
  exact ⟨e, pieces, lies, pieced, Record.controls_line pieced, line_feed_mem_line_iff pieced⟩

section Sample

def forgery : Packet := #[0, 0, 0x84, 0, 0, 0, 0, 1, 0, 0, 0, 0, 26,
  98, 32, 49, 48, 46, 48, 46, 48, 46, 54, 32, 40, 116, 116, 108, 61, 57, 41, 0x0A,
  32, 32, 65, 32, 110, 97, 115, 0,
  0, 1, 0, 1, 0, 0, 0, 9, 0, 4, 10, 0, 0, 7]

def sender : Endpoint := .v4 ⟨#v[192, 168, 1, 5]⟩ 5353

def forged : Record := ⟨"b 10.0.0.6 (ttl=9)\n  A nas", 1, 1, false, 9, .a ⟨#v[10, 0, 0, 7]⟩⟩

theorem read_forgery :
    (Message.read forgery).value = .ok ⟨⟨0, 0x8400, 0, 1, 0, 0⟩, [], [forged], [], []⟩ := by
  decide +kernel

theorem forgery_prints_two_records :
    (Message.read forgery).value = .ok ⟨⟨0, 0x8400, 0, 1, 0, 0⟩, [], [forged], [], []⟩ ∧
    '\n' ∈ forged.line.toList ∧
    unlines (printed .plain sender [forged]) =
      "Response from 192.168.1.5:5353\n  A b 10.0.0.6 (ttl=9)\n  A nas 10.0.0.7 (ttl=9)\n" := by
  refine ⟨read_forgery, ?_, ?_⟩
  · decide +kernel
  · decide +kernel

theorem forgery_printed_controls :
    controls (unlines (printed .json sender [forged])) = ['\n'] ∧
    controls (unlines (printed .plain sender [forged])) = ['\n', '\n', '\n'] := by
  obtain ⟨-, json, -, -, plain⟩ := printed_controls read_forgery (List.Sublist.refl [forged]) sender
  have line : controls forged.line = ['\n'] := by decide +kernel
  refine ⟨json, plain.trans ?_⟩
  rw [List.flatMap_cons, line]
  rfl

end Sample

end Client

end MulticastDns

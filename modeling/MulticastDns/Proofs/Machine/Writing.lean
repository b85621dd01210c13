import MulticastDns.Proofs.Machine
import MulticastDns.Proofs.Response.Agreement

namespace MulticastDns

theorem Writer.Extends.position_le {w u : Writer} (h : w.Extends u) : w.position ≤ u.position := by
  have := h.bytes_prefix.length_le
  rwa [length_bytes, length_bytes] at this

theorem Emit.position_of_reserve {w u : Writer} {start : Nat} (h : reserve w = (.ok start, u)) :
    start + 2 = u.position := by
  by_cases room : 2 ≤ w.remaining
  · obtain ⟨v, hv, -, bytes⟩ := reserve_of_fits room
    cases hv.symm.trans h
    rw [← u.length_bytes, bytes, List.length_append, w.length_bytes, length_bytesOfU16]
  · obtain ⟨v, hv, -⟩ := reserve_of_full (Nat.lt_of_not_le room)
    cases hv.symm.trans h

theorem Emit.Follows.bytes_of_ok {m : Emit Unit} {d : Draft} (follows : m.Follows d)
    {w u : Writer} (h : m w = (.ok (), u)) : ∃ bs, d = .whole bs ∧ u.bytes = w.bytes ++ bs := by
  cases d with
  | whole bs =>
    by_cases room : bs.length ≤ w.remaining
    · obtain ⟨v, hv, -, bytes⟩ := follows.1 w room
      cases hv.symm.trans h
      exact ⟨bs, rfl, bytes⟩
    · obtain ⟨v, hv, -⟩ := follows.2 w (Nat.lt_of_not_le room)
      cases hv.symm.trans h
  | broken n e =>
    obtain ⟨v, hv, -⟩ := follows w
    cases hv.symm.trans h

theorem Response.header_written {m : Emit Unit} {rest : Draft}
    (follows : m.Follows ((Draft.whole (headerBytes 0)).andThen rest)) {w u : Writer}
    (h : m w = (.ok (), u)) : Header.size ≤ u.position := by
  obtain ⟨bs, draft, bytes⟩ := follows.bytes_of_ok h
  cases rest with
  | whole more =>
    cases draft
    have header : (headerBytes 0).length = Header.size := rfl
    rw [← u.length_bytes, bytes, List.length_append, List.length_append, header]
    omega
  | broken n e => cases draft

namespace Emission

def bytes (bs : List UInt8) : Emission Unit := do
  let w ← get
  let room ← Machine.sub w.buffer.size w.position
  if room < bs.length then throw .bufferFull
  else
    Machine.require (w.position + bs.length ≤ w.buffer.size) .outOfRange
    set (Emit.bytes bs w).2

def u8 (n : UInt8) : Emission Unit := bytes [n]

def u16 (n : UInt16) : Emission Unit := bytes (bytesOfU16 n)

def u32 (n : UInt32) : Emission Unit := bytes (bytesOfU32 n)

def position : Emission Nat := do return (← get).position

def reserve : Emission Nat := do
  let start ← position
  u16 0
  return start

def patch (start : Nat) (n : UInt16) : Emission Unit := do
  let w ← get
  set (← Machine.patch w start n)

section Steps

variable {w : Writer}

theorem runs_bytes (bs : List UInt8) (w : Writer) : Runs (bytes bs) (Emit.bytes bs) w := by
  have room : Machine.sub w.buffer.size w.position = .ok w.remaining :=
    Machine.sub_eq w.position_le
  refine .get (.lift room ?_)
  split
  · rename_i full
    exact .throw (dif_neg (Nat.not_le.2 full))
  · rename_i fits
    have inside : w.position + bs.length ≤ w.buffer.size := by
      have := w.position_le
      rw [Writer.remaining] at fits
      omega
    refine .lift (Machine.require_eq inside _) (.set ?_)
    rw [Emit.bytes, dif_pos (Nat.le_of_not_lt fits)]

theorem runs_position (w : Writer) : Runs position Emit.position w := rfl

theorem runs_patch {start : Nat} (h : start + 2 ≤ w.position) (n : UInt16) :
    Runs (patch start n) (Emit.patch start n) w :=
  .get (.lift (Machine.patch_eq h n) (.set rfl))

theorem runs_reserve (w : Writer) : Runs reserve Emit.reserve w :=
  .bind (runs_position w) fun start w _ => .andThen (runs_bytes _) (.pure start) w

end Steps

section Names

def labels : List String → Emission Unit
  | [] => u8 0
  | label :: rest => do
    u8 (← Machine.toU8 label.utf8ByteSize)
    bytes (Text.utf8 label)
    labels rest

def name (text : String) : Emission Unit :=
  match Name.labels text with
  | .error e => throw e
  | .ok found => labels found

theorem runs_labels {found : List String} (good : ∀ label ∈ found, Name.isLabel label = true)
    (w : Writer) : Runs (labels found) (Name.emitLabels found) w := by
  induction found generalizing w with
  | nil => exact runs_bytes _ w
  | cons label rest ih =>
    have short := (Name.isLabel_iff.1 (good label List.mem_cons_self)).2
    have most : Name.maxLabelLength = 63 := rfl
    refine .lift (Machine.toU8_eq (by omega)) ?_
    exact .andThen (runs_bytes _) (.andThen (runs_bytes _)
      (ih fun l hl => good l (List.mem_cons_of_mem _ hl))) w

theorem runs_name (text : String) (w : Writer) : Runs (name text) (Name.emit text) w := by
  unfold name Name.emit
  cases found : Name.labels text with
  | error e => exact .throw rfl
  | ok labels => exact runs_labels (Name.labels_eq_ok found).1 w

end Names

section Records

def question (q : Question) : Emission Unit := do
  u16 0
  u16 Response.flags
  u16 1
  u16 0
  u16 0
  u16 0
  name q.name
  u16 q.qtype
  u16 q.qclass

def address : Address → Emission Unit
  | .v4 a => do
    u16 4
    bytes a.octets.toList
  | .v6 a => do
    u16 16
    bytes a.octets.toList

def found (q : Question) (a : Address) (rclass : UInt16) (ttl : UInt32) : Emission Unit := do
  question q
  u16 Response.questionPointer
  u16 (Response.addressType a)
  u16 rclass
  u32 ttl
  address a

def host (q : Question) (a : Address) (rclass : UInt16) (ttl : UInt32) :
    Emission Response.Outcome := do
  found q a rclass ttl
  patch Response.answersOffset 1
  return .complete (← position) 1

def record (owner : String) (rtype rclass : UInt16) (ttl : UInt32) (data : Emission Unit) :
    Emission Unit := do
  name owner
  u16 rtype
  u16 rclass
  u32 ttl
  let lengthAt ← reserve
  let start ← position
  data
  let length ← Machine.sub (← position) start
  if length ≤ 0xFFFF then patch lengthAt (← Machine.toU16 length) else throw .bufferFull

def strings : List String → Emission Unit
  | [] => pure ()
  | s :: rest => do
    if s.utf8ByteSize ≤ 0xFF then
      u8 (← Machine.toU8 s.utf8ByteSize)
      bytes (Text.utf8 s)
      strings rest
    else throw (.txtTooLong s.utf8ByteSize)

def txt (entries : List String) : Emission Unit :=
  if entries.isEmpty then u8 0 else strings entries

def srv (s : Service) : Emission Unit := do
  u16 s.priority
  u16 s.weight
  u16 s.port
  name s.target

def service (rclass : UInt16) (s : Service) : Emission Unit := do
  record s.key RecordType.srv rclass s.effectiveTtl (srv s)
  record s.key RecordType.txt rclass s.effectiveTtl (txt s.txt)

variable {w : Writer}

theorem runs_question (q : Question) (w : Writer) :
    Runs (question q) (Response.emitQuestion q) w :=
  .andThen (runs_bytes _) (.andThen (runs_bytes _) (.andThen (runs_bytes _)
    (.andThen (runs_bytes _) (.andThen (runs_bytes _) (.andThen (runs_bytes _)
      (.andThen (runs_name _) (.andThen (runs_bytes _) (runs_bytes _)))))))) w

theorem runs_address (a : Address) (w : Writer) :
    Runs (address a) (Response.emitAddress a) w := by
  cases a with
  | v4 a => exact .andThen (runs_bytes _) (runs_bytes _) w
  | v6 a => exact .andThen (runs_bytes _) (runs_bytes _) w

theorem runs_host (q : Question) (a : Address) (rclass : UInt16) (ttl : UInt32) (w : Writer) :
    Runs (host q a rclass ttl) (Response.emitHost q a rclass ttl) w := by
  have runs : Runs (found q a rclass ttl) (Response.emitFound q a rclass ttl) w :=
    .andThen (runs_question _) (.andThen (runs_bytes _) (.andThen (runs_bytes _)
      (.andThen (runs_bytes _) (.andThen (runs_bytes _) (runs_address _))))) w
  rw [Response.emitHost_eq]
  refine .bind runs fun _ u written => ?_
  have header := Response.header_written (Response.follows_emitFound q a rclass ttl) written
  have inside : Response.answersOffset + 2 ≤ u.position := Nat.le_trans (by decide) header
  refine .bind (runs_patch inside 1) fun _ _ _ => ?_
  exact .bind (runs_position _) fun _ _ _ => .pure _ _

theorem runs_strings (entries : List String) (w : Writer) :
    Runs (strings entries) (Response.emitStrings entries) w := by
  induction entries generalizing w with
  | nil => exact .pure _ _
  | cons s rest ih =>
    unfold strings Response.emitStrings
    split
    · rename_i short
      exact .lift (Machine.toU8_eq short)
        (.andThen (runs_bytes _) (.andThen (runs_bytes _) ih) w)
    · exact .throw rfl

theorem runs_txt (entries : List String) (w : Writer) :
    Runs (txt entries) (Response.emitTxt entries) w := by
  unfold txt Response.emitTxt
  split
  · exact runs_bytes _ _
  · exact runs_strings _ _

theorem runs_srv (s : Service) (w : Writer) : Runs (srv s) (Response.emitSrv s) w :=
  .andThen (runs_bytes _) (.andThen (runs_bytes _) (.andThen (runs_bytes _) (runs_name _))) w

theorem runs_record {data : Emission Unit} {m : Emit Unit} (runs : ∀ w, Runs data m w)
    (grows : ∀ w : Writer, w.Extends (m w).2) (owner : String) (rtype rclass : UInt16)
    (ttl : UInt32) (w : Writer) :
    Runs (record owner rtype rclass ttl data) (Response.emitRecord owner rtype rclass ttl m) w := by
  refine .andThen (runs_name _) (.andThen (runs_bytes _) (.andThen (runs_bytes _)
    (.andThen (runs_bytes _) fun v => ?_))) w
  refine .bind (runs_reserve v) fun lengthAt u reserved => ?_
  have behind : lengthAt + 2 = u.position := Emit.position_of_reserve reserved
  refine .bind (runs_position u) ?_
  rintro start _ ⟨⟩
  refine .bind (runs _) fun _ t written => ?_
  have grown : u.position ≤ t.position := by
    have := (grows u).position_le
    rwa [written] at this
  refine .bind (runs_position t) ?_
  rintro stop _ ⟨⟩
  refine .lift (Machine.sub_eq grown) ?_
  dsimp only
  by_cases short : t.position - u.position ≤ 0xFFFF
  · have inside : lengthAt + 2 ≤ t.position := behind ▸ grown
    rw [if_pos short, if_pos short]
    exact .lift (Machine.toU16_eq short) (runs_patch inside _)
  · rw [if_neg short, if_neg short]
    exact .throw rfl

theorem runs_service (rclass : UInt16) (s : Service) (w : Writer) :
    Runs (service rclass s) (Response.emitService rclass s) w :=
  .andThen (runs_record (runs_srv s) (Response.follows_emitSrv s).extends _ _ _ _)
    (runs_record (runs_txt s.txt) (Response.follows_emitTxt s.txt).extends _ _ _ _) w

end Records

end Emission

namespace Machine

open Response (Outcome Progress)

def count (answers more : UInt16) : Machine UInt16 :=
  if answers.toNat + more.toNat ≤ 0xFFFF then .ok (answers + more) else .error .lostValue

def writeServices (rclass : UInt16) : List Service → UInt16 → Writer → Machine Progress
  | [], answers, w => return ⟨answers, false, w⟩
  | s :: rest, answers, w => do
    match ← (Emission.service rclass s).run.run w with
    | (.ok _, u) => writeServices rclass rest (← count answers 2) u
    | (.error .bufferFull, u) => return ⟨answers, true, u.truncate w.position⟩
    | (.error _, u) => writeServices rclass rest answers (u.truncate w.position)

def finish (r : Progress) : Machine (Except WireError Outcome × Array UInt8) :=
  if r.answers = 0 then
    return (if r.full then .error .bufferFull else .ok .noAnswers, r.writer.buffer)
  else do
    let length := r.writer.position
    let w ← patch r.writer Response.answersOffset r.answers
    return (.ok (if r.full then .truncated length r.answers else .complete length r.answers),
      w.buffer)

def ofServices (q : Question) (services : List Service) (cacheFlush : Bool)
    (buffer : Array UInt8) : Machine (Except WireError Outcome × Array UInt8) :=
  if services.isEmpty then return (.ok .noAnswers, buffer)
  else do
    match ← (Emission.question q).run.run (.ofBuffer buffer) with
    | (.error e, w) => return (.error e, w.buffer)
    | (.ok _, w) => finish (← writeServices (RecordClass.internetWith cacheFlush) services 0 w)

def ofHost (q : Question) (h : Host) (cacheFlush : Bool) (buffer : Array UInt8) :
    Machine (Except WireError Outcome × Array UInt8) :=
  match Response.address? q h with
  | none => return (.ok .noAnswers, buffer)
  | some address => do
    let (outcome, w) ←
      (Emission.host q address (RecordClass.internetWith cacheFlush) h.ttl).run.run
        (.ofBuffer buffer)
    return (outcome, w.buffer)

theorem count_eq {answers more : UInt16} (few : answers.toNat + more.toNat ≤ 0xFFFF) :
    count answers more = .ok (answers + more) := if_pos few

theorem count_of_many {answers more : UInt16} (many : ¬answers.toNat + more.toNat ≤ 0xFFFF) :
    count answers more = .error .lostValue := if_neg many

theorem writeServices_eq (rclass : UInt16) (services : List Service) (answers : UInt16)
    (w : Writer) :
    writeServices rclass services answers w =
      if answers.toNat + 2 * (Response.fill w.remaining services).1.length ≤ 0xFFFF then
        .ok (Response.writeServices rclass services answers w).value
      else .error .lostValue := by
  have counted := Nat.le_of_lt_succ answers.toNat_lt
  induction services generalizing answers w with
  | nil => exact (if_pos counted).symm
  | cons s rest ih =>
    rw [writeServices, Emission.runs_service]
    by_cases good : s.Encodable
    · by_cases fits : Response.pairLength s ≤ w.remaining
      · obtain ⟨u, hu, cu, bu⟩ := Response.emitService_of_fits rclass good fits
        have left := Emit.remaining_of_append cu bu
        rw [Response.length_serviceBytes] at left
        have two : (2 : UInt16).toNat = 2 := rfl
        rw [Response.fill_of_fits good fits, List.length_cons, Response.writeServices_of_ok hu, hu]
        change count answers 2 >>= _ = _
        by_cases more : answers.toNat + 2 ≤ 0xFFFF
        · have next : (answers + 2).toNat = answers.toNat + 2 := by
            rw [UInt16.toNat_add, two, Nat.mod_eq_of_lt (by omega)]
          rw [count_eq more]
          change writeServices rclass rest (answers + 2) u = _
          rw [ih (answers + 2) u (by omega), left, next, Nat.mul_succ, Nat.add_assoc,
            Nat.add_comm 2]
        · rw [count_of_many more, if_neg (by omega)]
          rfl
      · obtain ⟨u, hu, -⟩ := Response.emitService_of_full rclass good (Nat.lt_of_not_le fits)
        rw [Response.fill_of_full good (Nat.lt_of_not_le fits),
          Response.writeServices_of_bufferFull hu, hu]
        exact (if_pos counted).symm
    · by_cases skipped : Response.Skipped w.remaining s
      · obtain ⟨e, u, hu, notFull, xu⟩ := Response.emitService_of_skipped rclass good skipped
        have back : (u.truncate w.position).remaining = w.remaining := by
          obtain ⟨capacity, bytes⟩ := xu.truncate
          rw [Writer.remaining_eq, Writer.remaining_eq, capacity, bytes]
        rw [Response.fill_of_skipped good skipped, Response.writeServices_of_fault hu notFull,
          Logged.value_bind, ← back, ← ih answers (u.truncate w.position) counted, hu]
        cases e <;> first | rfl | exact absurd rfl notFull
      · obtain ⟨u, hu, -⟩ := Response.emitService_of_not_skipped rclass good skipped
        rw [Response.fill_of_not_skipped good skipped, Response.writeServices_of_bufferFull hu, hu]
        exact (if_pos counted).symm

theorem finish_eq {r : Progress} (header : Header.size ≤ r.writer.position) :
    finish r = .ok r.finish := by
  unfold finish Progress.finish
  split
  · rfl
  · have inside : Response.answersOffset + 2 ≤ r.writer.position := Nat.le_trans (by decide) header
    rw [patch_eq inside]
    rfl

theorem ofServices_eq_ite (q : Question) (services : List Service) (cacheFlush : Bool)
    (buffer : Array UInt8) :
    ofServices q services cacheFlush buffer =
      if (Response.kept q services buffer).length ≤ 0x7FFF then
        .ok (Response.ofServices q services cacheFlush buffer).value
      else .error .lostValue := by
  by_cases empty : services = []
  · subst empty
    rw [List.eq_nil_of_sublist_nil (Response.kept_sublist q [] buffer)]
    rfl
  have nonempty : ¬services.isEmpty = true := by simpa using empty
  rw [ofServices, Response.ofServices, if_neg nonempty, if_neg nonempty, Emission.runs_question]
  by_cases fits : Name.Encodable q.name ∧ Response.frameLength q ≤ buffer.size
  · obtain ⟨w, written, -, -, left⟩ := Response.emitQuestion_of_fits fits.1 fits.2
    rw [Response.kept_of_fits fits.1 fits.2, written]
    change writeServices _ services 0 w >>= _ = _
    rw [writeServices_eq, left, UInt16.toNat_zero, Nat.zero_add]
    by_cases few : (Response.fill (buffer.size - Response.frameLength q) services).1.length ≤ 0x7FFF
    · have header := Response.header_written (Response.follows_emitQuestion q) written
      have grown := (Response.extends_writeServices (RecordClass.internetWith cacheFlush)
        services 0 w).position_le
      rw [if_pos (by omega), if_pos few]
      exact finish_eq (Nat.le_trans header grown)
    · rw [if_neg (by omega), if_neg few]
      rfl
  · obtain ⟨e, w, refused⟩ := Response.emitQuestion_of_not_fits fits
    rw [Response.kept_of_not_fits fits, refused]
    rfl

theorem ofServices_eq (q : Question) {services : List Service} (few : services.length ≤ 0x7FFF)
    (cacheFlush : Bool) (buffer : Array UInt8) :
    ofServices q services cacheFlush buffer =
      .ok (Response.ofServices q services cacheFlush buffer).value := by
  rw [ofServices_eq_ite]
  exact if_pos (Nat.le_trans (Response.kept_sublist q services buffer).length_le few)

theorem ofHost_eq (q : Question) (h : Host) (cacheFlush : Bool) (buffer : Array UInt8) :
    ofHost q h cacheFlush buffer = .ok (Response.ofHost q h cacheFlush buffer) := by
  unfold ofHost Response.ofHost
  cases Response.address? q h with
  | none => rfl
  | some address =>
    dsimp only
    rw [Emission.runs_host]
    rfl

end Machine

end MulticastDns

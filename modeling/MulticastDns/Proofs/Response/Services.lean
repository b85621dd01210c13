import MulticastDns.Proofs.Response.Filling

namespace MulticastDns.Response

def packet? (built : Except WireError Outcome × Array UInt8) : Option Packet :=
  match built.1 with
  | .ok outcome => outcome.length?.map (built.2.extract 0 ·)
  | .error _ => none

theorem extract_of_packet? {built : Except WireError Outcome × Array UInt8} {outcome : Outcome}
    {length : Nat} {packet : Packet} (h : packet? built = some packet)
    (k : built.1 = .ok outcome) (hlength : outcome.length? = some length) :
    built.2.extract 0 length = packet := by
  simpa [packet?, k, hlength] using h

def frameLength (q : Question) : Nat := (Name.bytes q.name).length + 16

@[simp] theorem length_frameBytes (q : Question) (answers : UInt16) :
    (frameBytes q answers).length = frameLength q := by
  simp only [frameBytes, headerBytes, questionBytes, frameLength, List.length_append,
    length_bytesOfU16]
  omega

@[simp] theorem length_flatMap_serviceBytes (rclass : UInt16) (services : List Service) :
    (services.flatMap (serviceBytes rclass)).length = pairsLength services := by
  induction services with
  | nil => rfl
  | cons s rest ih => simp [pairsLength, ih]

def responseBytes (q : Question) (rclass : UInt16) (kept : List Service) : List UInt8 :=
  frameBytes q (.ofNat (2 * kept.length)) ++ kept.flatMap (serviceBytes rclass)

def verdict (q : Question) (kept : List Service) (full : Bool) : Except WireError Outcome :=
  let length := frameLength q + pairsLength kept
  let answers := .ofNat (2 * kept.length)
  if kept = [] then if full then .error .bufferFull else .ok .noAnswers
  else .ok (if full then .truncated length answers else .complete length answers)

theorem verdict_eq_ok {q : Question} {kept : List Service} {full : Bool} {outcome : Outcome}
    {length : Nat} (h : verdict q kept full = .ok outcome) (k : outcome.length? = some length) :
    kept ≠ [] ∧ length = frameLength q + pairsLength kept ∧
      outcome.answers = .ofNat (2 * kept.length) := by
  unfold verdict at h
  split at h
  · cases full
    · cases h
      cases k
    · cases h
  · rename_i nonempty
    cases full <;> cases h <;> cases k <;> exact ⟨nonempty, rfl, rfl⟩

/-- The services of a response whose records are written when it ends. -/
def kept (q : Question) (services : List Service) (buffer : Array UInt8) : List Service :=
  if Name.Encodable q.name ∧ frameLength q ≤ buffer.size then
    (fill (buffer.size - frameLength q) services).1
  else []

theorem kept_of_fits {q : Question} {buffer : Array UInt8} (h : Name.Encodable q.name)
    (room : frameLength q ≤ buffer.size) (services : List Service) :
    kept q services buffer = (fill (buffer.size - frameLength q) services).1 := if_pos ⟨h, room⟩

theorem kept_of_not_fits {q : Question} {buffer : Array UInt8}
    (h : ¬(Name.Encodable q.name ∧ frameLength q ≤ buffer.size)) (services : List Service) :
    kept q services buffer = [] := if_neg h

theorem kept_sublist (q : Question) (services : List Service) (buffer : Array UInt8) :
    (kept q services buffer).Sublist services := by
  unfold kept
  split
  · exact fill_sublist _ _
  · exact List.nil_sublist _

section Build

variable {q : Question} {services : List Service} {buffer : Array UInt8}

theorem follows_emitQuestion_of_encodable (h : Name.Encodable q.name) :
    (emitQuestion q).Follows (.whole (frameBytes q 0)) := by
  have := follows_emitQuestion q
  rwa [Name.draft_of_encodable h, Draft.whole_andThen_whole, Draft.whole_andThen_whole] at this

theorem frameBytes_eq (q : Question) (answers : UInt16) :
    frameBytes q answers = (bytesOfU16 0 ++ (bytesOfU16 flags ++ bytesOfU16 1)) ++
      bytesOfU16 answers ++ (bytesOfU16 0 ++ bytesOfU16 0 ++ questionBytes q) := by
  simp [frameBytes, headerBytes]

theorem bytes_counted {w : Writer} {old : UInt16} {records : List UInt8} (new : UInt16)
    (h : w.bytes = frameBytes q old ++ records) :
    (w.patch answersOffset new).bytes = frameBytes q new ++ records := by
  rw [frameBytes_eq, List.append_assoc (_ ++ bytesOfU16 old)] at h
  rw [frameBytes_eq, List.append_assoc (_ ++ bytesOfU16 new)]
  exact Writer.bytes_patch h

theorem ofServices_of_short (h : Name.Encodable q.name) (nonempty : services ≠ [])
    (cacheFlush : Bool) (short : buffer.size < frameLength q) :
    (ofServices q services cacheFlush buffer).value.1 = .error .bufferFull := by
  obtain ⟨w, hw, -⟩ := (follows_emitQuestion_of_encodable h).2 (.ofBuffer buffer)
    (by rwa [length_frameBytes])
  rw [ofServices, if_neg (by simpa using nonempty), hw]
  rfl

theorem ofServices_of_not_encodable (h : ¬Name.Encodable q.name) (nonempty : services ≠ [])
    (cacheFlush : Bool) : ∃ e, ∀ buffer,
      (ofServices q services cacheFlush buffer).value.1 =
        .error (if Header.size ≤ buffer.size then e else .bufferFull) := by
  obtain ⟨e, draft, -⟩ := Name.draft_of_not_encodable h
  have follows := follows_emitQuestion q
  rw [draft] at follows
  refine ⟨e, fun buffer => ?_⟩
  obtain ⟨w, hw, -⟩ := follows (.ofBuffer buffer)
  rw [ofServices, if_neg (by simpa using nonempty), hw]
  rfl

theorem toNat_answers {n : Nat} (few : n ≤ 0x7FFF) : (UInt16.ofNat (2 * n)).toNat = 2 * n :=
  UInt16.toNat_ofNat_of_lt' (Nat.lt_of_le_of_lt (Nat.mul_le_mul_left 2 few) (by decide))

theorem answers_eq_zero_iff {kept : List Service} (few : kept.length ≤ 0x7FFF) :
    UInt16.ofNat (2 * kept.length) = 0 ↔ kept = [] := by
  rw [← UInt16.toNat_inj, toNat_answers few, ← List.length_eq_zero_iff]
  show 2 * kept.length = 0 ↔ kept.length = 0
  omega

theorem position_of_kept {kept : List Service} {w : Writer} {answers rclass : UInt16}
    (h : w.bytes = frameBytes q answers ++ kept.flatMap (serviceBytes rclass)) :
    w.position = frameLength q + pairsLength kept := by
  rw [← w.length_bytes, h, List.length_append, length_frameBytes, length_flatMap_serviceBytes]

theorem finish_of_counted {kept : List Service} {w : Writer} {rclass : UInt16} (full : Bool)
    (counted : UInt16.ofNat (2 * kept.length) ≠ 0)
    (h : w.bytes = frameBytes q 0 ++ kept.flatMap (serviceBytes rclass)) :
    let built := Progress.finish ⟨.ofNat (2 * kept.length), full, w⟩
    let length := frameLength q + pairsLength kept
    let answers := .ofNat (2 * kept.length)
    built.1 = .ok (if full then .truncated length answers else .complete length answers) ∧
      packet? built = some (responseBytes q rclass kept).toArray ∧
      built.2.size = w.capacity := by
  have patched : (w.patch answersOffset (.ofNat (2 * kept.length))).buffer.extract 0 w.position =
      (responseBytes q rclass kept).toArray :=
    Array.toList_inj.1 (bytes_counted _ h)
  simp only [Progress.finish, if_neg counted, ← position_of_kept h]
  cases full <;> exact ⟨trivial, congrArg some patched, Writer.capacity_patch _ _ _⟩

theorem finish_eq {kept : List Service} {full : Bool} {w : Writer} {rclass : UInt16}
    (few : kept.length ≤ 0x7FFF)
    (h : w.bytes = frameBytes q 0 ++ kept.flatMap (serviceBytes rclass)) :
    let built := Progress.finish ⟨.ofNat (2 * kept.length), full, w⟩
    built.1 = verdict q kept full ∧
      packet? built = (if kept = [] then none else some (responseBytes q rclass kept).toArray) ∧
      built.2.size = w.capacity := by
  by_cases none : kept = []
  · subst none
    cases full <;> exact ⟨rfl, rfl, rfl⟩
  · rw [verdict, if_neg none, if_neg none]
    exact finish_of_counted full ((answers_eq_zero_iff few).not.2 none) h

theorem emitQuestion_of_fits (h : Name.Encodable q.name) (room : frameLength q ≤ buffer.size) :
    ∃ w, emitQuestion q (.ofBuffer buffer) = (.ok (), w) ∧ w.capacity = buffer.size ∧
      w.bytes = frameBytes q 0 ∧ w.remaining = buffer.size - frameLength q := by
  obtain ⟨w, hw, cw, bw⟩ := (follows_emitQuestion_of_encodable h).1 (.ofBuffer buffer)
    (by rwa [length_frameBytes])
  refine ⟨w, hw, cw, by rw [bw, Writer.bytes_ofBuffer, List.nil_append], ?_⟩
  rw [Emit.remaining_of_append cw bw, length_frameBytes]
  rfl

theorem emitQuestion_of_not_fits (h : ¬(Name.Encodable q.name ∧ frameLength q ≤ buffer.size)) :
    ∃ e w, emitQuestion q (.ofBuffer buffer) = (.error e, w) := by
  by_cases name : Name.Encodable q.name
  · have short : buffer.size < frameLength q := Nat.lt_of_not_le fun room => h ⟨name, room⟩
    obtain ⟨w, hw, -⟩ := (follows_emitQuestion_of_encodable name).2 (.ofBuffer buffer)
      (by rwa [length_frameBytes])
    exact ⟨_, w, hw⟩
  · obtain ⟨e, draft, -⟩ := Name.draft_of_not_encodable name
    have follows := follows_emitQuestion q
    rw [draft] at follows
    obtain ⟨w, hw, -⟩ := follows (.ofBuffer buffer)
    exact ⟨_, w, hw⟩

theorem exists_ofServices (h : Name.Encodable q.name) (nonempty : services ≠ [])
    (cacheFlush : Bool) (room : frameLength q ≤ buffer.size) :
    let written := fill (buffer.size - frameLength q) services
    ∃ w : Writer, (ofServices q services cacheFlush buffer).value =
        Progress.finish ⟨.ofNat (2 * written.1.length), written.2, w⟩ ∧
      w.capacity = buffer.size ∧ w.bytes = frameBytes q 0 ++
        written.1.flatMap (serviceBytes (RecordClass.internetWith cacheFlush)) := by
  obtain ⟨w, hw, cw, bw, left⟩ := emitQuestion_of_fits h room
  obtain ⟨v, hv, cv, bv⟩ :=
    exists_writeServices (RecordClass.internetWith cacheFlush) services 0 w
  rw [left, bw] at bv
  rw [left, UInt16.zero_add] at hv
  refine ⟨v, ?_, cv.trans cw, bv⟩
  rw [ofServices, if_neg (by simpa using nonempty), hw]
  simp only [Logged.value_bind, Logged.value_pure, hv]

theorem ofServices_eq (h : Name.Encodable q.name) (cacheFlush : Bool)
    (few : services.length ≤ 0x7FFF) (room : frameLength q ≤ buffer.size) :
    let written := fill (buffer.size - frameLength q) services
    (ofServices q services cacheFlush buffer).value.1 = verdict q written.1 written.2 ∧
    packet? (ofServices q services cacheFlush buffer).value =
      (if written.1 = [] then none
        else some (responseBytes q (RecordClass.internetWith cacheFlush) written.1).toArray) ∧
    (ofServices q services cacheFlush buffer).value.2.size = buffer.size := by
  by_cases empty : services = []
  · subst empty
    exact ⟨rfl, rfl, rfl⟩
  · obtain ⟨w, built, capacity, bytes⟩ := exists_ofServices h empty cacheFlush room
    have shorter := (fill_sublist (buffer.size - frameLength q) services).length_le
    obtain ⟨outcome, packet, size⟩ := finish_eq (Nat.le_trans shorter few) bytes
    rw [built]
    exact ⟨outcome, packet, size.trans capacity⟩

end Build

end MulticastDns.Response

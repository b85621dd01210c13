import MulticastDns.Proofs.Draft
import MulticastDns.Proofs.Name.Encoding
import MulticastDns.Wire.Response

/-! The parts of a response as bytes: names, the question, records, and the two records of a
service, or how far each of them gets before a part that has no wire form. -/

namespace MulticastDns

namespace Name

def Encodable (name : String) : Prop := ∃ bytes, encode name = .ok bytes

def bytes (name : String) : List UInt8 := (encode name).toOption.getD []

def draft (name : String) : Draft :=
  match encode name with
  | .ok bytes => .whole bytes
  | .error e => .broken 0 e

instance (name : String) : Decidable (Encodable name) :=
  match h : encode name with
  | .ok bytes => isTrue ⟨bytes, h⟩
  | .error _ => isFalse fun ⟨_, k⟩ => nomatch h.symm.trans k

theorem encode_of_encodable {name : String} (h : Encodable name) :
    encode name = .ok (bytes name) := by
  obtain ⟨bytes', h⟩ := h
  simp [bytes, h, Except.toOption]

theorem draft_of_encodable {name : String} (h : Encodable name) :
    draft name = .whole (bytes name) := by
  rw [draft, encode_of_encodable h]

theorem encode_ne_bufferFull (name : String) : encode name ≠ .error .bufferFull := by
  unfold encode labels
  dsimp only
  split
  · rename_i e h
    rintro ⟨⟩
    split at h
    · cases h
    · split at h
      · cases h
      · split at h <;> cases h
  · rintro ⟨⟩

theorem draft_of_not_encodable {name : String} (h : ¬Encodable name) :
    ∃ e, draft name = .broken 0 e ∧ e ≠ .bufferFull := by
  unfold draft
  cases k : encode name with
  | ok bytes => exact absurd ⟨bytes, k⟩ h
  | error e => exact ⟨e, rfl, fun full => encode_ne_bufferFull name (full ▸ k)⟩

theorem follows_emitLabels (labels : List String) :
    (emitLabels labels).Follows (.whole (wireForm labels)) := by
  induction labels with
  | nil => exact Emit.follows_bytes [0]
  | cons label labels ih =>
    have := (Emit.follows_bytes [.ofNat label.utf8ByteSize]).bind
      ((Emit.follows_bytes (Text.utf8 label)).bind ih)
    rw [Draft.whole_andThen_whole, Draft.whole_andThen_whole] at this
    rw [wireForm_cons]
    exact this

theorem follows_emit (name : String) : (emit name).Follows (draft name) := by
  unfold emit draft encode
  cases labels name with
  | error e => exact Emit.follows_fail e
  | ok labels => exact follows_emitLabels labels

end Name

namespace Response

def headerBytes (answers : UInt16) : List UInt8 :=
  bytesOfU16 0 ++ bytesOfU16 flags ++ bytesOfU16 1 ++ bytesOfU16 answers ++ bytesOfU16 0 ++
    bytesOfU16 0

def questionBytes (q : Question) : List UInt8 :=
  Name.bytes q.name ++ (bytesOfU16 q.qtype ++ bytesOfU16 q.qclass)

def frameBytes (q : Question) (answers : UInt16) : List UInt8 :=
  headerBytes answers ++ questionBytes q

theorem follows_emitQuestion (q : Question) :
    (emitQuestion q).Follows ((Draft.whole (headerBytes 0)).andThen
      ((Name.draft q.name).andThen (.whole (bytesOfU16 q.qtype ++ bytesOfU16 q.qclass)))) := by
  have u16 (n : UInt16) : (Emit.u16 n).Follows (.whole (bytesOfU16 n)) := Emit.follows_bytes _
  have := (u16 0).bind ((u16 flags).bind ((u16 1).bind ((u16 0).bind ((u16 0).bind ((u16 0).bind
    ((Name.follows_emit q.name).bind ((u16 q.qtype).bind (u16 q.qclass))))))))
  simp only [← Draft.andThen_assoc, Draft.whole_andThen_whole, ← List.append_assoc] at this ⊢
  exact this

def recordTail (rtype rclass : UInt16) (ttl : UInt32) (data : List UInt8) : List UInt8 :=
  bytesOfU16 rtype ++ (bytesOfU16 rclass ++
    (bytesOfU32 ttl ++ (bytesOfU16 (.ofNat data.length) ++ data)))

@[simp] theorem length_recordTail (rtype rclass : UInt16) (ttl : UInt32) (data : List UInt8) :
    (recordTail rtype rclass ttl data).length = 10 + data.length := by
  simp only [recordTail, List.length_append, length_bytesOfU16, length_bytesOfU32]
  omega

def recordDraft (owner : String) (rtype rclass : UInt16) (ttl : UInt32) (data : Draft) : Draft :=
  (Name.draft owner).andThen
    ((Draft.whole (bytesOfU16 rtype ++ (bytesOfU16 rclass ++ bytesOfU32 ttl))).andThen
      data.measured)

theorem follows_emitRecord {owner : String} {rtype rclass : UInt16} {ttl : UInt32}
    {m : Emit Unit} {data : Draft} (h : m.Follows data) :
    (emitRecord owner rtype rclass ttl m).Follows (recordDraft owner rtype rclass ttl data) := by
  have := (Name.follows_emit owner).bind ((Emit.follows_bytes (bytesOfU16 rtype)).bind
    ((Emit.follows_bytes (bytesOfU16 rclass)).bind
      ((Emit.follows_bytes (bytesOfU32 ttl)).bind h.measured)))
  simp only [← Draft.andThen_assoc, Draft.whole_andThen_whole, recordDraft,
    ← List.append_assoc] at this ⊢
  exact this

def stringsLength : List String → Nat
  | [] => 0
  | s :: rest => s.utf8ByteSize + 1 + stringsLength rest

def stringsDraft : List String → Draft
  | [] => .whole []
  | s :: rest =>
    if s.utf8ByteSize ≤ 0xFF then (Draft.whole (Name.labelBytes s)).andThen (stringsDraft rest)
    else .broken 0 (.txtTooLong s.utf8ByteSize)

theorem follows_emitStrings (entries : List String) :
    (emitStrings entries).Follows (stringsDraft entries) := by
  induction entries with
  | nil => exact Emit.follows_pure
  | cons s rest ih =>
    unfold emitStrings stringsDraft
    split
    · have := (Emit.follows_bytes [.ofNat s.utf8ByteSize]).bind
        ((Emit.follows_bytes (Text.utf8 s)).bind ih)
      rw [← Draft.andThen_assoc, Draft.whole_andThen_whole] at this
      exact this
    · exact Emit.follows_fail _

theorem length_flatMap_labelBytes (entries : List String) :
    (entries.flatMap Name.labelBytes).length = stringsLength entries := by
  induction entries with
  | nil => rfl
  | cons s rest ih => simp [stringsLength, ih]

theorem stringsDraft_of_short {entries : List String}
    (h : ∀ entry ∈ entries, entry.utf8ByteSize ≤ 0xFF) :
    stringsDraft entries = .whole (entries.flatMap Name.labelBytes) := by
  induction entries with
  | nil => rfl
  | cons s rest ih =>
    rw [stringsDraft, if_pos (h s (by simp)), ih fun entry he => h entry (by simp [he])]
    rfl

theorem stringsDraft_of_long {entries : List String}
    (h : ¬∀ entry ∈ entries, entry.utf8ByteSize ≤ 0xFF) :
    ∃ e, stringsDraft entries =
      .broken (stringsLength (entries.takeWhile (·.utf8ByteSize ≤ 0xFF))) e ∧ e ≠ .bufferFull := by
  induction entries with
  | nil => exact absurd (by simp) h
  | cons s rest ih =>
    by_cases short : s.utf8ByteSize ≤ 0xFF
    · obtain ⟨e, he, notFull⟩ := ih fun rest => h (by simpa [short] using rest)
      refine ⟨e, ?_, notFull⟩
      simp [stringsDraft, short, he, stringsLength]
    · exact ⟨.txtTooLong s.utf8ByteSize, by simp [stringsDraft, short, stringsLength], by simp⟩

def txtLength (entries : List String) : Nat :=
  if entries.isEmpty then 1 else stringsLength entries

def txtBytes (entries : List String) : List UInt8 :=
  if entries.isEmpty then [0] else entries.flatMap Name.labelBytes

def txtDraft (entries : List String) : Draft :=
  if entries.isEmpty then .whole [0] else stringsDraft entries

theorem follows_emitTxt (entries : List String) :
    (emitTxt entries).Follows (txtDraft entries) := by
  unfold emitTxt txtDraft
  split
  · exact Emit.follows_bytes [0]
  · exact follows_emitStrings entries

@[simp] theorem length_txtBytes (entries : List String) :
    (txtBytes entries).length = txtLength entries := by
  unfold txtBytes txtLength
  split
  · rfl
  · exact length_flatMap_labelBytes entries

def srvBytes (s : Service) : List UInt8 :=
  bytesOfU16 s.priority ++ (bytesOfU16 s.weight ++ (bytesOfU16 s.port ++ Name.bytes s.target))

@[simp] theorem length_srvBytes (s : Service) :
    (srvBytes s).length = 6 + (Name.bytes s.target).length := by
  simp [srvBytes]
  omega

def srvDraft (s : Service) : Draft :=
  (Draft.whole (bytesOfU16 s.priority ++ (bytesOfU16 s.weight ++ bytesOfU16 s.port))).andThen
    (Name.draft s.target)

theorem follows_emitSrv (s : Service) : (emitSrv s).Follows (srvDraft s) := by
  have := (Emit.follows_bytes (bytesOfU16 s.priority)).bind
    ((Emit.follows_bytes (bytesOfU16 s.weight)).bind
      ((Emit.follows_bytes (bytesOfU16 s.port)).bind (Name.follows_emit s.target)))
  simp only [← Draft.andThen_assoc, Draft.whole_andThen_whole, srvDraft,
    ← List.append_assoc] at this ⊢
  exact this

def serviceDraft (rclass : UInt16) (s : Service) : Draft :=
  (recordDraft s.key RecordType.srv rclass s.effectiveTtl (srvDraft s)).andThen
    (recordDraft s.key RecordType.txt rclass s.effectiveTtl (txtDraft s.txt))

theorem follows_emitService (rclass : UInt16) (s : Service) :
    (emitService rclass s).Follows (serviceDraft rclass s) :=
  (follows_emitRecord (follows_emitSrv s)).bind (follows_emitRecord (follows_emitTxt s.txt))

def serviceBytes (rclass : UInt16) (s : Service) : List UInt8 :=
  (Name.bytes s.key ++ recordTail RecordType.srv rclass s.effectiveTtl (srvBytes s)) ++
    (Name.bytes s.key ++ recordTail RecordType.txt rclass s.effectiveTtl (txtBytes s.txt))

end Response

end MulticastDns

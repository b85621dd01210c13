import MulticastDns.Proofs.Response.Layout

namespace MulticastDns

/-- Every part of the service's two records has a wire form. -/
structure Service.Encodable (s : Service) : Prop where
  key : Name.Encodable s.key
  target : Name.Encodable s.target
  entries : ∀ entry ∈ s.txt, entry.utf8ByteSize ≤ 0xFF
  txt : Response.txtLength s.txt ≤ 0xFFFF

theorem Service.encodable_iff (s : Service) :
    s.Encodable ↔ Name.Encodable s.key ∧ Name.Encodable s.target ∧
      (∀ entry ∈ s.txt, entry.utf8ByteSize ≤ 0xFF) ∧ Response.txtLength s.txt ≤ 0xFFFF :=
  ⟨fun h => ⟨h.key, h.target, h.entries, h.txt⟩, fun ⟨key, target, entries, txt⟩ =>
    ⟨key, target, entries, txt⟩⟩

instance (s : Service) : Decidable s.Encodable := decidable_of_iff _ s.encodable_iff.symm

namespace Response

def pairLength (s : Service) : Nat :=
  2 * (Name.bytes s.key).length + (Name.bytes s.target).length + txtLength s.txt + 26

@[simp] theorem length_serviceBytes (rclass : UInt16) (s : Service) :
    (serviceBytes rclass s).length = pairLength s := by
  simp only [serviceBytes, pairLength, List.length_append, length_recordTail, length_srvBytes,
    length_txtBytes]
  omega

theorem recordDraft_whole {owner : String} (h : Name.Encodable owner) (rtype rclass : UInt16)
    (ttl : UInt32) {data : List UInt8} (short : data.length ≤ 0xFFFF) :
    recordDraft owner rtype rclass ttl (.whole data) =
      .whole (Name.bytes owner ++ recordTail rtype rclass ttl data) := by
  simp [recordDraft, Name.draft_of_encodable h, Draft.measured, short, recordTail]

theorem recordDraft_broken {owner : String} (h : Name.Encodable owner) (rtype rclass : UInt16)
    (ttl : UInt32) (n : Nat) (e : WireError) :
    recordDraft owner rtype rclass ttl (.broken n e) =
      .broken ((Name.bytes owner).length + 10 + n) e := by
  simp [recordDraft, Name.draft_of_encodable h, Draft.measured]
  omega

theorem srvDraft_whole {s : Service} (h : Name.Encodable s.target) :
    srvDraft s = .whole (srvBytes s) := by
  simp [srvDraft, Name.draft_of_encodable h, srvBytes]

theorem txtDraft_whole {entries : List String} (h : ∀ entry ∈ entries, entry.utf8ByteSize ≤ 0xFF) :
    txtDraft entries = .whole (txtBytes entries) := by
  unfold txtDraft txtBytes
  split
  · rfl
  · exact stringsDraft_of_short h

theorem recordDraft_srv {s : Service} (key : Name.Encodable s.key)
    (target : Name.Encodable s.target) (rclass : UInt16) :
    recordDraft s.key RecordType.srv rclass s.effectiveTtl (srvDraft s) =
      .whole (Name.bytes s.key ++
        recordTail RecordType.srv rclass s.effectiveTtl (srvBytes s)) := by
  have := (Name.length_of_encode (Name.encode_of_encodable target)).2
  have : Name.maxLength = 255 := rfl
  rw [srvDraft_whole target, recordDraft_whole key]
  rw [length_srvBytes]
  omega

theorem serviceDraft_of_encodable {s : Service} (h : s.Encodable) (rclass : UInt16) :
    serviceDraft rclass s = .whole (serviceBytes rclass s) := by
  rw [serviceDraft, recordDraft_srv h.key h.target, txtDraft_whole h.entries,
    recordDraft_whole h.key _ _ _ (by simpa using h.txt), Draft.whole_andThen_whole]
  rfl

/-- How many bytes of a service can be written before a part that has no wire form. There is no
such part if all that is wrong is that the TXT data is too long as a whole. -/
def faultOffset? (s : Service) : Option Nat :=
  let key := (Name.bytes s.key).length
  if ¬Name.Encodable s.key then some 0
  else if ¬Name.Encodable s.target then some (key + 16)
  else if ∀ entry ∈ s.txt, entry.utf8ByteSize ≤ 0xFF then none
  else some (2 * key + (Name.bytes s.target).length +
    stringsLength (s.txt.takeWhile (·.utf8ByteSize ≤ 0xFF)) + 26)

section Fault

variable {s : Service}

theorem faultOffset?_of_key (h : ¬Name.Encodable s.key) : faultOffset? s = some 0 := by
  simp [faultOffset?, h]

theorem faultOffset?_of_target (key : Name.Encodable s.key) (h : ¬Name.Encodable s.target) :
    faultOffset? s = some ((Name.bytes s.key).length + 16) := by
  simp [faultOffset?, key, h]

theorem faultOffset?_of_entry (key : Name.Encodable s.key) (target : Name.Encodable s.target)
    (h : ¬∀ entry ∈ s.txt, entry.utf8ByteSize ≤ 0xFF) :
    faultOffset? s = some (2 * (Name.bytes s.key).length + (Name.bytes s.target).length +
      stringsLength (s.txt.takeWhile (·.utf8ByteSize ≤ 0xFF)) + 26) := by
  simp only [faultOffset?, key, target, not_true, if_false]
  exact if_neg h

theorem faultOffset?_of_txt (key : Name.Encodable s.key) (target : Name.Encodable s.target)
    (h : ∀ entry ∈ s.txt, entry.utf8ByteSize ≤ 0xFF) : faultOffset? s = none := by
  simp only [faultOffset?, key, target, not_true, if_false]
  exact if_pos h

theorem serviceDraft_of_not_encodable (h : ¬s.Encodable) (rclass : UInt16) :
    ∃ n e, serviceDraft rclass s = .broken n e ∧
      ((faultOffset? s = some n ∧ e ≠ .bufferFull) ∨
        (faultOffset? s = none ∧ e = .bufferFull)) := by
  by_cases key : Name.Encodable s.key
  · by_cases target : Name.Encodable s.target
    · by_cases entries : ∀ entry ∈ s.txt, entry.utf8ByteSize ≤ 0xFF
      · -- only the length of the TXT data is left to be wrong
        have long : ¬(txtBytes s.txt).length ≤ 0xFFFF := by
          rw [length_txtBytes]
          exact fun txt => h ⟨key, target, entries, txt⟩
        obtain ⟨n, hn⟩ : ∃ n, serviceDraft rclass s = .broken n .bufferFull := by
          rw [serviceDraft, recordDraft_srv key target, txtDraft_whole entries, recordDraft,
            Name.draft_of_encodable key, Draft.measured, if_neg long]
          exact ⟨_, rfl⟩
        exact ⟨n, _, hn, .inr ⟨faultOffset?_of_txt key target entries, rfl⟩⟩
      · obtain ⟨e, he, notFull⟩ := stringsDraft_of_long entries
        have nonempty : s.txt.isEmpty = false := by
          cases htxt : s.txt with
          | nil => simp [htxt] at entries
          | cons => rfl
        refine ⟨_, e, ?_, .inl ⟨faultOffset?_of_entry key target entries, notFull⟩⟩
        rw [serviceDraft, recordDraft_srv key target, txtDraft, nonempty, if_neg (by simp), he,
          recordDraft_broken key, Draft.whole_andThen_broken]
        apply congrArg (Draft.broken · e)
        simp [recordTail]
        omega
    · obtain ⟨e, he, notFull⟩ := Name.draft_of_not_encodable target
      refine ⟨_, e, ?_, .inl ⟨faultOffset?_of_target key target, notFull⟩⟩
      rw [serviceDraft, srvDraft, he, Draft.whole_andThen_broken, recordDraft_broken key]
      rfl
  · obtain ⟨e, he, notFull⟩ := Name.draft_of_not_encodable key
    refine ⟨0, e, ?_, .inl ⟨faultOffset?_of_key key, notFull⟩⟩
    rw [serviceDraft, recordDraft, he]
    rfl

end Fault

end Response

end MulticastDns

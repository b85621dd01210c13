import MulticastDns.Proofs.Machine.Writing
import MulticastDns.Proofs.Response.RoundTrip

namespace MulticastDns

theorem Writer.holds_of_bytes {w : Writer} {before after : List UInt8}
    (h : w.bytes = before ++ after) : Packet.Holds w.buffer before.length after :=
  ⟨before, w.buffer.toList.drop w.position,
    by rw [← h, bytes_eq_take, List.take_append_drop], rfl⟩

namespace Response

theorem toNat_answers_eq_mod (n : Nat) : (UInt16.ofNat (2 * n)).toNat = 2 * n % 0x10000 :=
  UInt16.toNat_ofNat'

theorem toNat_answers_eq_iff (n : Nat) : (UInt16.ofNat (2 * n)).toNat = 2 * n ↔ n ≤ 0x7FFF := by
  rw [toNat_answers_eq_mod]
  omega

theorem dvd_of_answers_eq_zero {n : Nat} (h : UInt16.ofNat (2 * n) = 0) : 0x8000 ∣ n := by
  have zero := congrArg UInt16.toNat h
  rw [toNat_answers_eq_mod, UInt16.toNat_zero] at zero
  omega

theorem eq_nil_iff_of_dvd {all : List Service} (h : 0x8000 ∣ all.length) :
    all = [] ↔ all.length ≤ 0x7FFF := by
  rw [← List.length_eq_zero_iff]
  omega

section Finish

variable {q : Question} {all : List Service} {full : Bool} {w : Writer} {rclass : UInt16}

theorem finish_eq_ok (h : w.bytes = frameBytes q 0 ++ all.flatMap (serviceBytes rclass))
    {outcome : Outcome} {length : Nat}
    (sent : (Progress.finish ⟨.ofNat (2 * all.length), full, w⟩).1 = .ok outcome)
    (hlength : outcome.length? = some length) :
    length = frameLength q + pairsLength all ∧ outcome.answers = .ofNat (2 * all.length) ∧
      (Progress.finish ⟨.ofNat (2 * all.length), full, w⟩).2.extract 0 length =
        (responseBytes q rclass all).toArray := by
  by_cases counted : UInt16.ofNat (2 * all.length) = 0
  · -- where nothing is counted there is no packet
    rw [counted] at sent
    cases full <;> cases sent
    cases hlength
  · obtain ⟨outcome_eq, packet, -⟩ := finish_of_counted full counted h
    have same := extract_of_packet? packet sent hlength
    cases full <;> cases sent.symm.trans outcome_eq <;> cases hlength <;> exact ⟨rfl, rfl, same⟩

theorem finish_eq_noAnswers (h : w.bytes = frameBytes q 0 ++ all.flatMap (serviceBytes rclass))
    (silent : (Progress.finish ⟨.ofNat (2 * all.length), full, w⟩).1 = .ok .noAnswers) :
    0x8000 ∣ all.length ∧ Packet.Holds (Progress.finish ⟨.ofNat (2 * all.length), full, w⟩).2
      (frameLength q) (all.flatMap (serviceBytes rclass)) := by
  by_cases counted : UInt16.ofNat (2 * all.length) = 0
  · refine ⟨dvd_of_answers_eq_zero counted, ?_⟩
    rw [counted, ← length_frameBytes q 0]
    exact Writer.holds_of_bytes h
  · obtain ⟨outcome_eq, -⟩ := finish_of_counted full counted h
    cases full <;> cases silent.symm.trans outcome_eq

end Finish

section Count

variable {q : Question} {services : List Service} {cacheFlush : Bool} {buffer : Array UInt8}

theorem encodable_of_mem_kept {s : Service} (h : s ∈ kept q services buffer) : s.Encodable := by
  unfold kept at h
  split at h
  · exact encodable_of_mem_fill h
  · cases h

theorem ofServices_of_not_fits (nonempty : services ≠ [])
    (h : ¬(Name.Encodable q.name ∧ frameLength q ≤ buffer.size)) (cacheFlush : Bool) :
    ∃ e, (ofServices q services cacheFlush buffer).value.1 = .error e := by
  obtain ⟨e, w, refused⟩ := emitQuestion_of_not_fits h
  rw [ofServices, if_neg (by simpa using nonempty), refused]
  exact ⟨e, rfl⟩

theorem ofServices_eq_ok {outcome : Outcome} {length : Nat}
    (sent : (ofServices q services cacheFlush buffer).value.1 = .ok outcome)
    (hlength : outcome.length? = some length) :
    length = frameLength q + pairsLength (kept q services buffer) ∧
      outcome.answers = .ofNat (2 * (kept q services buffer).length) ∧
      (ofServices q services cacheFlush buffer).value.2.extract 0 length = (responseBytes q
        (RecordClass.internetWith cacheFlush) (kept q services buffer)).toArray := by
  by_cases empty : services = []
  · subst empty
    cases sent
    cases hlength
  · by_cases fits : Name.Encodable q.name ∧ frameLength q ≤ buffer.size
    · obtain ⟨w, built, -, bytes⟩ := exists_ofServices fits.1 empty cacheFlush fits.2
      rw [kept_of_fits fits.1 fits.2]
      rw [built] at sent ⊢
      exact finish_eq_ok bytes sent hlength
    · obtain ⟨e, refused⟩ := ofServices_of_not_fits empty fits cacheFlush
      cases sent.symm.trans refused

theorem ofServices_eq_noAnswers
    (silent : (ofServices q services cacheFlush buffer).value.1 = .ok .noAnswers) :
    0x8000 ∣ (kept q services buffer).length ∧ Record.Sequence
      (ofServices q services cacheFlush buffer).value.2 (frameLength q)
      ((kept q services buffer).flatMap (·.records cacheFlush))
      (frameLength q + pairsLength (kept q services buffer)) := by
  by_cases empty : services = []
  · subst empty
    rw [List.eq_nil_of_sublist_nil (kept_sublist q [] buffer)]
    exact ⟨Nat.dvd_zero _, .nil⟩
  · by_cases fits : Name.Encodable q.name ∧ frameLength q ≤ buffer.size
    · obtain ⟨w, built, -, bytes⟩ := exists_ofServices fits.1 empty cacheFlush fits.2
      have good (s : Service) (hs : s ∈ (fill (buffer.size - frameLength q) services).1) :=
        encodable_of_mem_fill hs
      rw [kept_of_fits fits.1 fits.2]
      rw [built] at silent ⊢
      obtain ⟨uncounted, holds⟩ := finish_eq_noAnswers bytes silent
      exact ⟨uncounted, sequence_services good holds⟩
    · obtain ⟨e, refused⟩ := ofServices_of_not_fits empty fits cacheFlush
      cases silent.symm.trans refused

end Count

/-- The count of a response, in its outcome and in its header, is that of the records behind the
question, cut to two bytes. It is their number exactly if at most 32767 services are kept. Exactly
then, too, nothing is kept where nothing is said to be answered, and the count breaks on no
machine. -/
theorem ofServices_counts (q : Question) (services : List Service) (cacheFlush : Bool)
    (buffer : Array UInt8) :
    let built := (ofServices q services cacheFlush buffer).value
    let kept := kept q services buffer
    let records := kept.flatMap (·.records cacheFlush)
    records.length = 2 * kept.length ∧
    (∀ outcome length, built.1 = .ok outcome → outcome.length? = some length →
      Header.read (built.2.extract 0 length) = .ok ⟨0, flags, 1, outcome.answers, 0, 0⟩ ∧
      Record.Sequence (built.2.extract 0 length) (frameLength q) records length ∧
      outcome.answers.toNat = records.length % 0x10000 ∧
      (outcome.answers.toNat = records.length ↔ kept.length ≤ 0x7FFF)) ∧
    (built.1 = .ok .noAnswers →
      Record.Sequence built.2 (frameLength q) records (frameLength q + pairsLength kept) ∧
      (kept = [] ↔ kept.length ≤ 0x7FFF)) ∧
    Machine.ofServices q services cacheFlush buffer =
      if kept.length ≤ 0x7FFF then .ok built else .error .lostValue := by
  intro built kept records
  have number : records.length = 2 * kept.length := length_flatMap_records cacheFlush kept
  refine ⟨number, fun outcome length sent hlength => ?_, fun silent => ?_,
    Machine.ofServices_eq_ite q services cacheFlush buffer⟩
  · obtain ⟨rfl, answers, packet⟩ := ofServices_eq_ok sent hlength
    obtain ⟨frame, behind⟩ := Packet.holds_append.1 (Packet.holds_toArray
      (responseBytes q (RecordClass.internetWith cacheFlush) kept))
    rw [Nat.zero_add, length_frameBytes] at behind
    rw [packet, answers, number]
    exact ⟨header_of_holds (Packet.holds_append.1 frame).1,
      sequence_services (fun s hs => encodable_of_mem_kept hs) behind,
      toNat_answers_eq_mod _, toNat_answers_eq_iff _⟩
  · obtain ⟨uncounted, sequence⟩ := ofServices_eq_noAnswers silent
    exact ⟨sequence, eq_nil_iff_of_dvd uncounted⟩

theorem fill_of_pairs_fit {services : List Service} (good : ∀ s ∈ services, s.Encodable)
    {room : Nat} (fits : pairsLength services ≤ room) : fill room services = (services, false) := by
  obtain ⟨k, within, filled, greatest⟩ := fill_of_encodable good room
  have all : services.length ≤ k :=
    (greatest services.length (Nat.le_refl _)).1 (by rwa [List.take_length])
  rw [filled, List.take_of_length_le all, decide_eq_false (Nat.not_lt.2 all)]

theorem pairsLength_replicate (n : Nat) (s : Service) :
    pairsLength (List.replicate n s) = n * pairLength s := by
  induction n with
  | zero => rw [Nat.zero_mul]; rfl
  | succ n ih => rw [List.replicate_succ, pairsLength, ih, Nat.succ_mul, Nat.add_comm]

section Samples

def rollCall : Question := ⟨".", RecordType.srv, RecordClass.internet⟩

def guest : Service := ⟨"a", "b", "local", 0, 0, 0, "", [], 120⟩

theorem encodable_of_mem_guests {n : Nat} : ∀ s ∈ List.replicate n guest, s.Encodable := by
  have good : guest.Encodable := by decide +kernel
  exact fun s hs => List.eq_of_mem_replicate hs ▸ good

theorem frameLength_rollCall : frameLength rollCall = 17 := by decide +kernel

theorem pairLength_guest : pairLength guest = 50 := by decide +kernel

theorem fill_guests {n size : Nat} (h : size = 17 + 50 * n) :
    fill (size - frameLength rollCall) (List.replicate n guest) =
      (List.replicate n guest, false) := by
  refine fill_of_pairs_fit encodable_of_mem_guests ?_
  rw [pairsLength_replicate, pairLength_guest, frameLength_rollCall]
  omega

section Guests

variable {n : Nat} {buffer : Array UInt8}

theorem frameLength_le_of_guests (h : buffer.size = 17 + 50 * n) :
    frameLength rollCall ≤ buffer.size := by
  rw [frameLength_rollCall, h]
  exact Nat.le_add_right _ _

theorem kept_guests (h : buffer.size = 17 + 50 * n) :
    kept rollCall (List.replicate n guest) buffer = List.replicate n guest := by
  rw [kept_of_fits (by decide +kernel) (frameLength_le_of_guests h), fill_guests h]

theorem ofServices_guests (some : n ≠ 0) (h : buffer.size = 17 + 50 * n) :
    ∃ w : Writer, (ofServices rollCall (List.replicate n guest) true buffer).value =
        Progress.finish ⟨.ofNat (2 * n), false, w⟩ ∧ w.position = 17 + 50 * n := by
  have nonempty : List.replicate n guest ≠ [] := by simpa using some
  have room := frameLength_le_of_guests h
  obtain ⟨w, built, -, bytes⟩ := exists_ofServices (by decide +kernel) nonempty true room
  rw [fill_guests h] at built bytes
  rw [List.length_replicate] at built
  refine ⟨w, built, ?_⟩
  rw [position_of_kept bytes, frameLength_rollCall, pairsLength_replicate, pairLength_guest,
    Nat.mul_comm]

end Guests

theorem guests_counted_as_one :
    let buffer := Array.replicate 1638467 (0 : UInt8)
    let guests := List.replicate 32769 guest
    let built := (ofServices rollCall guests true buffer).value
    built.1 = .ok (.complete 1638467 2) ∧
      Header.read (built.2.extract 0 1638467) = .ok ⟨0, flags, 1, 2, 0, 0⟩ ∧
      Record.Sequence (built.2.extract 0 1638467) 17 (guests.flatMap (·.records true)) 1638467 ∧
      Machine.ofServices rollCall guests true buffer = .error .lostValue := by
  have size : (Array.replicate 1638467 (0 : UInt8)).size = 17 + 50 * 32769 := Array.size_replicate
  obtain ⟨w, finished, position⟩ := ofServices_guests (by decide) size
  have all := kept_guests size
  have number : (List.replicate 32769 guest).length = 32769 := List.length_replicate
  -- neither the list nor the buffer is to be unfolded
  generalize Array.replicate 1638467 (0 : UInt8) = buffer at *
  generalize List.replicate 32769 guest = guests at *
  have sent : (ofServices rollCall guests true buffer).value.1 = .ok (.complete 1638467 2) := by
    rw [finished]
    exact congrArg (fun n => Except.ok (Outcome.complete n 2)) position
  obtain ⟨-, counted, -, broken⟩ := ofServices_counts rollCall guests true buffer
  obtain ⟨header, records, -, -⟩ := counted _ _ sent rfl
  rw [frameLength_rollCall, all] at records
  rw [all, number] at broken
  exact ⟨sent, header, records, broken⟩

theorem guests_uncounted :
    let buffer := Array.replicate 1638417 (0 : UInt8)
    let guests := List.replicate 32768 guest
    (ofServices rollCall guests true buffer).value.1 = .ok .noAnswers ∧
      (kept rollCall guests buffer).length = 32768 := by
  intro buffer guests
  have size : buffer.size = 17 + 50 * 32768 := Array.size_replicate
  obtain ⟨w, finished, -⟩ := ofServices_guests (by decide) size
  rw [kept_guests size, List.length_replicate]
  refine ⟨?_, rfl⟩
  rw [finished]
  rfl

end Samples

end Response

end MulticastDns

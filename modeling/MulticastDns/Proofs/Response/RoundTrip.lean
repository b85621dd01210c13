import MulticastDns.Proofs.Response.Reading

namespace MulticastDns.Response

theorem fill_of_encodable {services : List Service} (good : ∀ s ∈ services, s.Encodable)
    (room : Nat) :
    ∃ k ≤ services.length, fill room services = (services.take k, decide (k < services.length)) ∧
      ∀ j ≤ services.length, pairsLength (services.take j) ≤ room ↔ j ≤ k := by
  induction services generalizing room with
  | nil =>
    exact ⟨0, Nat.le_refl _, rfl, fun j hj => by simpa [pairsLength] using Nat.le_zero.1 hj⟩
  | cons s rest ih =>
    by_cases fits : pairLength s ≤ room
    · obtain ⟨k, within, filled, greatest⟩ :=
        ih (fun t ht => good t (by simp [ht])) (room - pairLength s)
      refine ⟨k + 1, Nat.succ_le_succ within, ?_, fun j hj => ?_⟩
      · rw [fill_of_fits (good s (by simp)) fits, filled]
        simp
      · cases j with
        | zero => simp [pairsLength]
        | succ j =>
          have := greatest j (Nat.le_of_succ_le_succ hj)
          rw [List.take_succ_cons, pairsLength]
          omega
    · refine ⟨0, Nat.zero_le _, ?_, fun j _ => ?_⟩
      · rw [fill_of_full (good s (by simp)) (by omega)]
        simp
      · cases j with
        | zero => simp [pairsLength]
        | succ j =>
          rw [List.take_succ_cons, pairsLength]
          omega

theorem verdict_take {q : Question} {services : List Service} {k : Nat}
    (nonempty : services ≠ []) (within : k ≤ services.length) :
    verdict q (services.take k) (decide (k < services.length)) =
      if k = 0 then .error .bufferFull
      else .ok (if k = services.length
        then .complete (frameLength q + pairsLength (services.take k)) (.ofNat (2 * k))
        else .truncated (frameLength q + pairsLength (services.take k)) (.ofNat (2 * k))) := by
  have positive := List.length_pos_iff.2 nonempty
  have empty : services.take k = [] ↔ k = 0 := by simp [nonempty]
  rw [verdict, List.length_take_of_le within]
  by_cases none : k = 0
  · rw [if_pos (empty.2 none), if_pos none, if_pos (by simpa [none] using positive)]
  · rw [if_neg (empty.not.2 none), if_neg none]
    apply congrArg Except.ok
    by_cases last : k = services.length
    · rw [if_pos last, if_neg (by simp [last])]
    · rw [if_neg last, if_pos (by simpa using Nat.lt_of_le_of_ne within last)]

/-- With room for the first service the answer holds the longest part of the list that fits, and is
read as those services' records. -/
theorem ofServices_reads_back {q : Question} {services : List Service} {buffer : Array UInt8}
    (cacheFlush : Bool) (name : Name.Encodable q.name) (nonempty : services ≠ [])
    (few : services.length ≤ 0x7FFF) (good : ∀ s ∈ services, s.Encodable) :
    let built := (ofServices q services cacheFlush buffer).value
    let length (k : Nat) := frameLength q + pairsLength (services.take k)
    (buffer.size < length 1 → built.1 = .error .bufferFull) ∧
    (length 1 ≤ buffer.size → ∃ k ≤ services.length, length k ≤ buffer.size ∧
      (∀ j ≤ services.length, length j ≤ buffer.size → j ≤ k) ∧
      (∃ answers : UInt16, answers.toNat = 2 * k ∧ built.1 = .ok
        (if k = services.length then .complete (length k) answers
          else .truncated (length k) answers)) ∧
      (Message.read (built.2.extract 0 (length k))).value =
        .ok (message q ((services.take k).flatMap (·.records cacheFlush)))) := by
  intro built length
  by_cases room : frameLength q ≤ buffer.size
  · obtain ⟨outcome, packet, -⟩ := ofServices_eq name cacheFlush few room
    obtain ⟨k, within, filled, greatest⟩ :=
      fill_of_encodable good (buffer.size - frameLength q)
    have held (j : Nat) (hj : j ≤ services.length) : length j ≤ buffer.size ↔ j ≤ k := by
      rw [← greatest j hj]
      show frameLength q + _ ≤ _ ↔ _
      omega
    have first := held 1 (List.length_pos_iff.2 nonempty)
    rw [filled] at outcome packet
    rw [verdict_take nonempty within] at outcome
    refine ⟨fun short => ?_, fun fits => ?_⟩
    · exact outcome.trans (if_pos (by omega))
    · have positive : k ≠ 0 := by omega
      have sent := outcome.trans (if_neg positive)
      refine ⟨k, within, (held k within).2 (Nat.le_refl k), fun j hj => (held j hj).1,
        ⟨_, toNat_answers (Nat.le_trans within few), sent⟩, ?_⟩
      rw [if_neg (by simp [nonempty, positive])] at packet
      rw [extract_of_packet? packet sent (by split <;> rfl)]
      exact read_responseBytes name (fun s hs => good s (List.mem_of_mem_take hs))
        (Nat.le_trans (List.length_take_le _ _) (Nat.le_trans within few)) cacheFlush
  · have short : buffer.size < frameLength q := Nat.lt_of_not_le room
    refine ⟨fun _ => ofServices_of_short name nonempty cacheFlush short, fun fits => ?_⟩
    exact absurd (Nat.le_trans (Nat.le_add_right _ _) fits) room

section Samples

def browsing : Question := ⟨"_http._tcp.local", RecordType.srv, RecordClass.internet⟩

def printer : Service :=
  ⟨"printer", "_http._tcp", "local", 0, 0, 80, "printer.local", ["duplex=T"], 0⟩

def camera : Service := ⟨"camera", "_http._tcp", "local", 1, 2, 8080, "camera.local.", [], 60⟩

theorem printer_reads_back_without_camera :
    (ofServices browsing [printer, camera] true (.replicate 200 0)).value.1.toOption =
      some (.truncated 136 2) ∧
    (Message.read ((ofServices browsing [printer, camera] true (.replicate 200 0)).value.2.extract
      0 136)).value = .ok (message browsing (printer.records true)) := by
  obtain ⟨k, within, held, greatest, ⟨answers, count, sent⟩, reads⟩ :=
    (@ofServices_reads_back browsing [printer, camera] (.replicate 200 0) true (by decide +kernel)
      (by simp) (by decide) (by decide +kernel)).2 (by decide +kernel)
  have one : 1 ≤ k := greatest 1 (by decide) (by decide +kernel)
  have notTwo : k ≠ 2 := by
    rintro rfl
    exact absurd held (by decide +kernel)
  obtain rfl : k = 1 := by
    simp at within
    omega
  have length : frameLength browsing + pairsLength ([printer, camera].take 1) = 136 := by
    decide +kernel
  dsimp only at sent reads
  rw [length] at sent reads
  refine ⟨?_, reads⟩
  rw [sent, show answers = 2 from UInt16.toNat_inj.1 count]
  rfl

def lamp : Service := ⟨"lamp", "_http._tcp", "local.", 0, 0, 80, "lamp.local", [], 120⟩

theorem lamp_reads_back_under_other_key :
    Name.Encodable browsing.name ∧ lamp.Encodable ∧
    (ofServices browsing [lamp] true (.replicate 200 0)).value.1.toOption =
      some (.complete 119 2) ∧
    ((Message.read ((ofServices browsing [lamp] true (.replicate 200 0)).value.2.extract
      0 119)).value.toOption.map fun m => m.answers.map (·.name)) =
        some ["lamp._http._tcp.local", "lamp._http._tcp.local"] ∧
    lamp.key = "lamp._http._tcp.local." := by
  decide +kernel

end Samples

end MulticastDns.Response

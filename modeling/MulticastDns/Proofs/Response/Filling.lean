import MulticastDns.Proofs.Response.Encodable

namespace MulticastDns.Response

def Skipped (room : Nat) (s : Service) : Prop := ∃ n, faultOffset? s = some n ∧ n ≤ room

instance (room : Nat) (s : Service) : Decidable (Skipped room s) :=
  match h : faultOffset? s with
  | some n => decidable_of_iff (n ≤ room) (by simp [Skipped, h])
  | none => isFalse (by simp [Skipped, h])

/-- The services of a list that are written in this room, and whether it ran out before the last. -/
def fill : Nat → List Service → List Service × Bool
  | _, [] => ([], false)
  | room, s :: rest =>
    if s.Encodable then
      if pairLength s ≤ room then
        (s :: (fill (room - pairLength s) rest).1, (fill (room - pairLength s) rest).2)
      else ([], true)
    else if Skipped room s then fill room rest
    else ([], true)

def pairsLength : List Service → Nat
  | [] => 0
  | s :: rest => pairLength s + pairsLength rest

section Fill

variable {room : Nat} {s : Service} {rest : List Service}

theorem fill_of_fits (h : s.Encodable) (fits : pairLength s ≤ room) :
    fill room (s :: rest) =
      (s :: (fill (room - pairLength s) rest).1, (fill (room - pairLength s) rest).2) := by
  rw [fill, if_pos h, if_pos fits]

theorem fill_of_full (h : s.Encodable) (full : room < pairLength s) :
    fill room (s :: rest) = ([], true) := by
  rw [fill, if_pos h, if_neg (Nat.not_le.2 full)]

theorem fill_of_skipped (h : ¬s.Encodable) (skipped : Skipped room s) :
    fill room (s :: rest) = fill room rest := by
  rw [fill, if_neg h, if_pos skipped]

theorem fill_of_not_skipped (h : ¬s.Encodable) (stuck : ¬Skipped room s) :
    fill room (s :: rest) = ([], true) := by
  rw [fill, if_neg h, if_neg stuck]

theorem fill_sublist (room : Nat) (services : List Service) :
    (fill room services).1.Sublist services := by
  induction services generalizing room with
  | nil => exact .slnil
  | cons s rest ih =>
    unfold fill
    split
    · split
      · exact (ih _).cons_cons s
      · exact List.nil_sublist _
    · split
      · exact (ih _).cons s
      · exact List.nil_sublist _

theorem pairsLength_fill_le (room : Nat) (services : List Service) :
    pairsLength (fill room services).1 ≤ room := by
  induction services generalizing room with
  | nil => exact Nat.zero_le _
  | cons s rest ih =>
    unfold fill
    split
    · split
      · have := ih (room - pairLength s)
        rw [pairsLength]
        omega
      · exact Nat.zero_le _
    · split
      · exact ih room
      · exact Nat.zero_le _

theorem encodable_of_mem_fill {services : List Service} (h : s ∈ (fill room services).1) :
    s.Encodable := by
  induction services generalizing room with
  | nil => cases h
  | cons t rest ih =>
    unfold fill at h
    split at h
    · split at h
      · rcases List.mem_cons.1 h with rfl | h
        · assumption
        · exact ih h
      · cases h
    · split at h
      · exact ih h
      · cases h

end Fill

section Write

variable {rclass : UInt16} {s : Service} {rest : List Service} {answers : UInt16} {w u : Writer}

theorem emitService_of_fits (rclass : UInt16) (h : s.Encodable)
    (fits : pairLength s ≤ w.remaining) :
    ∃ u, emitService rclass s w = (.ok (), u) ∧ u.capacity = w.capacity ∧
      u.bytes = w.bytes ++ serviceBytes rclass s := by
  have follows := follows_emitService rclass s
  rw [serviceDraft_of_encodable h] at follows
  exact follows.1 w (by rwa [length_serviceBytes])

theorem emitService_of_full (rclass : UInt16) (h : s.Encodable)
    (full : w.remaining < pairLength s) :
    ∃ u, emitService rclass s w = (.error .bufferFull, u) ∧ w.Extends u := by
  have follows := follows_emitService rclass s
  rw [serviceDraft_of_encodable h] at follows
  exact follows.2 w (by rwa [length_serviceBytes])

theorem emitService_of_skipped (rclass : UInt16) (h : ¬s.Encodable)
    (skipped : Skipped w.remaining s) :
    ∃ e u, emitService rclass s w = (.error e, u) ∧ e ≠ .bufferFull ∧ w.Extends u := by
  have follows := follows_emitService rclass s
  obtain ⟨m, hm, within⟩ := skipped
  obtain ⟨n, e, draft, ⟨hn, notFull⟩ | ⟨hn, -⟩⟩ := serviceDraft_of_not_encodable h rclass
  · cases hn.symm.trans hm
    rw [draft] at follows
    obtain ⟨u, hu, xu⟩ := follows w
    exact ⟨e, u, by rw [hu, if_pos within], notFull, xu⟩
  · cases hn.symm.trans hm

theorem emitService_of_not_skipped (rclass : UInt16) (h : ¬s.Encodable)
    (stuck : ¬Skipped w.remaining s) :
    ∃ u, emitService rclass s w = (.error .bufferFull, u) ∧ w.Extends u := by
  have follows := follows_emitService rclass s
  obtain ⟨n, e, draft, ⟨hn, -⟩ | ⟨-, rfl⟩⟩ := serviceDraft_of_not_encodable h rclass
  · rw [draft] at follows
    obtain ⟨u, hu, xu⟩ := follows w
    exact ⟨u, by rw [hu, if_neg fun within => stuck ⟨n, hn, within⟩], xu⟩
  · rw [draft] at follows
    obtain ⟨u, hu, xu⟩ := follows w
    exact ⟨u, by rw [hu, ite_self], xu⟩

theorem writeServices_of_ok (h : emitService rclass s w = (.ok (), u)) :
    writeServices rclass (s :: rest) answers w = writeServices rclass rest (answers + 2) u := by
  rw [writeServices, h]

theorem writeServices_of_full (h : emitService rclass s w = (.error .bufferFull, u))
    (k : w.Extends u) :
    ∃ v, (writeServices rclass (s :: rest) answers w).value = ⟨answers, true, v⟩ ∧
      v.capacity = w.capacity ∧ v.bytes = w.bytes := by
  refine ⟨u.truncate w.position, ?_, k.truncate⟩
  rw [writeServices, h]
  rfl

theorem writeServices_of_error {e : WireError} (h : emitService rclass s w = (.error e, u))
    (notFull : e ≠ .bufferFull) (k : w.Extends u) :
    ∃ v, (writeServices rclass (s :: rest) answers w).value =
        (writeServices rclass rest answers v).value ∧
      v.capacity = w.capacity ∧ v.bytes = w.bytes := by
  refine ⟨u.truncate w.position, ?_, k.truncate⟩
  rw [writeServices, h]
  cases e <;> first | rfl | exact absurd rfl notFull

theorem exists_writeServices (rclass : UInt16) (services : List Service) (answers : UInt16)
    (w : Writer) :
    ∃ w', (writeServices rclass services answers w).value =
        ⟨answers + .ofNat (2 * (fill w.remaining services).1.length),
          (fill w.remaining services).2, w'⟩ ∧
      w'.capacity = w.capacity ∧
      w'.bytes = w.bytes ++ (fill w.remaining services).1.flatMap (serviceBytes rclass) := by
  induction services generalizing answers w with
  | nil => exact ⟨w, by simp [writeServices, fill], rfl, by simp [fill]⟩
  | cons s rest ih =>
    by_cases good : s.Encodable
    · by_cases fits : pairLength s ≤ w.remaining
      · -- the rest is written from where this service ends
        obtain ⟨u, hu, cu, bu⟩ := emitService_of_fits rclass good fits
        obtain ⟨v, hv, cv, bv⟩ := ih (answers + 2) u
        rw [Emit.remaining_of_append cu bu, length_serviceBytes] at hv bv
        rw [fill_of_fits good fits, writeServices_of_ok hu, hv]
        refine ⟨v, ?_, cv.trans cu, ?_⟩
        · rw [List.length_cons, Nat.mul_succ, UInt16.ofNat_add, UInt16.add_assoc,
            UInt16.add_comm (.ofNat _)]
          rfl
        · rw [bv, bu, List.flatMap_cons, List.append_assoc]
      · obtain ⟨u, hu, xu⟩ := emitService_of_full rclass good (Nat.lt_of_not_le fits)
        obtain ⟨v, hv, cv, bv⟩ := writeServices_of_full hu xu
        rw [fill_of_full good (Nat.lt_of_not_le fits), hv]
        exact ⟨v, by simp, cv, by simp [bv]⟩
    · by_cases skipped : Skipped w.remaining s
      · -- the cursor goes back, so the rest finds as much room as this service did
        obtain ⟨e, u, hu, notFull, xu⟩ := emitService_of_skipped rclass good skipped
        obtain ⟨u', hu', cu, bu⟩ := writeServices_of_error hu notFull xu
        obtain ⟨v, hv, cv, bv⟩ := ih answers u'
        rw [Writer.remaining_eq, cu, bu, ← Writer.remaining_eq] at hv bv
        rw [fill_of_skipped good skipped, hu', hv]
        exact ⟨v, rfl, cv.trans cu, bv⟩
      · obtain ⟨u, hu, xu⟩ := emitService_of_not_skipped rclass good skipped
        obtain ⟨v, hv, cv, bv⟩ := writeServices_of_full hu xu
        rw [fill_of_not_skipped good skipped, hv]
        exact ⟨v, by simp, cv, by simp [bv]⟩

end Write

end MulticastDns.Response

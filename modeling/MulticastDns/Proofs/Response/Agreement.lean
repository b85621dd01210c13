import MulticastDns.Proofs.Agreement
import MulticastDns.Proofs.Response.Host

namespace MulticastDns.Response

section Services

variable {rclass : UInt16} {s : Service} {rest : List Service} {answers : UInt16} {w u : Writer}

theorem writeServices_of_bufferFull (h : emitService rclass s w = (.error .bufferFull, u)) :
    writeServices rclass (s :: rest) answers w =
      pure ⟨answers, true, u.truncate w.position⟩ := by
  rw [writeServices, h]

theorem writeServices_of_fault {e : WireError} (h : emitService rclass s w = (.error e, u))
    (notFull : e ≠ .bufferFull) :
    writeServices rclass (s :: rest) answers w = (do
      .tell .warn .core s!"Skipping service {s.key} in response: {e.message}"
      writeServices rclass rest answers (u.truncate w.position)) := by
  rw [writeServices, h]
  cases e <;> first | rfl | exact absurd rfl notFull

theorem extends_writeServices (rclass : UInt16) (services : List Service) (answers : UInt16)
    (w : Writer) : w.Extends (writeServices rclass services answers w).value.writer := by
  obtain ⟨v, hv, cv, bv⟩ := exists_writeServices rclass services answers w
  rw [hv]
  exact .of_append cv bv

end Services

structure Progress.Agrees (r r' : Progress) : Prop where
  answers_eq : r.answers = r'.answers
  full_eq : r.full = r'.full
  writer : r.writer.Agrees r'.writer

theorem writeServices_agrees (rclass : UInt16) (services : List Service) (answers : UInt16)
    {w w' : Writer} (h : w.Agrees w') :
    (writeServices rclass services answers w).value.Agrees
        (writeServices rclass services answers w').value ∧
      (writeServices rclass services answers w).events =
        (writeServices rclass services answers w').events := by
  induction services generalizing answers w w' with
  | nil => exact ⟨⟨rfl, rfl, h⟩, rfl⟩
  | cons s rest ih =>
    cases (follows_emitService rclass s).alike h with
    | written hu hu' agrees =>
      rw [writeServices_of_ok hu, writeServices_of_ok hu']
      exact ih (answers + 2) agrees
    | @stopped e _ _ hu hu' xu xu' =>
      -- either way both cursors go back to where they agreed
      have back := h.truncate xu xu'
      by_cases full : e = .bufferFull
      · subst full
        rw [writeServices_of_bufferFull hu, writeServices_of_bufferFull hu']
        exact ⟨⟨rfl, rfl, back⟩, rfl⟩
      · rw [writeServices_of_fault hu full, writeServices_of_fault hu' full]
        obtain ⟨progress, events⟩ := ih answers back
        refine ⟨progress, ?_⟩
        rw [Logged.events_bind, Logged.events_bind, events]

structure SameBuilt (built built' : Except WireError Outcome × Array UInt8) : Prop where
  outcome_eq : built.1 = built'.1
  packet_eq : packet? built = packet? built'

theorem SameBuilt.of_error (e : WireError) (buffer buffer' : Array UInt8) :
    SameBuilt (.error e, buffer) (.error e, buffer') := ⟨rfl, rfl⟩

theorem SameBuilt.noAnswers (buffer buffer' : Array UInt8) :
    SameBuilt (.ok .noAnswers, buffer) (.ok .noAnswers, buffer') := ⟨rfl, rfl⟩

theorem SameBuilt.of_agrees {w w' : Writer} (h : w.Agrees w') {outcome : Outcome}
    (length : outcome.length? = some w.position) :
    SameBuilt (.ok outcome, w.buffer) (.ok outcome, w'.buffer) := by
  refine ⟨rfl, ?_⟩
  have written : w.buffer.extract 0 w.position = w'.buffer.extract 0 w.position := by
    have same := h.written_eq
    rwa [Writer.written, Writer.written, ← h.position_eq] at same
  simp only [packet?, length, Option.map_some, written]

theorem finish_agrees {r r' : Progress} (h : r.Agrees r') : SameBuilt r.finish r'.finish := by
  have patched := h.writer.patch answersOffset r.answers
  unfold Progress.finish
  rw [← h.answers_eq, ← h.full_eq, ← h.writer.position_eq]
  by_cases none : r.answers = 0
  · rw [if_pos none, if_pos none]
    cases r.full with
    | true => exact .of_error _ _ _
    | false => exact .noAnswers _ _
  · rw [if_neg none, if_neg none]
    cases r.full with
    | true => exact .of_agrees patched rfl
    | false => exact .of_agrees patched rfl

theorem size_finish (r : Progress) : r.finish.2.size = r.writer.capacity := by
  unfold Progress.finish
  split
  · rfl
  · exact Writer.capacity_patch _ _ _

section Buffers

variable {buffer buffer' : Array UInt8} (q : Question) (cacheFlush : Bool)

theorem ofServices_agrees (services : List Service) (h : buffer.size = buffer'.size) :
    SameBuilt (ofServices q services cacheFlush buffer).value
        (ofServices q services cacheFlush buffer').value ∧
      (ofServices q services cacheFlush buffer).events =
        (ofServices q services cacheFlush buffer').events := by
  unfold ofServices
  by_cases empty : services.isEmpty
  · rw [if_pos empty, if_pos empty]
    exact ⟨.noAnswers _ _, rfl⟩
  · rw [if_neg empty, if_neg empty]
    cases (follows_emitQuestion q).alike (.ofBuffer h) with
    | written hu hu' agrees =>
      rw [hu, hu']
      obtain ⟨progress, events⟩ :=
        writeServices_agrees (RecordClass.internetWith cacheFlush) services 0 agrees
      refine ⟨finish_agrees progress, ?_⟩
      rw [Logged.events_bind, Logged.events_bind, events]
      rfl
    | stopped hu hu' =>
      rw [hu, hu']
      exact ⟨.of_error _ _ _, rfl⟩

theorem size_ofServices (services : List Service) (buffer : Array UInt8) :
    (ofServices q services cacheFlush buffer).value.2.size = buffer.size := by
  unfold ofServices
  split
  · rfl
  · have question := (follows_emitQuestion q).extends (.ofBuffer buffer)
    generalize emitQuestion q (.ofBuffer buffer) = written at *
    obtain ⟨outcome | outcome, w⟩ := written
    · exact question.capacity_eq
    · have services := extends_writeServices (RecordClass.internetWith cacheFlush) services 0 w
      exact (size_finish _).trans (services.capacity_eq.trans question.capacity_eq)

theorem ofHost_agrees (h : Host) (k : buffer.size = buffer'.size) :
    SameBuilt (ofHost q h cacheFlush buffer) (ofHost q h cacheFlush buffer') := by
  cases found : address? q h with
  | none =>
    simp only [ofHost, found]
    exact .noAnswers _ _
  | some address =>
    rw [ofHost_of_address found, ofHost_of_address found]
    cases (follows_emitFound q address (RecordClass.internetWith cacheFlush) h.ttl).alike
      (.ofBuffer k) with
    | written hu hu' agrees =>
      rw [emitHost_of_ok hu, emitHost_of_ok hu', ← agrees.position_eq]
      exact .of_agrees (agrees.patch answersOffset 1) rfl
    | stopped hu hu' =>
      rw [emitHost_of_error hu, emitHost_of_error hu']
      exact .of_error _ _ _

theorem size_ofHost (h : Host) (buffer : Array UInt8) :
    (ofHost q h cacheFlush buffer).2.size = buffer.size := by
  cases found : address? q h with
  | none => simp only [ofHost, found]
  | some address =>
    rw [ofHost_of_address found]
    have whole := (follows_emitFound q address (RecordClass.internetWith cacheFlush) h.ttl).extends
      (.ofBuffer buffer)
    cases hw : emitFound q address (RecordClass.internetWith cacheFlush) h.ttl
      (.ofBuffer buffer) with
    | mk outcome w =>
      rw [hw] at whole
      cases outcome with
      | error e =>
        rw [emitHost_of_error hw]
        exact whole.capacity_eq
      | ok =>
        rw [emitHost_of_ok hw]
        exact (Writer.capacity_patch _ _ _).trans whole.capacity_eq

end Buffers

end MulticastDns.Response

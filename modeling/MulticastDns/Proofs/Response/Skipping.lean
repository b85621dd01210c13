import MulticastDns.Proofs.Response.Services

/-! Services that cannot be written, among those that can. One is left out without a trace if its
fault shows in the room there is, or if the next service that can be written does not fit either. -/

namespace MulticastDns.Response

def writable (services : List Service) : List Service := services.filter (·.Encodable)

/-- Whatever is wrong with a service that is reached shows, or nothing could follow it anyway. -/
def Undisturbed (room : Nat) (services : List Service) : Prop :=
  ∀ before bad after, services = before ++ bad :: after → ¬bad.Encodable →
    pairsLength (writable before) ≤ room →
      Skipped (room - pairsLength (writable before)) bad ∨
        ∃ next ∈ (writable after).head?, room - pairsLength (writable before) < pairLength next

section Writable

variable {s : Service} {rest services : List Service} {room : Nat}

theorem writable_of_encodable (h : s.Encodable) : writable (s :: rest) = s :: writable rest := by
  simp [writable, h]

theorem writable_of_not_encodable (h : ¬s.Encodable) : writable (s :: rest) = writable rest := by
  simp [writable, h]

theorem undisturbed_nil : Undisturbed room [] := by
  intro before bad after split
  simp at split

theorem undisturbed_of_fits (h : s.Encodable) (fits : pairLength s ≤ room) :
    Undisturbed room (s :: rest) ↔ Undisturbed (room - pairLength s) rest := by
  constructor
  · intro hall before bad after split notGood reached
    have := hall (s :: before) bad after (by rw [split, List.cons_append]) notGood
    rw [writable_of_encodable h, pairsLength, ← Nat.sub_sub] at this
    exact this (by omega)
  · intro hall before bad after split notGood reached
    cases before with
    | nil =>
      cases split
      exact absurd h notGood
    | cons t before =>
      cases split
      rw [writable_of_encodable h, pairsLength] at reached ⊢
      rw [← Nat.sub_sub]
      exact hall before bad after rfl notGood (by omega)

theorem undisturbed_of_full (h : s.Encodable) (full : room < pairLength s) :
    Undisturbed room (s :: rest) := by
  intro before bad after split notGood reached
  cases before with
  | nil =>
    cases split
    exact absurd h notGood
  | cons t before =>
    cases split
    rw [writable_of_encodable h, pairsLength] at reached
    omega

theorem undisturbed_cons_of_not_encodable (h : ¬s.Encodable) :
    Undisturbed room (s :: rest) ↔
      (Skipped room s ∨ ∃ next ∈ (writable rest).head?, room < pairLength next) ∧
        Undisturbed room rest := by
  constructor
  · intro hall
    refine ⟨hall [] s rest rfl h (Nat.zero_le _), ?_⟩
    intro before bad after split notGood
    have := hall (s :: before) bad after (by rw [split, List.cons_append]) notGood
    rwa [writable_of_not_encodable h] at this
  · rintro ⟨first, hall⟩ before bad after split notGood
    cases before with
    | nil =>
      cases split
      exact fun _ => first
    | cons t before =>
      cases split
      rw [writable_of_not_encodable h]
      exact hall before bad after rfl notGood

theorem undisturbed_of_head {next : Service} (h : next ∈ (writable rest).head?)
    (full : room < pairLength next) : Undisturbed room rest := by
  induction rest with
  | nil => cases h
  | cons s rest ih =>
    by_cases good : s.Encodable
    · rw [writable_of_encodable good] at h
      cases h
      exact undisturbed_of_full good full
    · rw [writable_of_not_encodable good] at h
      exact (undisturbed_cons_of_not_encodable good).2 ⟨.inr ⟨next, h, full⟩, ih h⟩

theorem encodable_of_mem_writable (h : s ∈ writable services) : s.Encodable := by
  simpa using (List.mem_filter.1 h).2

end Writable

theorem fill_isPrefix (room : Nat) (services : List Service) :
    (fill room services).1 <+: (fill room (writable services)).1 := by
  induction services generalizing room with
  | nil => exact List.prefix_rfl
  | cons s rest ih =>
    by_cases good : s.Encodable
    · rw [writable_of_encodable good]
      by_cases fits : pairLength s ≤ room
      · rw [fill_of_fits good fits, fill_of_fits good fits]
        exact List.prefix_cons_inj s |>.2 (ih _)
      · rw [fill_of_full good (by omega)]
        exact List.nil_prefix
    · rw [writable_of_not_encodable good]
      by_cases skipped : Skipped room s
      · rw [fill_of_skipped good skipped]
        exact ih room
      · rw [fill_of_not_skipped good skipped]
        exact List.nil_prefix

theorem fill_writable_eq_full_iff (room : Nat) (services : List Service) :
    fill room (writable services) = ([], true) ↔
      ∃ next ∈ (writable services).head?, room < pairLength next := by
  cases h : writable services with
  | nil => simp [fill]
  | cons next rest =>
    have good : next.Encodable := encodable_of_mem_writable (h ▸ List.mem_cons_self)
    by_cases fits : pairLength next ≤ room
    · simp [fill_of_fits good fits, fits]
    · rw [fill_of_full good (by omega)]
      simpa using fits

theorem fill_eq_iff (room : Nat) (services : List Service) :
    fill room services = fill room (writable services) ↔ Undisturbed room services := by
  induction services generalizing room with
  | nil => exact iff_of_true rfl undisturbed_nil
  | cons s rest ih =>
    by_cases good : s.Encodable
    · rw [writable_of_encodable good]
      by_cases fits : pairLength s ≤ room
      · rw [fill_of_fits good fits, fill_of_fits good fits, undisturbed_of_fits good fits, ← ih]
        simp [Prod.ext_iff]
      · rw [fill_of_full good (by omega), fill_of_full good (by omega)]
        exact iff_of_true rfl (undisturbed_of_full good (by omega))
    · rw [writable_of_not_encodable good, undisturbed_cons_of_not_encodable good]
      by_cases skipped : Skipped room s
      · rw [fill_of_skipped good skipped, ih]
        exact ⟨fun h => ⟨.inl skipped, h⟩, And.right⟩
      · -- here the list ends the response, so the others must end it at the same place
        rw [fill_of_not_skipped good skipped, eq_comm, fill_writable_eq_full_iff]
        constructor
        · rintro ⟨next, first, full⟩
          exact ⟨.inr ⟨next, first, full⟩, undisturbed_of_head first full⟩
        · rintro ⟨hs | head, -⟩
          · exact absurd hs skipped
          · exact head

def answersOf : Except WireError Outcome → UInt16
  | .ok outcome => outcome.answers
  | .error _ => 0

def ranOut : Except WireError Outcome → Bool
  | .ok (.complete ..) => false
  | .ok (.truncated ..) => true
  | .ok .noAnswers => false
  | .error _ => true

section Verdict

variable (q : Question) (kept : List Service) (full : Bool)

theorem answersOf_verdict : answersOf (verdict q kept full) = .ofNat (2 * kept.length) := by
  cases kept <;> cases full <;> rfl

theorem ranOut_verdict : ranOut (verdict q kept full) = full := by
  cases kept <;> cases full <;> rfl

end Verdict

theorem verdict_inj {q : Question} {kept kept' : List Service} {full full' : Bool}
    (first : kept <+: kept') (few : kept'.length ≤ 0x7FFF)
    (h : verdict q kept full = verdict q kept' full') : kept = kept' ∧ full = full' := by
  have shorter := first.length_le
  have answers := congrArg answersOf h
  have room := congrArg ranOut h
  rw [answersOf_verdict, answersOf_verdict, ← UInt16.toNat_inj,
    toNat_answers (Nat.le_trans shorter few), toNat_answers few] at answers
  rw [ranOut_verdict, ranOut_verdict] at room
  exact ⟨first.eq_of_length (by omega), room⟩

/-- The services that cannot be written change nothing exactly if they do not disturb the room. -/
theorem ofServices_eq_writable_iff {q : Question} {services : List Service} {buffer : Array UInt8}
    (cacheFlush : Bool) (name : Name.Encodable q.name) (few : services.length ≤ 0x7FFF)
    (room : frameLength q ≤ buffer.size) :
    let built := (ofServices q services cacheFlush buffer).value
    let clean := (ofServices q (writable services) cacheFlush buffer).value
    (built.1 = clean.1 ∧ packet? built = packet? clean) ↔
      Undisturbed (buffer.size - frameLength q) services := by
  have fewer : (writable services).length ≤ 0x7FFF :=
    Nat.le_trans (List.length_filter_le ..) few
  obtain ⟨outcome, packet, -⟩ := ofServices_eq name cacheFlush few room
  obtain ⟨outcome', packet', -⟩ := ofServices_eq name cacheFlush fewer room
  intro built clean
  rw [outcome, outcome', packet, packet', ← fill_eq_iff]
  constructor
  · rintro ⟨same, -⟩
    obtain ⟨kept, full⟩ := verdict_inj (fill_isPrefix _ _)
      (Nat.le_trans (fill_sublist _ _).length_le fewer) same
    exact Prod.ext kept full
  · intro same
    rw [same]
    exact ⟨rfl, rfl⟩

section Samples

def asked : Question := ⟨"_http._tcp.local", RecordType.srv, RecordClass.internet⟩

def router : Service := ⟨"router", "_http._tcp", "local", 0, 0, 80, "router.local", [], 120⟩

def broken : Service := ⟨"broken", "_http._tcp", "local", 0, 0, 80, "bad..local", [], 120⟩

theorem broken_leaves_no_trace :
    let built := (ofServices asked [broken, router] true (.replicate 200 0)).value
    let clean := (ofServices asked (writable [broken, router]) true (.replicate 200 0)).value
    built.1 = clean.1 ∧ packet? built = packet? clean :=
  (ofServices_eq_writable_iff true (by decide +kernel) (by decide) (by decide +kernel)).2
    ((fill_eq_iff _ _).1 (by decide +kernel))

theorem broken_truncates :
    ¬broken.Encodable ∧ Name.Encodable asked.name ∧ frameLength asked ≤ 125 ∧
    (ofServices asked [router, broken] true (.replicate 125 0)).value.1.toOption =
      some (.truncated 125 2) ∧
    (ofServices asked (writable [router, broken]) true (.replicate 125 0)).value.1.toOption =
      some (.complete 125 2) := by
  decide +kernel

end Samples

end MulticastDns.Response

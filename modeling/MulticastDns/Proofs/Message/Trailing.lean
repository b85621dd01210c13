import MulticastDns.Proofs.Message.Framing
import MulticastDns.Proofs.Name.Grammar

/-! Bytes that come behind a packet. Whatever was read of it is read again: names, questions, and
the frames of the records. Only data may be read otherwise: a name that led past the end of the
packet, so that the bytes were kept, may lead on from there. -/

namespace MulticastDns

/-- What is read of a packet is read again when more bytes come behind it. -/
def Stable {α : Type} (read : Packet → Except WireError α) : Prop :=
  ∀ ⦃p : Packet⦄ ⦃a : α⦄, read p = .ok a → ∀ t : Packet, read (p ++ t) = .ok a

namespace Stable

variable {α β : Type} {read : Packet → Except WireError α}

theorem pure (a : α) : Stable fun _ => .ok a :=
  fun _ _ h _ => h

theorem bind {next : α → Packet → Except WireError β} (h : Stable read)
    (k : ∀ a, Stable (next a)) : Stable fun p => read p >>= fun a => next a p := by
  intro p b hb t
  obtain ⟨a, ha, hb⟩ := exists_ok_of_bind hb
  change read (p ++ t) >>= _ = _
  rw [h ha t]
  exact k a hb t

theorem map (h : Stable read) (f : α → β) : Stable fun p => (read p).map f := by
  intro p b hb t
  obtain ⟨a, ha, rfl⟩ := exists_ok_of_map hb
  exact congrArg (Except.map f) (h ha t)

theorem of_long {e : Packet → WireError} (n : Nat) (h : Stable read) :
    Stable fun p => if p.size < n then .error (e p) else read p := by
  intro p a ha t
  dsimp only at ha ⊢
  split at ha
  · cases ha
  · rw [if_neg (by rw [Array.size_append]; omega)]
    exact h ha t

end Stable

namespace Packet

variable {p : Packet} (t : Packet)

theorem getElem?_append_of_some {pos : Nat} {b : UInt8} (h : p[pos]? = some b) :
    (p ++ t)[pos]? = some b := by
  obtain ⟨inside, -⟩ := Array.getElem?_eq_some_iff.1 h
  rw [Array.getElem?_append_left inside, h]

theorem extract_append_of_le {start stop : Nat} (h : stop ≤ p.size) :
    (p ++ t).extract start stop = p.extract start stop := by
  rw [Array.extract_append, Nat.sub_eq_zero_of_le h, Array.extract_zero, Array.append_empty]

theorem slice?_append_of_some {start n : Nat} {bytes : Array UInt8}
    (h : p.slice? start n = some bytes) : (p ++ t).slice? start n = some bytes := by
  obtain ⟨inside, cut⟩ := slice?_eq_some_iff.1 h
  have longer : start + n ≤ (p ++ t).size := by
    rw [Array.size_append]
    omega
  exact slice?_eq_some_iff.2 ⟨longer, (extract_append_of_le t inside).trans cut⟩

theorem u16_stable (start : Nat) : Stable fun p => p.u16 start := by
  intro p n h t
  dsimp only [u16] at h ⊢
  split at h
  · rename_i inside
    rw [dif_pos (by rw [Array.size_append]; omega), Array.getElem_append_left (by omega),
      Array.getElem_append_left (by omega), h]
  · cases h

theorem u32_stable (start : Nat) : Stable fun p => p.u32 start := by
  intro p n h t
  dsimp only [u32] at h ⊢
  split at h
  · rename_i inside
    rw [dif_pos (by rw [Array.size_append]; omega), Array.getElem_append_left (by omega),
      Array.getElem_append_left (by omega), Array.getElem_append_left (by omega),
      Array.getElem_append_left (by omega), h]
  · cases h

end Packet

namespace Name

theorem Move.append {p : Packet} {pos next : Nat} {label? : Option String}
    (h : Move p pos label? next) (t : Packet) : Move (p ++ t) pos label? next := by
  have longer : p.size ≤ (p ++ t).size := by simp
  cases h with
  | label lead positive small fits spells =>
    refine .label (Packet.getElem?_append_of_some t lead) positive small
      (Nat.le_trans fits longer) ?_
    rw [spells, Packet.extract_append_of_le t fits]
  | pointer lead large low target inside =>
    exact .pointer (Packet.getElem?_append_of_some t lead) large
      (Packet.getElem?_append_of_some t low) target (Nat.lt_of_lt_of_le inside longer)

theorem Walk.append {p : Packet} {pos stop : Nat} {visits : List Visit}
    (h : Walk p pos visits stop) (t : Packet) : Walk (p ++ t) pos visits stop := by
  induction h with
  | stop zero => exact .stop (Packet.getElem?_append_of_some t zero)
  | move first _ ih => exact .move (first.append t) ih

theorem decode_stable (offset : Nat) : Stable (decode · offset) := by
  rintro p ⟨name, next⟩ h t
  obtain ⟨visits, stop, walk, short, rfl, rfl⟩ := exists_walk_of_decode h
  exact (decode_of_walk (walk.append t)).trans (if_pos short)

end Name

theorem Header.read_stable : Stable Header.read :=
  .of_long size <|
    (Packet.u16_stable 0).bind fun _ => (Packet.u16_stable 2).bind fun _ =>
    (Packet.u16_stable 4).bind fun _ => (Packet.u16_stable 6).bind fun _ =>
    (Packet.u16_stable 8).bind fun _ => (Packet.u16_stable 10).bind fun _ => .pure _

namespace Question

theorem read_stable (offset : Nat) : Stable (read · offset) :=
  (Name.decode_stable offset).bind fun named =>
    (Packet.u16_stable named.2).bind fun _ =>
      (Packet.u16_stable (named.2 + 2)).bind fun _ => .pure _

theorem readMany_stable (count offset : Nat) : Stable (readMany · count offset) := by
  induction count generalizing offset with
  | zero => exact .pure _
  | succ count ih =>
    simp only [readMany_succ]
    exact (read_stable offset).bind fun first => (ih first.2).map _

theorem first?_stable : Stable first? := by
  refine Header.read_stable.bind fun header => ?_
  dsimp only
  split
  · exact .pure _
  · exact (read_stable Header.size).bind fun _ => .pure _

end Question

namespace Frame

theorem read_stable (offset : Nat) : Stable (read · offset) := by
  refine (Name.decode_stable offset).bind fun named => ?_
  refine (Packet.u16_stable named.2).bind fun rtype => ?_
  refine (Packet.u16_stable (named.2 + 2)).bind fun rclass => ?_
  refine (Packet.u32_stable (named.2 + 4)).bind fun ttl => ?_
  refine (Packet.u16_stable (named.2 + 8)).bind fun length => ?_
  intro p f h t
  dsimp only at h ⊢
  split at h
  · cases h
  · rename_i bytes cut
    rw [Packet.slice?_append_of_some t cut]
    exact h

theorem readMany_stable (count offset : Nat) : Stable (readMany · count offset) := by
  induction count generalizing offset with
  | zero => exact .pure _
  | succ count ih =>
    simp only [readMany_succ]
    exact (read_stable offset).bind fun first => (ih first.stop).map _

end Frame

theorem Skeleton.read_stable : Stable Skeleton.read :=
  Header.read_stable.bind fun header =>
    (Question.readMany_stable header.questions.toNat Header.size).bind fun asked =>
      (Frame.readMany_stable header.answers.toNat asked.2).bind fun answers =>
        (Frame.readMany_stable header.authority.toNat answers.2).bind fun authority =>
          (Frame.readMany_stable header.additional.toNat authority.2).bind fun _ => .pure _

namespace RData

def HoldsName (rtype : UInt16) : Prop := rtype = RecordType.ptr ∨ rtype = RecordType.srv

variable {p : Packet} {start : Nat} {bytes : Array UInt8} {rtype : UInt16} {data : RData}

theorem Means.append (h : Means p start bytes rtype data) (t : Packet) :
    Means (p ++ t) start bytes rtype data := by
  cases h with
  | a octets => exact .a octets
  | aaaa octets => exact .aaaa octets
  | ptr some named inside => exact .ptr some (Name.decode_stable _ named t) inside
  | srv more priority weight port named inside =>
    exact .srv more priority weight port (Name.decode_stable _ named t) inside
  | txt short tiles => exact .txt short tiles

theorem Means.elsewhere (h : Means p start bytes rtype data) (nameless : ¬ HoldsName rtype)
    (p' : Packet) : Means p' start bytes rtype data := by
  cases h with
  | a octets => exact .a octets
  | aaaa octets => exact .aaaa octets
  | ptr => exact absurd (.inl rfl) nameless
  | srv => exact absurd (.inr rfl) nameless
  | txt short tiles => exact .txt short tiles

theorem Found.append (h : Found p start bytes rtype data) (t : Packet) :
    Found (p ++ t) start bytes rtype data ∨ HoldsName rtype ∧ data = .other bytes.toList := by
  obtain means | ⟨kept, nothing⟩ := h
  · exact .inl (.inl (means.append t))
  by_cases named : HoldsName rtype
  · exact .inr ⟨named, kept⟩
  · exact .inl (.inr ⟨kept, fun meant means => nothing meant (means.elsewhere named p)⟩)

end RData

/-- What a record read of a packet has to do with the one read there when more bytes come behind.
Only data that was kept as bytes, of a type whose data holds a name, may have become another. -/
structure Record.Persists (r r' : Record) : Prop where
  name : r'.name = r.name
  rtype : r'.rtype = r.rtype
  rclass : r'.rclass = r.rclass
  cacheFlush : r'.cacheFlush = r.cacheFlush
  ttl : r'.ttl = r.ttl
  data : r'.data = r.data ∨ RData.HoldsName r.rtype ∧ ∃ bytes, r.data = .other bytes

theorem Frame.persists_record (p t : Packet) (f : Frame) :
    (f.record p).Persists (f.record (p ++ t)) where
  name := rfl
  rtype := rfl
  rclass := rfl
  cacheFlush := rfl
  ttl := rfl
  data := by
    obtain found | ⟨named, kept⟩ := (becomes_record p f).data.append t
    · exact .inl ((becomes_record (p ++ t) f).data.unique found)
    · exact .inr ⟨named, _, kept⟩

theorem Frame.forall₂_persists_records (p t : Packet) (fs : List Frame) :
    List.Forall₂ Record.Persists (fs.map (record p)) (fs.map (record (p ++ t))) := by
  rw [List.forall₂_map_left_iff, List.forall₂_map_right_iff]
  exact List.forall₂_same.2 fun f _ => persists_record p t f

/-- Bytes behind a packet change nothing of what was read of it: names and where they end, the
question of a query, and of a message all but the data of records that holds a name and could not
be read. -/
theorem Message.read_append (p t : Packet) :
    (∀ offset found, Name.decode p offset = .ok found →
      Name.decode (p ++ t) offset = .ok found) ∧
    (∀ question, Question.first? p = .ok question → Question.first? (p ++ t) = .ok question) ∧
    ∀ m, (read p).value = .ok m → ∃ m', (read (p ++ t)).value = .ok m' ∧
      m'.header = m.header ∧ m'.questions = m.questions ∧
      List.Forall₂ Record.Persists m.answers m'.answers ∧
      List.Forall₂ Record.Persists m.authority m'.authority ∧
      List.Forall₂ Record.Persists m.additional m'.additional := by
  refine ⟨fun offset _ h => Name.decode_stable offset h t,
    fun _ h => Question.first?_stable h t, fun m h => ?_⟩
  rw [value_read_eq_map] at h ⊢
  obtain ⟨s, cut, rfl⟩ := exists_ok_of_map h
  rw [Skeleton.read_stable cut t]
  exact ⟨_, rfl, rfl, rfl, Frame.forall₂_persists_records p t _,
    Frame.forall₂_persists_records p t _, Frame.forall₂_persists_records p t _⟩

def latePointer : Packet := #[0, 0, 0x84, 0, 0, 0, 0, 1, 0, 0, 0, 0,
  0, 0, 12, 0, 1, 0, 0, 0, 0, 0, 2, 0xC0, 25]

theorem Message.latePointer_resolves_in_trailing_bytes :
    ∃ m m', (read latePointer).value = .ok m ∧
      (read (latePointer ++ #[1, 97, 0])).value = .ok m' ∧
      List.Forall₂ Record.Persists m.answers m'.answers ∧
      m.answers.map (·.data) = [.other [0xC0, 25]] ∧ m'.answers.map (·.data) = [.ptr "a"] := by
  have kept : (read latePointer).value = .ok ⟨⟨0, 0x8400, 0, 1, 0, 0⟩, [],
      [⟨".", RecordType.ptr, 1, false, 0, .other [0xC0, 25]⟩], [], []⟩ := by decide +kernel
  have found : (read (latePointer ++ #[1, 97, 0])).value.map (·.answers.map (·.data)) =
      .ok [.ptr "a"] := by decide +kernel
  obtain ⟨m', again, -, -, answers, -, -⟩ := (read_append latePointer #[1, 97, 0]).2.2 _ kept
  rw [again] at found
  exact ⟨_, m', kept, again, answers, rfl, Except.ok.inj found⟩

end MulticastDns

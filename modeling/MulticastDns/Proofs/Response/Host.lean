import MulticastDns.Proofs.Response.Reading

namespace MulticastDns

theorem Emit.bind_assoc {α β γ : Type} (m : Emit α) (f : α → Emit β) (g : β → Emit γ) :
    ((m >>= f) >>= g) = (m >>= fun a => f a >>= g) := by
  funext w
  simp only [bind, Emit.bind]
  cases m w with
  | mk outcome w' => cases outcome <;> rfl

namespace Response

def octets : Address → List UInt8
  | .v4 a => a.octets.toList
  | .v6 a => a.octets.toList

def addressData : Address → RData
  | .v4 a => .a a
  | .v6 a => .aaaa a

def pointedBytes (address : Address) (rclass : UInt16) (ttl : UInt32) : List UInt8 :=
  bytesOfU16 questionPointer ++ recordTail (addressType address) rclass ttl (octets address)

def hostBytes (q : Question) (answers : UInt16) (address : Address) (rclass : UInt16)
    (ttl : UInt32) : List UInt8 :=
  frameBytes q answers ++ pointedBytes address rclass ttl

theorem length_octets (address : Address) : (octets address).length ≤ 16 := by
  cases address <;> simp [octets]

theorem follows_emitAddress (address : Address) :
    (emitAddress address).Follows
      (.whole (bytesOfU16 (.ofNat (octets address).length) ++ octets address)) := by
  cases address with
  | v4 a =>
    rw [show (octets (.v4 a)).length = 4 by simp [octets]]
    exact (Emit.follows_bytes (bytesOfU16 4)).bind (Emit.follows_bytes a.octets.toList)
  | v6 a =>
    rw [show (octets (.v6 a)).length = 16 by simp [octets]]
    exact (Emit.follows_bytes (bytesOfU16 16)).bind (Emit.follows_bytes a.octets.toList)

def emitFound (q : Question) (address : Address) (rclass : UInt16) (ttl : UInt32) : Emit Unit := do
  emitQuestion q
  Emit.u16 questionPointer
  Emit.u16 (addressType address)
  Emit.u16 rclass
  Emit.u32 ttl
  emitAddress address

theorem emitHost_eq (q : Question) (address : Address) (rclass : UInt16) (ttl : UInt32) :
    emitHost q address rclass ttl = (emitFound q address rclass ttl >>= fun _ => do
      Emit.patch answersOffset 1
      return .complete (← Emit.position) 1) := by
  simp only [emitHost, emitFound, Emit.bind_assoc]

theorem follows_emitFound (q : Question) (address : Address) (rclass : UInt16) (ttl : UInt32) :
    (emitFound q address rclass ttl).Follows ((Draft.whole (headerBytes 0)).andThen
      ((Name.draft q.name).andThen (.whole (bytesOfU16 q.qtype ++ (bytesOfU16 q.qclass ++
        pointedBytes address rclass ttl))))) := by
  have u16 (n : UInt16) : (Emit.u16 n).Follows (.whole (bytesOfU16 n)) := Emit.follows_bytes _
  have := (follows_emitQuestion q).bind ((u16 questionPointer).bind
    ((u16 (addressType address)).bind ((u16 rclass).bind
      ((Emit.follows_bytes (bytesOfU32 ttl)).bind (follows_emitAddress address)))))
  simp only [Draft.andThen_assoc, Draft.whole_andThen_whole, List.append_assoc] at this
  exact this

section Build

variable {q : Question} {h : Host} {address : Address} {buffer : Array UInt8}

theorem addressType_of_address? (k : address? q h = some address) :
    addressType address = q.qtype := by
  unfold address? at k
  split at k
  · rename_i hq
    obtain ⟨a, -, rfl⟩ := Option.map_eq_some_iff.1 k
    exact hq.symm
  · split at k
    · rename_i hq
      obtain ⟨a, -, rfl⟩ := Option.map_eq_some_iff.1 k
      exact hq.symm
    · cases k

theorem ofHost_of_address (k : address? q h = some address) (cacheFlush : Bool)
    (buffer : Array UInt8) :
    ofHost q h cacheFlush buffer =
      let (outcome, w) :=
        emitHost q address (RecordClass.internetWith cacheFlush) h.ttl (.ofBuffer buffer)
      (outcome, w.buffer) := by
  simp only [ofHost, k]

theorem emitHost_of_ok {rclass : UInt16} {ttl : UInt32} {w w' : Writer}
    (k : emitFound q address rclass ttl w = (.ok (), w')) :
    emitHost q address rclass ttl w =
      (.ok (.complete w'.position 1), w'.patch answersOffset 1) := by
  rw [emitHost_eq, Emit.bind_of_ok k]
  rfl

theorem emitHost_of_error {rclass : UInt16} {ttl : UInt32} {w w' : Writer} {e : WireError}
    (k : emitFound q address rclass ttl w = (.error e, w')) :
    emitHost q address rclass ttl w = (.error e, w') := by
  rw [emitHost_eq, Emit.bind_of_error k]

theorem follows_emitFound_of_encodable (name : Name.Encodable q.name) (address : Address)
    (rclass : UInt16) (ttl : UInt32) :
    (emitFound q address rclass ttl).Follows (.whole (hostBytes q 0 address rclass ttl)) := by
  have := follows_emitFound q address rclass ttl
  rwa [Name.draft_of_encodable name, Draft.whole_andThen_whole, Draft.whole_andThen_whole,
    ← List.append_assoc (bytesOfU16 _), ← List.append_assoc, ← List.append_assoc] at this

@[simp] theorem length_pointedBytes (address : Address) (rclass : UInt16) (ttl : UInt32) :
    (pointedBytes address rclass ttl).length = 12 + (octets address).length := by
  rw [pointedBytes, List.length_append, length_recordTail, length_bytesOfU16]
  omega

@[simp] theorem length_hostBytes (q : Question) (answers : UInt16) (address : Address)
    (rclass : UInt16) (ttl : UInt32) :
    (hostBytes q answers address rclass ttl).length =
      frameLength q + 12 + (octets address).length := by
  rw [hostBytes, List.length_append, length_frameBytes, length_pointedBytes, Nat.add_assoc]

theorem ofHost_of_fits (k : address? q h = some address) (cacheFlush : Bool)
    (name : Name.Encodable q.name)
    (room : frameLength q + 12 + (octets address).length ≤ buffer.size) :
    let built := ofHost q h cacheFlush buffer
    built.1 = .ok (.complete (frameLength q + 12 + (octets address).length) 1) ∧
      packet? built =
        some (hostBytes q 1 address (RecordClass.internetWith cacheFlush) h.ttl).toArray ∧
      built.2.size = buffer.size := by
  intro built
  obtain ⟨w, hw, cw, bw⟩ := (follows_emitFound_of_encodable name address
    (RecordClass.internetWith cacheFlush) h.ttl).1 (.ofBuffer buffer) (by rwa [length_hostBytes])
  rw [Writer.bytes_ofBuffer, List.nil_append] at bw
  have counted : (w.patch answersOffset 1).buffer.extract 0 w.position =
      (hostBytes q 1 address (RecordClass.internetWith cacheFlush) h.ttl).toArray :=
    Array.toList_inj.1 (bytes_counted 1 bw)
  have sent : built = (.ok (.complete w.position 1), (w.patch answersOffset 1).buffer) :=
    (ofHost_of_address k cacheFlush buffer).trans (by rw [emitHost_of_ok hw])
  rw [sent, ← length_hostBytes q 0 address (RecordClass.internetWith cacheFlush) h.ttl, ← bw,
    w.length_bytes]
  exact ⟨rfl, congrArg some counted, (Writer.capacity_patch _ _ _).trans cw⟩

theorem ofHost_of_full (k : address? q h = some address) (cacheFlush : Bool)
    (full : Name.Encodable q.name → buffer.size < frameLength q + 12 + (octets address).length) :
    ∃ e, (ofHost q h cacheFlush buffer).1 = .error e := by
  suffices ∃ e w, emitFound q address (RecordClass.internetWith cacheFlush) h.ttl
      (.ofBuffer buffer) = (.error e, w) by
    obtain ⟨e, w, hw⟩ := this
    exact ⟨e, by rw [ofHost_of_address k, emitHost_of_error hw]⟩
  by_cases name : Name.Encodable q.name
  · obtain ⟨w, hw, -⟩ := (follows_emitFound_of_encodable name address
      (RecordClass.internetWith cacheFlush) h.ttl).2 (.ofBuffer buffer)
        (by rw [length_hostBytes]; exact full name)
    exact ⟨_, w, hw⟩
  · obtain ⟨e, draft, -⟩ := Name.draft_of_not_encodable name
    have follows := follows_emitFound q address (RecordClass.internetWith cacheFlush) h.ttl
    rw [draft] at follows
    obtain ⟨w, hw, -⟩ := follows (.ofBuffer buffer)
    exact ⟨_, w, hw⟩

end Build

def hostRecord (q : Question) (address : Address) (cacheFlush : Bool) (ttl : UInt32) : Record :=
  ⟨Name.canonical q.name, addressType address, RecordClass.internet, cacheFlush, ttl,
    addressData address⟩

theorem read_octets (p : Packet) (address : Address) (start : Nat) :
    RData.read p (addressType address) start (octets address).toArray =
      .ok (addressData address) := by
  cases address with
  | v4 a => exact RData.read_of_means (.a rfl)
  | v6 a => exact RData.read_of_means (.aaaa rfl)

theorem read_hostBytes {q : Question} (name : Name.Encodable q.name) (address : Address)
    (cacheFlush : Bool) (ttl : UInt32) :
    (Message.read (hostBytes q 1 address (RecordClass.internetWith cacheFlush) ttl).toArray).value =
      .ok (message q [hostRecord q address cacheFlush ttl]) := by
  have whole := Packet.holds_toArray
    (hostBytes q 1 address (RecordClass.internetWith cacheFlush) ttl)
  generalize (hostBytes q 1 address (RecordClass.internetWith cacheFlush) ttl).toArray = p at *
  obtain ⟨frame, pointed⟩ := Packet.holds_append.1 whole
  obtain ⟨-, question⟩ := Packet.holds_append.1 frame
  obtain ⟨qname, -⟩ := Packet.holds_append.1 question
  obtain ⟨pointer, tail⟩ := Packet.holds_append.1 pointed
  obtain ⟨high, low⟩ := Packet.holds_cons.1 pointer
  rw [length_frameBytes, Nat.zero_add] at *
  have owner : Name.decode p (frameLength q) = .ok (Name.canonical q.name, frameLength q + 2) :=
    Name.decode_of_pointer high.getElem?_eq (by decide) low.getElem?_eq rfl
      (Name.decode_of_encode (Name.encode_of_encodable name) qname)
  have short : (octets address).length ≤ 0xFFFF := Nat.le_trans (length_octets address) (by decide)
  have record := Record.read_of_holds owner tail short (read_octets p address _)
  rw [RecordClass.withoutTopBit_internetWith, RecordClass.hasTopBit_internetWith] at record
  exact message_of_holds name frame (.cons record .nil) (by simp)

theorem packet_of_ofHost {q : Question} {h : Host} {cacheFlush : Bool} {buffer : Array UInt8}
    {outcome : Outcome} {length : Nat} (sent : (ofHost q h cacheFlush buffer).1 = .ok outcome)
    (hlength : outcome.length? = some length) :
    ∃ address, address? q h = some address ∧ Name.Encodable q.name ∧ length ≤ buffer.size ∧
      (ofHost q h cacheFlush buffer).2.size = buffer.size ∧ outcome.answers = 1 ∧
      (ofHost q h cacheFlush buffer).2.extract 0 length =
        (hostBytes q 1 address (RecordClass.internetWith cacheFlush) h.ttl).toArray := by
  cases k : address? q h with
  | none =>
    rw [ofHost, k] at sent
    cases sent
    cases hlength
  | some address =>
    by_cases fits : Name.Encodable q.name ∧
        frameLength q + 12 + (octets address).length ≤ buffer.size
    · obtain ⟨outcome_eq, packet, size⟩ := ofHost_of_fits k cacheFlush fits.1 fits.2
      cases outcome_eq.symm.trans sent
      cases hlength
      exact ⟨address, rfl, fits.1, fits.2, size, rfl, extract_of_packet? packet sent rfl⟩
    · have refused : ∃ e, (ofHost q h cacheFlush buffer).1 = .error e :=
        ofHost_of_full k cacheFlush fun name => Nat.lt_of_not_le (not_and.1 fits name)
      obtain ⟨e, refused⟩ := refused
      rw [refused] at sent
      cases sent

theorem read_ofHost {q : Question} {h : Host} {cacheFlush : Bool} {buffer : Array UInt8}
    {outcome : Outcome} {length : Nat} (sent : (ofHost q h cacheFlush buffer).1 = .ok outcome)
    (hlength : outcome.length? = some length) :
    ∃ address, address? q h = some address ∧ length ≤ buffer.size ∧
      (ofHost q h cacheFlush buffer).2.size = buffer.size ∧ outcome.answers = 1 ∧
      (Message.read ((ofHost q h cacheFlush buffer).2.extract 0 length)).value =
        .ok (message q [hostRecord q address cacheFlush h.ttl]) := by
  obtain ⟨address, found, name, within, size, answers, packet⟩ := packet_of_ofHost sent hlength
  refine ⟨address, found, within, size, answers, ?_⟩
  rw [packet]
  exact read_hostBytes name address cacheFlush h.ttl

end Response

end MulticastDns

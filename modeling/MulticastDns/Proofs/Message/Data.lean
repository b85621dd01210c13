import MulticastDns.Proofs.Message

namespace MulticastDns.RData

def stringBytes (strings : List (List UInt8)) : List UInt8 :=
  strings.flatMap fun s => .ofNat s.length :: s

/-- What these bytes, which start at `start` in the packet, mean as data of a type. -/
inductive Means (p : Packet) (start : Nat) (bytes : Array UInt8) : UInt16 → RData → Prop
  | a {address : IPv4} : bytes = address.octets.toArray →
      Means p start bytes RecordType.a (.a address)
  | aaaa {address : IPv6} : bytes = address.octets.toArray →
      Means p start bytes RecordType.aaaa (.aaaa address)
  | ptr {name : String} {next : Nat} : 0 < bytes.size → Name.decode p start = .ok (name, next) →
      next ≤ start + bytes.size → Means p start bytes RecordType.ptr (.ptr name)
  | srv {priority weight port : UInt16} {target : String} {next : Nat} : 6 < bytes.size →
      Packet.u16 bytes 0 = .ok priority → Packet.u16 bytes 2 = .ok weight →
      Packet.u16 bytes 4 = .ok port → Name.decode p (start + 6) = .ok (target, next) →
      next ≤ start + bytes.size →
      Means p start bytes RecordType.srv (.srv priority weight port target)
  | txt {strings : List (List UInt8)} : (∀ s ∈ strings, s.length ≤ 255) →
      bytes.toList = stringBytes strings → Means p start bytes RecordType.txt
        (.txt ((strings.filter (!·.isEmpty)).map fun s => Text.ofUtf8Lossy s.toArray))

section Strings

variable {bytes : List UInt8} {strings : List (List UInt8)} {offset : Nat}

theorem splitStrings_stringBytes (short : ∀ s ∈ strings, s.length ≤ 255) (offset : Nat) :
    splitStrings (stringBytes strings) offset = .ok strings := by
  induction strings generalizing offset with
  | nil => rw [stringBytes, List.flatMap_nil, splitStrings]
  | cons s strings ih =>
    have length : (UInt8.ofNat s.length).toNat = s.length :=
      UInt8.toNat_ofNat_of_lt' (Nat.lt_succ_of_le (short s List.mem_cons_self))
    have cut : stringBytes (s :: strings) = .ofNat s.length :: (s ++ stringBytes strings) := rfl
    rw [cut, splitStrings_of_inside (by simp [length]), length, List.drop_left, List.take_left,
      ih fun t ht => short t (List.mem_cons_of_mem s ht)]
    rfl

theorem eq_stringBytes_of_splitStrings (h : splitStrings bytes offset = .ok strings) :
    (∀ s ∈ strings, s.length ≤ 255) ∧ bytes = stringBytes strings := by
  induction bytes, offset using splitStrings.induct generalizing strings with
  | case1 offset =>
    rw [splitStrings] at h
    cases h
    exact ⟨List.forall_mem_nil _, rfl⟩
  | case2 offset n rest overrun =>
    rw [splitStrings_of_overrun overrun] at h
    cases h
  | case3 offset n rest inside e fails _ =>
    rw [splitStrings_of_inside (Nat.not_lt.1 inside), fails] at h
    cases h
  | case4 offset n rest inside later found ih =>
    rw [splitStrings_of_inside (Nat.not_lt.1 inside), found] at h
    cases h
    obtain ⟨short, tiles⟩ := ih found
    have length : (rest.take n.toNat).length = n.toNat :=
      List.length_take_of_le (Nat.not_lt.1 inside)
    refine ⟨List.forall_mem_cons.2 ⟨?_, short⟩, ?_⟩
    · rw [length]
      exact Nat.le_of_lt_succ n.toNat_lt
    · change n :: rest = .ofNat _ :: (_ ++ stringBytes later)
      rw [length, UInt8.ofNat_toNat, ← tiles, List.take_append_drop]

theorem splitStrings_eq_ok_iff : splitStrings bytes offset = .ok strings ↔
    (∀ s ∈ strings, s.length ≤ 255) ∧ bytes = stringBytes strings :=
  ⟨eq_stringBytes_of_splitStrings, fun ⟨short, tiles⟩ => tiles ▸ splitStrings_stringBytes short _⟩

end Strings

section Reading

variable {p : Packet} {start stop offset : Nat} {bytes : Array UInt8} {rtype : UInt16}
  {data other : RData} {name : String} {e : WireError}

theorem readName_eq_ok_iff : readName p offset stop = .ok name ↔
    offset < stop ∧ ∃ next, Name.decode p offset = .ok (name, next) ∧ next ≤ stop := by
  unfold readName
  by_cases room : offset < stop
  · rw [if_neg (Nat.not_le.2 room)]
    constructor
    · intro h
      obtain ⟨⟨found, next⟩, named, h⟩ := exists_ok_of_bind h
      dsimp only at h
      split at h
      · cases h
      case isFalse inside =>
        cases h
        exact ⟨room, next, named, Nat.not_lt.1 inside⟩
    · rintro ⟨-, next, named, inside⟩
      rw [named]
      exact if_neg (Nat.not_lt.2 inside)
  · rw [if_pos (Nat.not_lt.1 room)]
    exact ⟨nofun, fun h => absurd h.1 room⟩

section Kinds

variable (p : Packet) (start : Nat) (bytes : Array UInt8)

theorem read_a_eq : read p RecordType.a start bytes =
    if h : bytes.size = 4 then .ok (.a ⟨⟨bytes, h⟩⟩) else .ok (.other bytes.toList) := rfl

theorem read_aaaa_eq : read p RecordType.aaaa start bytes =
    if h : bytes.size = 16 then .ok (.aaaa ⟨⟨bytes, h⟩⟩) else .ok (.other bytes.toList) := rfl

theorem read_ptr_eq : read p RecordType.ptr start bytes =
    (readName p start (start + bytes.size)).map .ptr := rfl

theorem read_srv_eq : read p RecordType.srv start bytes =
    if bytes.size < 6 then .ok (.other bytes.toList)
    else do
      let priority ← Packet.u16 bytes 0
      let weight ← Packet.u16 bytes 2
      let port ← Packet.u16 bytes 4
      return .srv priority weight port (← readName p (start + 6) (start + bytes.size)) := rfl

theorem read_txt_eq : read p RecordType.txt start bytes =
    (splitStrings bytes.toList start).map fun strings =>
      .txt ((strings.filter (!·.isEmpty)).map fun s => Text.ofUtf8Lossy s.toArray) := by
  change (readTexts bytes.toList start).map RData.txt = _
  rw [readTexts_eq_map]
  cases splitStrings bytes.toList start <;> rfl

end Kinds

theorem read_of_means (h : Means p start bytes rtype data) :
    read p rtype start bytes = .ok data := by
  cases h with
  | @a address octets =>
    subst octets
    rw [read_a_eq, dif_pos address.octets.size_toArray]
  | @aaaa address octets =>
    subst octets
    rw [read_aaaa_eq, dif_pos address.octets.size_toArray]
  | ptr some named inside =>
    have room := Nat.lt_add_of_pos_right (n := start) some
    rw [read_ptr_eq, readName_eq_ok_iff.2 ⟨room, _, named, inside⟩]
    rfl
  | srv more priority weight port named inside =>
    have room := Nat.add_lt_add_left more start
    rw [read_srv_eq, if_neg (by omega), priority, weight, port,
      readName_eq_ok_iff.2 ⟨room, _, named, inside⟩]
    rfl
  | txt short tiles =>
    rw [read_txt_eq, splitStrings_eq_ok_iff.2 ⟨short, tiles⟩]
    rfl

theorem means_of_read (h : read p rtype start bytes = .ok data) :
    Means p start bytes rtype data ∨ data = .other bytes.toList := by
  by_cases a : rtype = RecordType.a
  · rw [a, read_a_eq] at h
    split at h <;> cases h
    · exact .inl (a ▸ .a rfl)
    · exact .inr rfl
  by_cases aaaa : rtype = RecordType.aaaa
  · rw [aaaa, read_aaaa_eq] at h
    split at h <;> cases h
    · exact .inl (aaaa ▸ .aaaa rfl)
    · exact .inr rfl
  by_cases ptr : rtype = RecordType.ptr
  · rw [ptr, read_ptr_eq] at h
    obtain ⟨name, found, rfl⟩ := exists_ok_of_map h
    obtain ⟨room, next, named, inside⟩ := readName_eq_ok_iff.1 found
    exact .inl (ptr ▸ .ptr (by omega) named inside)
  by_cases srv : rtype = RecordType.srv
  · rw [srv, read_srv_eq] at h
    split at h
    · cases h
      exact .inr rfl
    · obtain ⟨priority, first, h⟩ := exists_ok_of_bind h
      obtain ⟨weight, second, h⟩ := exists_ok_of_bind h
      obtain ⟨port, third, h⟩ := exists_ok_of_bind h
      obtain ⟨target, found, h⟩ := exists_ok_of_bind h
      cases h
      obtain ⟨room, next, named, inside⟩ := readName_eq_ok_iff.1 found
      exact .inl (srv ▸ .srv (by omega) first second third named inside)
  by_cases txt : rtype = RecordType.txt
  · rw [txt, read_txt_eq] at h
    obtain ⟨strings, found, rfl⟩ := exists_ok_of_map h
    obtain ⟨short, tiles⟩ := splitStrings_eq_ok_iff.1 found
    exact .inl (txt ▸ .txt short tiles)
  -- a type whose data has no form of its own
  rw [read, if_neg a, if_neg aaaa, if_neg ptr, if_neg srv, if_neg txt] at h
  cases h
  exact .inr rfl

/-- The data found in a record: what its bytes mean, or the bytes if they mean nothing. -/
def Found (p : Packet) (start : Nat) (bytes : Array UInt8) (rtype : UInt16) (data : RData) : Prop :=
  Means p start bytes rtype data ∨
    data = .other bytes.toList ∧ ∀ meant, ¬ Means p start bytes rtype meant

theorem Means.unique (h : Means p start bytes rtype data) (k : Means p start bytes rtype other) :
    data = other :=
  Except.ok.inj ((read_of_means h).symm.trans (read_of_means k))

theorem Found.unique (h : Found p start bytes rtype data) (k : Found p start bytes rtype other) :
    data = other := by
  obtain means | ⟨rfl, nothing⟩ := h
  · obtain also | ⟨-, nothing⟩ := k
    · exact means.unique also
    · exact absurd means (nothing data)
  · obtain also | ⟨rfl, -⟩ := k
    · exact absurd also (nothing other)
    · rfl

theorem found_of_read (h : read p rtype start bytes = .ok data) :
    Found p start bytes rtype data := by
  refine (means_of_read h).imp_right fun kept => ⟨kept, fun meant means => ?_⟩
  have same : meant = .other bytes.toList :=
    Except.ok.inj ((read_of_means means).symm.trans (kept ▸ h))
  cases same ▸ means

theorem found_of_fault (h : read p rtype start bytes = .error e) :
    Found p start bytes rtype (.other bytes.toList) :=
  .inr ⟨rfl, fun _ means => nomatch (read_of_means means).symm.trans h⟩

end Reading

end MulticastDns.RData

import MulticastDns.Proofs.Name.Grammar

/-! The rounds in which a name is read: one for each label and for each pointer, and a last one that
settles what comes of it. There are only so many, and a name is called a loop only if it goes
round. -/

namespace MulticastDns.Name

def places (visits : List Visit) (last : Nat) : List Nat := visits.map (·.position) ++ [last]

@[simp] theorem places_nil (last : Nat) : places [] last = [last] := rfl

@[simp] theorem places_cons (v : Visit) (visits : List Visit) (last : Nat) :
    places (v :: visits) last = v.position :: places visits last := rfl

@[simp] theorem length_places (visits : List Visit) (last : Nat) :
    (places visits last).length = visits.length + 1 := by
  simp [places]

namespace Path

variable {p : Packet} {pos place last : Nat} {visits round : List Visit}

theorem append {later : List Visit} (h : Path p pos visits place) (k : Path p place later last) :
    Path p pos (visits ++ later) last := by
  induction h with
  | stay => exact k
  | move m _ ih => exact .move m (ih k)

theorem take (h : Path p pos visits last) (n : Nat) : ∃ place, Path p pos (visits.take n) place := by
  induction h generalizing n with
  | stay pos => exact ⟨pos, by simpa using .stay pos⟩
  | @move pos next last l visits m _ ih =>
    cases n with
    | zero => exact ⟨pos, .stay pos⟩
    | succ n =>
      obtain ⟨place, rest⟩ := ih n
      exact ⟨place, .move m rest⟩

theorem exists_to_place (h : Path p pos visits last) (member : place ∈ places visits last) :
    ∃ front, Path p pos front place := by
  induction h with
  | stay pos =>
    obtain rfl := List.mem_singleton.1 member
    exact ⟨[], .stay _⟩
  | move m _ ih =>
    rcases List.mem_cons.1 member with rfl | member
    · exact ⟨[], .stay _⟩
    · obtain ⟨front, rest⟩ := ih member
      exact ⟨_, .move m rest⟩

theorem exists_round (h : Path p pos visits last) (again : ¬(places visits last).Nodup) :
    ∃ place front round, Path p pos front place ∧ Path p place round place ∧ round ≠ [] := by
  induction h with
  | stay pos => simp at again
  | @move pos next last l visits m rest ih =>
    by_cases here : pos ∈ places visits last
    · obtain ⟨front, back⟩ := rest.exists_to_place here
      exact ⟨pos, [], _, .stay pos, .move m back, List.cons_ne_nil _ _⟩
    · have later : ¬(places visits last).Nodup := fun distinct =>
        again (List.nodup_cons.2 ⟨here, distinct⟩)
      obtain ⟨place, front, round, toPlace, back, some⟩ := ih later
      exact ⟨place, _, round, .move m toPlace, back, some⟩

theorem exists_longer (h : Path p place round place) (some : round ≠ []) (n : Nat) :
    ∃ visits, n ≤ visits.length ∧ Path p place visits place := by
  induction n with
  | zero => exact ⟨[], Nat.le_refl 0, .stay place⟩
  | succ n ih =>
    obtain ⟨visits, long, back⟩ := ih
    have := List.length_pos_iff.2 some
    refine ⟨round ++ visits, ?_, h.append back⟩
    rw [List.length_append]
    omega

theorem endless (h : Path p pos visits last) (again : ¬(places visits last).Nodup) (n : Nat) :
    ∃ visits last, visits.length = n ∧ Path p pos visits last := by
  obtain ⟨place, front, round, toPlace, back, some⟩ := h.exists_round again
  obtain ⟨more, long, rest⟩ := back.exists_longer some n
  obtain ⟨last, whole⟩ := (toPlace.append rest).take n
  refine ⟨_, last, ?_, whole⟩
  rw [List.length_take, List.length_append]
  omega

theorem not_nodup_of_long (h : Path p pos visits last) (inside : last < p.size)
    (long : p.size ≤ visits.length) : ¬(places visits last).Nodup := by
  intro distinct
  have within : places visits last ⊆ List.range p.size := by
    intro place member
    rw [List.mem_range]
    rcases List.mem_append.1 member with member | member
    · obtain ⟨v, hv, rfl⟩ := List.mem_map.1 member
      exact h.position_lt hv
    · rwa [List.mem_singleton.1 member]
  have := (distinct.subperm within).length_le
  rw [length_places, List.length_range] at this
  omega

end Path

theorem Walk.length_path_le {p : Packet} {pos stop last : Nat} {visits visits' : List Visit}
    (h : Walk p pos visits stop) (k : Path p pos visits' last) :
    visits'.length ≤ visits.length := by
  induction h generalizing visits' with
  | stop h =>
    cases k with
    | stay => exact Nat.le_refl 0
    | move m => exact absurd h m.not_stop
  | move m _ ih =>
    cases k with
    | stay => exact Nat.zero_le _
    | move m' k =>
      obtain ⟨rfl, rfl⟩ := m.unique m'
      exact Nat.succ_le_succ (ih k)

/-- What is known before a round: where it is, how long the text is so far, and how many pointers
were followed. -/
structure Cursor where
  position : Nat
  used : Nat
  hops : Nat

def Cursor.start (offset : Nat) : Cursor := ⟨offset, 0, 0⟩

/-- A round behind which there is another: a label is added to the text or a pointer followed. -/
inductive Round (p : Packet) : Cursor → Option String → Cursor → Prop
  | label {c : Cursor} {raw : Array UInt8} {text : String} :
      step p c.position = .ok (.label raw) → extended c.used raw.size ≤ maxLength →
      Text.ofUtf8? raw = some text →
      Round p c (some text) ⟨c.position + 1 + raw.size, extended c.used raw.size, c.hops⟩
  | pointer {c : Cursor} {target : Nat} : step p c.position = .ok (.jump target) →
      c.hops < p.size → Round p c none ⟨target, c.used, c.hops + 1⟩

inductive Rounds (p : Packet) : Cursor → List Visit → Cursor → Prop
  | none (c : Cursor) : Rounds p c [] c
  | round {c d last : Cursor} {label? : Option String} {visits : List Visit} :
      Round p c label? d → Rounds p d visits last → Rounds p c (⟨c.position, label?⟩ :: visits) last

/-- What a last round comes to: the name ends, or why it is given up. -/
inductive Verdict (p : Packet) (c : Cursor) : Except WireError Unit → Prop
  | ends : step p c.position = .ok .stop → Verdict p c (.ok ())
  | malformed {e : WireError} : step p c.position = .error e → Verdict p c (.error e)
  | tooLong {raw : Array UInt8} : step p c.position = .ok (.label raw) →
      maxLength < extended c.used raw.size → Verdict p c (.error (.nameTooLong maxLength))
  | notText {raw : Array UInt8} : step p c.position = .ok (.label raw) →
      extended c.used raw.size ≤ maxLength → Text.ofUtf8? raw = none →
      Verdict p c (.error (.invalidUtf8 (c.position + 1)))
  | loop {target : Nat} : step p c.position = .ok (.jump target) → p.size ≤ c.hops →
      Verdict p c (.error (.pointerLoop c.position))

def jumps (visits : List Visit) : Nat := visits.countP (·.label?.isNone)

@[simp] theorem jumps_nil : jumps [] = 0 := rfl

@[simp] theorem jumps_label (pos : Nat) (text : String) (visits : List Visit) :
    jumps (⟨pos, some text⟩ :: visits) = jumps visits := rfl

@[simp] theorem jumps_pointer (pos : Nat) (visits : List Visit) :
    jumps (⟨pos, none⟩ :: visits) = jumps visits + 1 :=
  List.countP_cons_of_pos rfl

/-- What the pointers followed and the labels added have cost. A label takes a byte at least, and
all but the first take a dot. -/
structure Cursor.Spent (p : Packet) (c : Cursor) (jumps labels : Nat) : Prop where
  hops_eq : c.hops = jumps
  hops_le : c.hops ≤ p.size
  used_le : c.used ≤ maxLength
  labels_le : 2 * labels ≤ c.used + 1

section Rounds

variable {p : Packet} {c d last : Cursor} {label? : Option String} {visits : List Visit}

theorem Cursor.Spent.start (p : Packet) (offset : Nat) : (Cursor.start offset).Spent p 0 0 :=
  ⟨rfl, Nat.zero_le _, Nat.zero_le _, Nat.zero_le _⟩

theorem Round.move (h : Round p c label? d) : Move p c.position label? d.position := by
  cases h with
  | label hstep _ text => exact move_of_label hstep text
  | pointer hstep => exact move_of_jump hstep

theorem Round.spent_label {text : String} {j l : Nat} (h : Round p c (some text) d)
    (k : c.Spent p j l) : d.Spent p j (l + 1) := by
  cases h with
  | @label raw _ hstep fits _ =>
    refine ⟨k.hops_eq, k.hops_le, fits, ?_⟩
    have positive := size_pos_of_step hstep
    have cost := k.labels_le
    dsimp only
    unfold extended
    split <;> omega

theorem Round.spent_pointer {j l : Nat} (h : Round p c none d) (k : c.Spent p j l) :
    d.Spent p (j + 1) l := by
  cases h with
  | pointer _ budget =>
    exact ⟨congrArg (· + 1) k.hops_eq, budget, k.used_le, k.labels_le⟩

theorem Rounds.path (h : Rounds p c visits last) : Path p c.position visits last.position := by
  induction h with
  | none c => exact .stay c.position
  | round first _ ih => exact .move first.move ih

theorem Rounds.spent {j l : Nat} (h : Rounds p c visits last) (k : c.Spent p j l) :
    last.Spent p (j + jumps visits) (l + (spelled visits).length) := by
  induction h generalizing j l with
  | none => exact k
  | @round c d last label? visits first _ ih =>
    cases label? with
    | none =>
      have := ih (first.spent_pointer k)
      rwa [Nat.add_right_comm, Nat.add_assoc, ← jumps_pointer c.position] at this
    | some text =>
      have := ih (first.spent_label k)
      rwa [Nat.add_right_comm, Nat.add_assoc, ← List.length_cons,
        ← spelled_label c.position] at this

theorem Verdict.walk_eq {verdict : Except WireError Unit} (h : Verdict p c verdict) :
    walk p c.position c.used c.hops = verdict.map fun _ => ([], c.position + 1) := by
  cases h with
  | ends hstep => exact walk_of_stop hstep
  | malformed hstep => exact walk_of_error hstep
  | tooLong hstep long => exact walk_of_long_label hstep long
  | notText hstep fits bytes => exact walk_of_malformed hstep fits bytes
  | loop hstep spent => exact walk_of_round hstep spent

theorem Rounds.walk_eq {verdict : Except WireError Unit} (h : Rounds p c visits last)
    (k : Verdict p last verdict) :
    walk p c.position c.used c.hops =
      verdict.map fun _ => (spelled visits, behind visits last.position) := by
  induction h with
  | none => exact k.walk_eq
  | round first _ ih =>
    cases first with
    | label hstep fits text =>
      rw [walk_of_label hstep text fits, ih k]
      cases verdict <;> rfl
    | pointer hstep budget =>
      rw [walk_of_jump hstep budget, ih k]
      cases verdict <;> rfl

theorem exists_rounds (p : Packet) (pos used hops : Nat) :
    ∃ visits last verdict, Rounds p ⟨pos, used, hops⟩ visits last ∧ Verdict p last verdict := by
  fun_induction walk p pos used hops with
  | case1 pos used hops e hstep => exact ⟨[], _, _, .none _, .malformed hstep⟩
  | case2 pos used hops hstep => exact ⟨[], _, _, .none _, .ends hstep⟩
  | case3 pos used hops raw hstep long => exact ⟨[], _, _, .none _, .tooLong hstep long⟩
  | case4 pos used hops raw hstep fits bytes =>
    exact ⟨[], _, _, .none _, .notText hstep (Nat.not_lt.1 fits) bytes⟩
  | case5 pos used hops raw hstep fits text htext e _ ih
  | case6 pos used hops raw hstep fits text htext labels next _ ih =>
    obtain ⟨visits, last, verdict, rest, settled⟩ := ih
    exact ⟨_, last, verdict, .round (.label hstep (Nat.not_lt.1 fits) htext) rest, settled⟩
  | case7 pos used hops target hstep spent => exact ⟨[], _, _, .none _, .loop hstep spent⟩
  | case8 pos used hops target hstep budget e _ ih
  | case9 pos used hops target hstep budget labels next _ ih =>
    obtain ⟨visits, last, verdict, rest, settled⟩ := ih
    exact ⟨_, last, verdict, .round (.pointer hstep (Nat.not_le.1 budget)) rest, settled⟩

theorem decode_eq_of_rounds {offset : Nat} {verdict : Except WireError Unit}
    (h : Rounds p (.start offset) visits last) (k : Verdict p last verdict) :
    decode p offset =
      verdict.map fun _ => (ofLabels (spelled visits), behind visits last.position) := by
  have read : walk p offset 0 0 = _ := h.walk_eq k
  rw [decode_eq_map, read]
  cases verdict <;> rfl

theorem step_ne_pointerLoop (p : Packet) (pos place : Nat) :
    step p pos ≠ .error (.pointerLoop place) := by
  intro h
  unfold step at h
  grind

theorem Verdict.of_pointerLoop {pos : Nat} (h : Verdict p c (.error (.pointerLoop pos))) :
    pos = c.position ∧ c.position < p.size ∧ p.size ≤ c.hops := by
  cases h with
  | malformed hstep => exact absurd hstep (step_ne_pointerLoop p _ _)
  | loop hstep spent => exact ⟨rfl, (move_of_jump hstep).position_lt, spent⟩

theorem exists_again_of_pointerLoop {offset pos : Nat}
    (h : decode p offset = .error (.pointerLoop pos)) :
    ∃ visits last, Rounds p (.start offset) visits last ∧ last.position = pos ∧
      ¬(places visits pos).Nodup := by
  obtain ⟨visits, last, verdict, rounds, settled⟩ := exists_rounds p offset 0 0
  rw [decode_eq_of_rounds rounds settled] at h
  cases verdict with
  | ok => cases h
  | error e =>
    cases h
    obtain ⟨rfl, inside, spent⟩ := settled.of_pointerLoop
    have followed : last.hops = jumps visits := by
      simpa using (rounds.spent (.start p offset)).hops_eq
    have fewer : jumps visits ≤ visits.length := List.countP_le_length
    exact ⟨visits, last, rounds, rfl, rounds.path.not_nodup_of_long inside (by omega)⟩

theorem decode_of_again {offset place : Nat} (h : Path p offset visits place)
    (again : ¬(places visits place).Nodup) : ∃ e, decode p offset = .error e := by
  cases read : decode p offset with
  | error e => exact ⟨e, rfl⟩
  | ok found =>
    -- a name that is read has a walk, and no path is longer than that
    obtain ⟨walked, stop, walk, -⟩ := exists_walk_of_decode read
    obtain ⟨visits', last, long, path⟩ := h.endless again (walked.length + 1)
    have := walk.length_path_le path
    omega

theorem utf8ByteSize_pos_of_decode {offset next : Nat} {name : String}
    (h : decode p offset = .ok (name, next)) : 0 < name.utf8ByteSize := by
  obtain ⟨visits, stop, walk, -, rfl, -⟩ := exists_walk_of_decode h
  cases labels : spelled visits with
  | nil => decide
  | cons label rest =>
    have nonempty : label ≠ "" := walk.ne_empty_of_mem_spelled (by simp [labels])
    have positive : label.utf8ByteSize ≠ 0 := fun z =>
      nonempty (String.utf8ByteSize_eq_zero_iff.1 z)
    have length := utf8ByteSize_dotted label rest
    have ends := encodedLength_pos rest
    rw [ofLabels_cons]
    omega

end Rounds

/-- Reading a name ends, after at most one pointer for each byte of the packet and at most 128
labels. It calls a name a loop only if it came to one place twice, from where the moves never stop;
and if any moves from the offset do that, it fails. A name that is read has 1 to 255 bytes. -/
theorem decode_ends (p : Packet) (offset : Nat) :
    (∃ visits last verdict, Rounds p (.start offset) visits last ∧ Verdict p last verdict ∧
      decode p offset =
        verdict.map fun _ => (ofLabels (spelled visits), behind visits last.position)) ∧
    (∀ visits last, Rounds p (.start offset) visits last →
      jumps visits ≤ p.size ∧ (spelled visits).length ≤ 128) ∧
    (∀ pos, decode p offset = .error (.pointerLoop pos) →
      (∃ visits last, Rounds p (.start offset) visits last ∧ last.position = pos ∧
        ¬(places visits pos).Nodup) ∧
      ∀ n, ∃ visits place, visits.length = n ∧ Path p offset visits place) ∧
    (∀ visits place, Path p offset visits place → ¬(places visits place).Nodup →
      ∃ e, decode p offset = .error e) ∧
    ∀ name next, decode p offset = .ok (name, next) →
      1 ≤ name.utf8ByteSize ∧ name.utf8ByteSize ≤ 255 := by
  refine ⟨?_, fun visits last rounds => ?_, fun pos called => ?_,
    fun visits place path again => decode_of_again path again,
    fun name next read => ⟨utf8ByteSize_pos_of_decode read, utf8ByteSize_of_decode read⟩⟩
  · obtain ⟨visits, last, verdict, rounds, settled⟩ := exists_rounds p offset 0 0
    exact ⟨visits, last, verdict, rounds, settled, decode_eq_of_rounds rounds settled⟩
  · have spent := rounds.spent (.start p offset)
    have hops := spent.hops_eq
    have within := spent.hops_le
    have used := spent.used_le
    have labels := spent.labels_le
    have bounded : maxLength = 255 := rfl
    omega
  · obtain ⟨visits, last, rounds, rfl, again⟩ := exists_again_of_pointerLoop called
    exact ⟨⟨visits, last, rounds, rfl, again⟩, rounds.path.endless again⟩

example : decode #[0xC0, 2, 0xC0, 0] 0 = .error (.pointerLoop 0) := by decide +kernel

end MulticastDns.Name

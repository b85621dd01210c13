import Mathlib.Data.List.Basic
import MulticastDns.Proofs.Draft
import MulticastDns.Wire.Name

/-! A writer as a list of bytes that takes only so many. Whatever is asked of a writer, one request
after another, comes to what it comes to on the list, and what lies past the cursor's furthest
place stays as it was found. -/

namespace MulticastDns

namespace Writer

inductive Request
  | u8 (n : UInt8)
  | u16 (n : UInt16)
  | u32 (n : UInt32)
  | bytes (bs : List UInt8)
  | name (text : String)
  | reserve
  | patch (start : Nat) (n : UInt16)
  | truncate (position : Nat)

abbrev Reply : Type := Except WireError (Option Nat)

def quiet {σ : Type} (done : Except WireError Unit × σ) : Reply × σ :=
  (done.1.map fun _ => none, done.2)

def perform (w : Writer) : Request → Reply × Writer
  | .u8 n => quiet (Emit.u8 n w)
  | .u16 n => quiet (Emit.u16 n w)
  | .u32 n => quiet (Emit.u32 n w)
  | .bytes bs => quiet (Emit.bytes bs w)
  | .name text => quiet (Name.emit text w)
  | .reserve => ((Emit.reserve w).1.map some, (Emit.reserve w).2)
  | .patch start n => quiet (Emit.patch start n w)
  | .truncate position => (.ok none, w.truncate position)

def run (w : Writer) : List Request → List Reply × Writer
  | [] => ([], w)
  | request :: rest =>
    let (reply, w) := w.perform request
    let (replies, w) := run w rest
    (reply :: replies, w)

def Request.Inside (length : Nat) : Request → Prop
  | .patch start _ => start + 2 ≤ length
  | _ => True

instance (length : Nat) : (request : Request) → Decidable (request.Inside length)
  | .patch start _ => inferInstanceAs (Decidable (start + 2 ≤ length))
  | .u8 _ | .u16 _ | .u32 _ | .bytes _ | .name _ | .reserve | .truncate _ =>
    inferInstanceAs (Decidable True)

def Admits (w : Writer) : List Request → Prop
  | [] => True
  | request :: rest => request.Inside w.position ∧ Admits (w.perform request).2 rest

instance decidableAdmits : (w : Writer) → (requests : List Request) → Decidable (w.Admits requests)
  | _, [] => inferInstanceAs (Decidable True)
  | w, request :: rest =>
    have := decidableAdmits (w.perform request).2 rest
    inferInstanceAs (Decidable (request.Inside w.position ∧ Admits (w.perform request).2 rest))

def peak (w : Writer) : List Request → Nat
  | [] => w.position
  | request :: rest => max w.position (peak (w.perform request).2 rest)

end Writer

/-- A list of bytes, and how many it takes. -/
structure Tape where
  capacity : Nat
  bytes : List UInt8
  deriving DecidableEq

namespace Tape

open Writer (Request Reply quiet)

def bigEndian : Nat → Nat → List UInt8
  | 0, _ => []
  | width + 1, n => bigEndian width (n / 256) ++ [.ofNat n]

def put (bs : List UInt8) (t : Tape) : Except WireError Unit × Tape :=
  if t.bytes.length + bs.length ≤ t.capacity then (.ok (), { t with bytes := t.bytes ++ bs })
  else (.error .bufferFull, t)

def putEach : List (List UInt8) → Tape → Except WireError Unit × Tape
  | [], t => (.ok (), t)
  | piece :: rest, t =>
    match t.put piece with
    | (.ok _, t) => putEach rest t
    | (.error e, t) => (.error e, t)

def pieces (labels : List String) : List (List UInt8) :=
  labels.flatMap (fun label => [[.ofNat label.utf8ByteSize], Text.utf8 label]) ++ [[0]]

def step (t : Tape) : Request → Reply × Tape
  | .u8 n => quiet (t.put (bigEndian 1 n.toNat))
  | .u16 n => quiet (t.put (bigEndian 2 n.toNat))
  | .u32 n => quiet (t.put (bigEndian 4 n.toNat))
  | .bytes bs => quiet (t.put bs)
  | .name text =>
    match Name.labels text with
    | .error e => (.error e, t)
    | .ok labels => quiet (t.putEach (pieces labels))
  | .reserve => ((t.put [0, 0]).1.map fun _ => some t.bytes.length, (t.put [0, 0]).2)
  | .patch start n => (.ok none, { t with
      bytes := t.bytes.take start ++ bigEndian 2 n.toNat ++ t.bytes.drop (start + 2) })
  | .truncate position =>
    (.ok none, { t with bytes := t.bytes.take (min position t.bytes.length) })

def run (t : Tape) : List Request → List Reply × Tape
  | [] => ([], t)
  | request :: rest =>
    let (reply, t) := t.step request
    let (replies, t) := run t rest
    (reply :: replies, t)

theorem bigEndian_toNat (n : UInt8) : bigEndian 1 n.toNat = [n] := by simp [bigEndian]

theorem bytesOfU16_eq (n : UInt16) : bytesOfU16 n = bigEndian 2 n.toNat := rfl

theorem bytesOfU32_eq (n : UInt32) : bytesOfU32 n = bigEndian 4 n.toNat := by
  simp [bytesOfU32, bigEndian, Nat.div_div_eq_div_mul]

variable {t t' : Tape} {bs : List UInt8}

theorem put_of_fits (h : t.bytes.length + bs.length ≤ t.capacity) :
    t.put bs = (.ok (), { t with bytes := t.bytes ++ bs }) := if_pos h

theorem put_of_full (h : ¬t.bytes.length + bs.length ≤ t.capacity) :
    t.put bs = (.error .bufferFull, t) := if_neg h

theorem putEach_of_ok (h : t.put bs = (.ok (), t')) (rest : List (List UInt8)) :
    t.putEach (bs :: rest) = t'.putEach rest := by
  rw [putEach, h]

theorem putEach_of_error {e : WireError} (h : t.put bs = (.error e, t'))
    (rest : List (List UInt8)) : t.putEach (bs :: rest) = (.error e, t') := by
  rw [putEach, h]

theorem putEach_singleton (bs : List UInt8) (t : Tape) : t.putEach [bs] = t.put bs := by
  cases h : t.put bs with
  | mk outcome t' =>
    cases outcome with
    | error e => exact putEach_of_error h []
    | ok => exact putEach_of_ok h []

@[simp] theorem capacity_put (bs : List UInt8) (t : Tape) :
    (t.put bs).2.capacity = t.capacity := by
  unfold put
  split <;> rfl

@[simp] theorem capacity_putEach (pieces : List (List UInt8)) (t : Tape) :
    (t.putEach pieces).2.capacity = t.capacity := by
  induction pieces generalizing t with
  | nil => rfl
  | cons piece rest ih =>
    have kept := capacity_put piece t
    cases h : t.put piece with
    | mk outcome t' =>
      rw [h] at kept
      cases outcome with
      | error e => rwa [putEach_of_error h]
      | ok => rwa [putEach_of_ok h, ih]

@[simp] theorem capacity_step (t : Tape) (request : Request) :
    (t.step request).2.capacity = t.capacity := by
  cases request with
  | name text =>
    rw [step]
    cases Name.labels text with
    | error e => rfl
    | ok labels => exact capacity_putEach (pieces labels) t
  | patch | truncate => rfl
  | _ => exact capacity_put _ t

@[simp] theorem capacity_run (t : Tape) (requests : List Request) :
    (t.run requests).2.capacity = t.capacity := by
  induction requests generalizing t with
  | nil => rfl
  | cons request rest ih => exact (ih _).trans (capacity_step t request)

end Tape

namespace Writer

structure Represents (w : Writer) (t : Tape) : Prop where
  capacity : w.capacity = t.capacity
  bytes : w.bytes = t.bytes

/-- The second writer has come no less far than the first, and the bytes from its cursor on are
those of the first. -/
structure Leaves (w w' : Writer) : Prop where
  position_le : w.position ≤ w'.position
  beyond : ∀ i, w'.position ≤ i → w'.buffer[i]? = w.buffer[i]?

theorem getElem?_overwrite_of_le {buffer : Array UInt8} {start i : Nat} {bs : List UInt8}
    (h : start + bs.length ≤ i) : (overwrite buffer start bs)[i]? = buffer[i]? := by
  induction bs generalizing buffer start with
  | nil => rfl
  | cons b bs ih =>
    rw [List.length_cons] at h
    rw [overwrite, ih (by omega), Array.getElem?_setIfInBounds_ne (by omega)]

namespace Leaves

theorem refl (w : Writer) : w.Leaves w := ⟨Nat.le_refl _, fun _ _ => rfl⟩

theorem trans {u v w : Writer} (h : u.Leaves v) (k : v.Leaves w) : u.Leaves w :=
  ⟨Nat.le_trans h.position_le k.position_le, fun i hi =>
    (k.beyond i hi).trans (h.beyond i (Nat.le_trans k.position_le hi))⟩

theorem patch {w : Writer} {start : Nat} (h : start + 2 ≤ w.position) (n : UInt16) :
    w.Leaves (w.patch start n) :=
  ⟨Nat.le_refl _, fun _ hi => getElem?_overwrite_of_le (Nat.le_trans h hi)⟩

end Leaves

end Writer

namespace Emit

open Writer (Represents Leaves)

/-- From a writer that holds a list the step comes to what the other comes to on the list, and it
leaves alone what it does not write. -/
def Tracks (m : Emit Unit) (k : Tape → Except WireError Unit × Tape) : Prop :=
  ∀ ⦃w : Writer⦄ ⦃t : Tape⦄, w.Represents t →
    (m w).1 = (k t).1 ∧ (m w).2.Represents (k t).2 ∧ w.Leaves (m w).2

theorem tracks_bytes (bs : List UInt8) : (bytes bs).Tracks (Tape.put bs) := by
  intro w t h
  have held := w.position_le
  rw [← w.length_bytes, h.bytes] at held
  have room : w.remaining = t.capacity - t.bytes.length := by
    rw [Writer.remaining_eq, h.capacity, h.bytes]
  by_cases fits : bs.length ≤ w.remaining
  · obtain ⟨u, hu, capacity, bytes⟩ := (follows_bytes bs).1 w fits
    have leaves : w.Leaves (Emit.bytes bs w).2 := by
      rw [Emit.bytes, dif_pos fits]
      exact ⟨Nat.le_add_right _ _, fun _ hi => Writer.getElem?_overwrite_of_le hi⟩
    rw [hu] at leaves
    have capacity_le : t.bytes.length ≤ t.capacity := h.capacity ▸ held
    rw [hu, Tape.put_of_fits (by omega)]
    exact ⟨rfl, ⟨capacity.trans h.capacity, by rw [bytes, h.bytes]⟩, leaves⟩
  · rw [Emit.bytes, dif_neg fits, Tape.put_of_full (by omega)]
    exact ⟨rfl, h, .refl w⟩

theorem Tracks.andThen {m k : Emit Unit} {piece : List UInt8} {rest : List (List UInt8)}
    (hm : m.Tracks (Tape.put piece)) (hk : k.Tracks (Tape.putEach rest)) :
    (m >>= fun _ => k).Tracks (Tape.putEach (piece :: rest)) := by
  intro w t h
  obtain ⟨same, represents, leaves⟩ := hm h
  cases put : t.put piece with
  | mk outcome t' =>
    cases hw : m w with
    | mk outcome' u =>
      rw [put, hw] at same represents
      rw [hw] at leaves
      cases same
      cases outcome with
      | error e =>
        rw [bind_of_error hw, Tape.putEach_of_error put]
        exact ⟨rfl, represents, leaves⟩
      | ok =>
        rw [bind_of_ok hw, Tape.putEach_of_ok put]
        obtain ⟨same, represents, further⟩ := hk represents
        exact ⟨same, represents, leaves.trans further⟩

theorem tracks_labels (labels : List String) :
    (Name.emitLabels labels).Tracks (Tape.putEach (Tape.pieces labels)) := by
  induction labels with
  | nil =>
    intro w t h
    rw [Tape.pieces, List.flatMap_nil, List.nil_append, Tape.putEach_singleton]
    exact tracks_bytes [0] h
  | cons label labels ih => exact (tracks_bytes _).andThen ((tracks_bytes _).andThen ih)

end Emit

namespace Writer

variable {w : Writer} {t : Tape}

/-- What came of a step on a writer, and what came of one on a list that the writer held: they end
alike, the writer holds the list again, and past the place where the cursor stood before and where
it stands now no byte is another. -/
structure Matches {α : Type} (w : Writer) (done : Except WireError α × Writer)
    (done' : Except WireError α × Tape) : Prop where
  reply : done.1 = done'.1
  represents : done.2.Represents done'.2
  beyond : ∀ i, w.position ≤ i → done.2.position ≤ i → done.2.buffer[i]? = w.buffer[i]?

theorem Matches.quiet {done : Except WireError Unit × Writer} {done' : Except WireError Unit × Tape}
    (h : w.Matches done done') : w.Matches (quiet done) (quiet done') :=
  ⟨congrArg (Except.map fun _ => none) h.reply, h.represents, h.beyond⟩

theorem position_le_peak (w : Writer) (requests : List Request) : w.position ≤ w.peak requests := by
  cases requests with
  | nil => exact Nat.le_refl _
  | cons request rest => exact Nat.le_max_left _ _

namespace Represents

theorem length_eq (h : w.Represents t) : t.bytes.length = w.position := by
  rw [← h.bytes, length_bytes]

theorem ofBuffer (buffer : Array UInt8) :
    (Writer.ofBuffer buffer).Represents ⟨buffer.size, []⟩ :=
  ⟨rfl, bytes_ofBuffer buffer⟩

theorem tracked (h : w.Represents t) {m : Emit Unit} {k : Tape → Except WireError Unit × Tape}
    (tracks : m.Tracks k) : w.Matches (m w) (k t) :=
  have ⟨reply, represents, leaves⟩ := tracks h
  ⟨reply, represents, fun i _ => leaves.beyond i⟩

theorem name (h : w.Represents t) (text : String) :
    w.Matches (w.perform (.name text)) (t.step (.name text)) := by
  rw [perform, Tape.step, Name.emit]
  cases Name.labels text with
  | error e => exact ⟨rfl, h, fun _ _ _ => rfl⟩
  | ok labels => exact (h.tracked (Emit.tracks_labels labels)).quiet

theorem reserve (h : w.Represents t) :
    w.Matches (w.perform .reserve) (t.step .reserve) := by
  have zeros := h.tracked (Emit.tracks_bytes [0, 0])
  rw [perform, Tape.step, h.length_eq]
  cases written : Emit.bytes [0, 0] w with
  | mk outcome u =>
    rw [written] at zeros
    have reserved : Emit.reserve w = (outcome.map fun _ => w.position, u) := by
      refine (Emit.bind_of_ok (m := Emit.position) rfl).trans ?_
      cases outcome with
      | error e => exact Emit.bind_of_error written
      | ok => exact Emit.bind_of_ok written
    rw [reserved, ← zeros.reply]
    exact ⟨by cases outcome <;> rfl, zeros.represents, zeros.beyond⟩

theorem patch (h : w.Represents t) {start : Nat} (inside : start + 2 ≤ w.position) (n : UInt16) :
    w.Matches (w.perform (.patch start n)) (t.step (.patch start n)) := by
  refine ⟨rfl, ⟨(capacity_patch w start n).trans h.capacity, ?_⟩,
    fun i _ => (Leaves.patch inside n).beyond i⟩
  change (w.patch start n).bytes = _
  rw [bytes_patch_of_le inside, h.bytes]
  rfl

theorem truncate (h : w.Represents t) (position : Nat) :
    w.Matches (w.perform (.truncate position)) (t.step (.truncate position)) := by
  refine ⟨rfl, ⟨(capacity_truncate w position).trans h.capacity, ?_⟩, fun i _ _ => ?_⟩
  · change (w.truncate position).bytes = t.bytes.take (min position t.bytes.length)
    rw [bytes_truncate, h.bytes, List.take_eq_take_min]
  · change (w.truncate position).buffer[i]? = _
    unfold Writer.truncate
    split <;> rfl

theorem step (h : w.Represents t) {request : Request} (inside : request.Inside w.position) :
    w.Matches (w.perform request) (t.step request) := by
  cases request with
  | u8 n =>
    rw [perform, Tape.step, Tape.bigEndian_toNat]
    exact (h.tracked (Emit.tracks_bytes _)).quiet
  | u16 n =>
    rw [perform, Tape.step, ← Tape.bytesOfU16_eq]
    exact (h.tracked (Emit.tracks_bytes _)).quiet
  | u32 n =>
    rw [perform, Tape.step, ← Tape.bytesOfU32_eq]
    exact (h.tracked (Emit.tracks_bytes _)).quiet
  | bytes bs => exact (h.tracked (Emit.tracks_bytes bs)).quiet
  | name text => exact h.name text
  | reserve => exact h.reserve
  | patch start n => exact h.patch inside n
  | truncate position => exact h.truncate position

theorem run (h : w.Represents t) {requests : List Request} (admits : w.Admits requests) :
    (w.run requests).1 = (t.run requests).1 ∧ (w.run requests).2.Represents (t.run requests).2 ∧
      ∀ i, w.peak requests ≤ i → (w.run requests).2.buffer[i]? = w.buffer[i]? := by
  induction requests generalizing w t with
  | nil => exact ⟨rfl, h, fun _ _ => rfl⟩
  | cons request rest ih =>
    obtain ⟨inside, later⟩ := admits
    have first := h.step inside
    obtain ⟨replies, represents, beyond⟩ := ih first.represents later
    refine ⟨?_, represents, fun i hi => ?_⟩
    · exact congr (congrArg List.cons first.reply) replies
    · have before : w.position ≤ i := Nat.le_trans (Nat.le_max_left _ _) hi
      have behind := Nat.le_trans (Nat.le_max_right _ _) hi
      have after := Nat.le_trans (position_le_peak _ rest) behind
      exact (beyond i behind).trans (first.beyond i before after)

end Represents

/-- Whatever is asked of a writer, it answers as the list does and holds what the list holds. The
cursor stays in the buffer, which keeps its size and every byte that the cursor never came to. -/
theorem run_refines_tape (buffer : Array UInt8) (requests : List Request)
    (admits : (ofBuffer buffer).Admits requests) :
    ∃ replies w t, (ofBuffer buffer).run requests = (replies, w) ∧
      Tape.run ⟨buffer.size, []⟩ requests = (replies, t) ∧
      w.written.toList = t.bytes ∧ w.position = t.bytes.length ∧
      w.buffer.size = buffer.size ∧ w.position ≤ buffer.size ∧
      w.remaining = buffer.size - w.position ∧
      ∀ i, (ofBuffer buffer).peak requests ≤ i → w.buffer[i]? = buffer[i]? := by
  obtain ⟨replies, represents, beyond⟩ := (Represents.ofBuffer buffer).run admits
  have size : ((ofBuffer buffer).run requests).2.buffer.size = buffer.size :=
    represents.capacity.trans (Tape.capacity_run _ requests)
  have inside := ((ofBuffer buffer).run requests).2.position_le
  exact ⟨_, _, _, rfl, Prod.ext replies.symm rfl, represents.bytes, represents.length_eq.symm,
    size, size ▸ inside, by rw [remaining, size], beyond⟩

def nines : Array UInt8 := #[9, 9, 9, 9, 9, 9, 9, 9, 9]

def draftRequests : List Request :=
  [.reserve, .bytes [1, 2, 3], .patch 0 3, .truncate 4, .name "abcdef"]

theorem draftRequests_on_tape : (ofBuffer nines).Admits draftRequests ∧
    ∃ w, (ofBuffer nines).run draftRequests =
        ([.ok (some 0), .ok none, .ok none, .ok none, .error .bufferFull], w) ∧
      w.written.toList = [0, 3, 1, 2, 6] ∧ w.buffer[5]? = some 9 := by
  have admits : (ofBuffer nines).Admits draftRequests := by decide +kernel
  have onTape : Tape.run ⟨nines.size, []⟩ draftRequests =
      ([.ok (some 0), .ok none, .ok none, .ok none, .error .bufferFull],
        ⟨nines.size, [0, 3, 1, 2, 6]⟩) := by decide +kernel
  have furthest : (ofBuffer nines).peak draftRequests = 5 := by decide +kernel
  obtain ⟨replies, w, t, ran, tape, bytes, -, -, -, -, beyond⟩ :=
    run_refines_tape nines draftRequests admits
  obtain ⟨rfl, rfl⟩ := Prod.mk.inj (onTape.symm.trans tape)
  exact ⟨admits, w, ran, bytes, (beyond 5 (Nat.le_of_eq furthest)).trans rfl⟩

end Writer

end MulticastDns

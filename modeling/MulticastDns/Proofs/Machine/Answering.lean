import Mathlib.Data.String.Basic
import MulticastDns.Proofs.Machine.Reading
import MulticastDns.Proofs.Machine.Writing
import MulticastDns.Proofs.Responder.Answering
import MulticastDns.Proofs.Responder.Loop

namespace MulticastDns

theorem Question.utf8ByteSize_of_first? {p : Packet} {q : Question} (h : first? p = .ok (some q)) :
    q.name.utf8ByteSize ≤ Name.maxLength := by
  obtain ⟨stop, reads⟩ := first?_eq_some h
  obtain ⟨next, named, -, -⟩ := read_eq_ok reads
  exact Name.utf8ByteSize_of_decode named

theorem Responder.length_le_of_handle {r : Responder} {p : Packet} {buffer : Array UInt8}
    {answer : Answer} (sent : (r.handle p buffer).value.1 = some answer) :
    answer.length ≤ buffer.size := by
  obtain ⟨header, q, -, -, -, responds⟩ := handle_eq_some (Prod.ext sent rfl)
  obtain ⟨own, -, concluded, -⟩ | ⟨found, resolved, concluded, -⟩ := respond_eq_some responds
  · obtain ⟨outcome, length, built, hlength, rfl⟩ := conclude_eq_some concluded
    obtain ⟨-, -, within, -⟩ := Response.read_ofHost built hlength
    exact within
  · obtain ⟨outcome, length, built, hlength, rfl⟩ := conclude_eq_some concluded
    obtain ⟨-, rfl, anyFound⟩ := resolve_eq_services resolved
    have few := Nat.le_trans (Resolution.length_findServices_le q.name r.registry)
      (by decide : Resolution.limit ≤ 0x7FFF)
    obtain ⟨-, -, -, within, -⟩ := Response.read_ofServices few anyFound built hlength
    exact within

namespace Machine

open String (utf8Len utf8Len_append)

section Text

/-- A text cut behind so many bytes, which must not end inside a character. -/
def cut : List Char → Nat → Machine (List Char × List Char)
  | cs, 0 => return ([], cs)
  | [], _ + 1 => throw .outOfRange
  | c :: cs, n + 1 => do
    require (c.utf8Size ≤ n + 1) .outOfRange
    let (before, behind) ← cut cs (n + 1 - c.utf8Size)
    return (c :: before, behind)

def dot? (cs : List Char) : Option Nat :=
  if '.' ∈ cs then some (utf8Len (cs.takeWhile (· ≠ '.'))) else none

variable {before behind : List Char}

@[simp] theorem utf8Size_dot : '.'.utf8Size = 1 := rfl

theorem cut_append (before behind : List Char) :
    cut (before ++ behind) (utf8Len before) = .ok (before, behind) := by
  induction before with
  | nil => cases behind <;> rfl
  | cons c before ih =>
    obtain ⟨n, hn⟩ : ∃ n, utf8Len (c :: before) = n + 1 :=
      Nat.exists_eq_add_one.2 (Nat.lt_of_lt_of_le c.utf8Size_pos (Nat.le_add_left _ _))
    rw [hn, List.cons_append, cut]
    rw [utf8Len] at hn
    rw [require_eq (by omega), show n + 1 - c.utf8Size = utf8Len before by omega]
    change cut (before ++ behind) (utf8Len before) >>= _ = _
    rw [ih]
    rfl

theorem cut_eq {cs : List Char} {n : Nat} (before behind : List Char) (h : cs = before ++ behind)
    (length : n = utf8Len before) : cut cs n = .ok (before, behind) := by
  rw [h, length, cut_append]

theorem dot?_of_not_mem {cs : List Char} (dotless : '.' ∉ cs) : dot? cs = none := if_neg dotless

theorem dot?_append (dotless : '.' ∉ before) :
    dot? (before ++ '.' :: behind) = some (utf8Len before) := by
  have others : ∀ c ∈ before, decide (c ≠ '.') = true := fun c hc =>
    decide_eq_true fun dot => dotless (dot ▸ hc)
  rw [dot?, if_pos (by simp), List.takeWhile_append_of_pos others]
  simp

end Text

section Resolve

variable (words : Nat)

def splitBehind? (cs : List Char) (first : Nat) : Machine (Option (List Char × List Char)) := do
  let next ← add words first 1
  let (_, rest) ← cut cs next
  if rest.head? ≠ some '_' then return none
  else
    match dot? rest with
    | none => return none
    | some found =>
      let offset ← add words found first
      let second ← add words offset 1
      let (kind, _) ← cut cs second
      let next ← add words second 1
      let (_, domain) ← cut cs next
      return some (kind, domain)

def splitKind? (name : String) : Machine (Option (String × String)) := do
  if name.toList.head? ≠ some '_' then return none
  else
    let (_, rest) ← cut name.toList 1
    match dot? rest with
    | none => return none
    | some found =>
      let first ← add words found 1
      let split ← splitBehind? words name.toList first
      return split.map fun (kind, domain) =>
        (String.ofList kind, Name.dropDot (String.ofList domain))

def findKey (r : Registry) (key : String) : Machine (Option Service) :=
  match r.services.findIdx? (Registry.hasKey key) with
  | none => return none
  | some i => if h : i < r.services.length then return some r.services[i] else throw .outOfRange

def findServices (name : String) (r : Registry) : Machine (List Service) := do
  if name.toList.head? = some '_' then
    match ← splitKind? words name with
    | some (kind, domain) => return r.ofKind kind domain Resolution.limit
    | none => return []
  else return (← findKey r (Name.dropDot name)).toList

def resolve (q : Question) (h : Host) (r : Registry) : Machine Resolution := do
  if q.qtype = RecordType.a ∨ q.qtype = RecordType.aaaa then
    return if h.answersTo q.name then .host h else .noMatch
  else if q.qtype = RecordType.srv then
    match ← findServices words q.name r with
    | [] => return .noMatch
    | found => return .services found
  else return .unsupported q.qtype

variable {words : Nat}

theorem splitBehind?_eq {service rest : List Char}
    (word : utf8Len (service ++ '.' :: rest) < words) :
    splitBehind? words (service ++ '.' :: rest) (utf8Len service) =
      .ok (if rest.head? = some '_' then
        (Resolution.splitDot? rest).map fun (protocol, domain) =>
          (service ++ '.' :: protocol, domain)
      else none) := by
  rw [utf8Len_append, String.utf8Len_cons, utf8Size_dot] at word
  refine bind_eq (add_eq (by omega)) ?_
  refine bind_eq (cut_eq (service ++ ['.']) rest (by simp) (by simp [utf8Len_append])) ?_
  dsimp only
  by_cases underscore : rest.head? = some '_'
  · rw [if_neg (not_not_intro underscore), if_pos underscore]
    by_cases dot : '.' ∈ rest
    · obtain ⟨protocol, domain, rfl, dotless⟩ := List.eq_append_cons_of_mem dot
      rw [utf8Len_append, String.utf8Len_cons, utf8Size_dot] at word
      rw [dot?_append dotless, Resolution.splitDot?_append dotless]
      dsimp only
      refine bind_eq (add_eq (by omega)) ?_
      refine bind_eq (add_eq (by omega)) ?_
      refine bind_eq (cut_eq (service ++ '.' :: protocol) ('.' :: domain) (by simp)
        (by simp [utf8Len_append]; omega)) ?_
      dsimp only
      refine bind_eq (add_eq (by omega)) ?_
      refine bind_eq (cut_eq (service ++ '.' :: protocol ++ ['.']) domain (by simp)
        (by simp [utf8Len_append]; omega)) ?_
      rfl
    · rw [dot?_of_not_mem dot, Resolution.splitDot?_of_not_mem dot]
      rfl
  · rw [if_pos underscore, if_neg underscore]
    rfl

theorem splitKind?_eq {name : String} (word : utf8Len name.toList < words) :
    splitKind? words name = .ok (Resolution.splitKind? name) := by
  -- the cuts are behind a first character of one byte and behind dots, so none is in a character
  unfold splitKind? Resolution.splitKind?
  generalize name.toList = cs at word
  by_cases underscore : cs.head? = some '_'
  · obtain ⟨rest, rfl⟩ := List.head?_eq_some_iff.1 underscore
    refine (if_neg (not_not_intro underscore)).trans ?_
    refine bind_eq (cut_eq ['_'] rest rfl rfl) ?_
    dsimp only
    by_cases dot : '.' ∈ rest
    · obtain ⟨service, rest, rfl, dotless⟩ := List.eq_append_cons_of_mem dot
      have length : utf8Len ('_' :: service) = utf8Len service + 1 := by
        rw [← List.singleton_append, utf8Len_append, Nat.add_comm]
        rfl
      rw [← List.cons_append] at word ⊢
      have start : utf8Len ('_' :: service) ≤ utf8Len ('_' :: service ++ '.' :: rest) := by
        rw [utf8Len_append]
        omega
      rw [dot?_append dotless, Resolution.splitDot?_append (by simp [dotless])]
      dsimp only
      refine bind_eq (add_eq (by omega)) ?_
      rw [← length]
      refine bind_eq (splitBehind?_eq word) ?_
      rw [List.cons_append, guard, if_pos underscore]
      change _ = Except.ok (guard (rest.head? = some '_') >>= fun _ => _)
      by_cases line : rest.head? = some '_'
      · rw [if_pos line, guard, if_pos line]
        cases Resolution.splitDot? rest <;> rfl
      · rw [if_neg line, guard, if_neg line]
        rfl
    · rw [dot?_of_not_mem dot, Resolution.splitDot?_of_not_mem (by simp [dot])]
      rfl
  · rw [if_pos underscore]
    change _ = Except.ok (guard (cs.head? = some '_') >>= fun _ => _)
    rw [guard, if_neg underscore]
    rfl

theorem findKey_eq (r : Registry) (key : String) : findKey r key = .ok (r.find? key) := by
  rw [Registry.find?, List.find?_eq_bind_findIdx?_getElem?, findKey]
  cases place : r.services.findIdx? (Registry.hasKey key) with
  | none => rfl
  | some i =>
    obtain ⟨inside, -⟩ := List.findIdx?_eq_some_iff_findIdx_eq.1 place
    rw [Option.bind_some, List.getElem?_eq_getElem inside]
    exact dif_pos inside

theorem findServices_eq {name : String} (word : utf8Len name.toList < words) (r : Registry) :
    findServices words name r = .ok (Resolution.findServices name r) := by
  unfold findServices Resolution.findServices
  split
  · refine bind_eq (splitKind?_eq word) ?_
    cases Resolution.splitKind? name <;> rfl
  · exact bind_eq (findKey_eq r _) rfl

theorem resolve_eq {q : Question} (word : utf8Len q.name.toList < words) (h : Host)
    (r : Registry) : resolve words q h r = .ok (MulticastDns.resolve q h r) := by
  unfold resolve MulticastDns.resolve
  split
  · rfl
  · split
    · refine bind_eq (findServices_eq word r) ?_
      cases Resolution.findServices q.name r <;> rfl
    · rfl

end Resolve

section Handle

variable (words : Nat)

def respond (r : Responder) (q : Question) (buffer : Array UInt8) :
    Machine (Option Answer × Array UInt8) := do
  match ← resolve words q r.host r.registry with
  | .host h =>
    let (outcome, buffer) ← ofHost q h r.cacheFlush buffer
    return ((Responder.conclude q outcome).value, buffer)
  | .services found =>
    let (outcome, buffer) ← ofServices q found r.cacheFlush buffer
    return ((Responder.conclude q outcome).value, buffer)
  | .noMatch => return (none, buffer)
  | .unsupported _ => return (none, buffer)

def handle (r : Responder) (p : Packet) (buffer : Array UInt8) :
    Machine (Option Answer × Array UInt8) := do
  match ← (Scan.header words p).run with
  | .error _ => return (none, buffer)
  | .ok header =>
    if header.isResponse then return (none, buffer)
    else
      match ← (Scan.firstQuestion? words p).run with
      | .error _ => return (none, buffer)
      | .ok none => return (none, buffer)
      | .ok (some q) => respond words r q buffer

variable {words : Nat}

theorem respond_eq {q : Question} (word : utf8Len q.name.toList < words) (r : Responder)
    (buffer : Array UInt8) : respond words r q buffer = .ok (r.respond q buffer).value := by
  refine bind_eq (resolve_eq word r.host r.registry) ?_
  cases found : MulticastDns.resolve q r.host r.registry with
  | host own =>
    rw [Responder.respond_of_host found]
    exact bind_eq (ofHost_eq q own r.cacheFlush buffer) rfl
  | services found' =>
    obtain ⟨-, rfl, -⟩ := resolve_eq_services found
    have few := Nat.le_trans (Resolution.length_findServices_le q.name r.registry)
      (by decide : Resolution.limit ≤ 0x7FFF)
    rw [Responder.respond_of_services found]
    exact bind_eq (ofServices_eq q few r.cacheFlush buffer) rfl
  | noMatch =>
    rw [Responder.respond_of_noMatch found]
    rfl
  | unsupported qtype =>
    rw [Responder.respond_of_unsupported found]
    rfl

theorem handle_eq {p : Packet} (fits : p.Addressable words) (r : Responder)
    (buffer : Array UInt8) : handle words r p buffer = .ok (r.handle p buffer).value := by
  refine bind_eq (Scan.runs_header fits) ?_
  unfold Responder.handle
  cases Header.read p with
  | error e => rfl
  | ok header =>
    dsimp only
    split
    · rfl
    · refine bind_eq (Scan.runs_firstQuestion? fits) ?_
      cases asked : Question.first? p with
      | error e => rfl
      | ok first =>
        cases first with
        | none => rfl
        | some q =>
          -- a name out of a packet has 255 bytes at most, so its length is a word
          have short := Question.utf8ByteSize_of_first? asked
          rw [← q.name.ofList_toList, String.utf8ByteSize_ofList] at short
          have most : Name.maxLength = 255 := rfl
          exact respond_eq (fits.lt (by omega)) r buffer

/-- No packet breaks the reader or the responder: on the machine they come to what they compute, and
an answer stays inside its buffer. -/
theorem never_breaks {p : Packet} (fits : p.Addressable words) (r : Responder) :
    (∀ offset, (Scan.decode words p offset).run = .ok (Name.decode p offset)) ∧
      (Scan.firstQuestion? words p).run = .ok (Question.first? p) ∧
      (Scan.message words p).run = .ok (Message.read p).value ∧
      ∀ buffer, handle words r p buffer = .ok (r.handle p buffer).value ∧
        (r.handle p buffer).value.2.size = buffer.size ∧
        ∀ answer, (r.handle p buffer).value.1 = some answer → answer.length ≤ buffer.size :=
  ⟨Scan.runs_decode fits, Scan.runs_firstQuestion? fits, Scan.runs_message fits, fun buffer =>
    ⟨handle_eq fits r buffer, r.size_handle p buffer, fun _ => Responder.length_le_of_handle⟩⟩

def roundQuery : Packet := #[0, 0, 0, 0, 0, 1, 0, 0, 0, 0, 0, 0, 0xC0, 12, 0, 33, 0, 1]

theorem roundQuery_breaks_nothing :
    roundQuery.Addressable UInt64.size ∧
      (Scan.firstQuestion? UInt64.size roundQuery).run = .ok (.error (.pointerLoop 12)) ∧
      handle UInt64.size Responder.desk roundQuery #[] = .ok (none, #[]) := by
  have fits : roundQuery.Addressable UInt64.size := ⟨by decide, by decide⟩
  have header : Header.read roundQuery = .ok ⟨0, 0, 1, 0, 0, 0⟩ := rfl
  have first : Question.first? roundQuery = .error (.pointerLoop 12) := by decide +kernel
  obtain ⟨-, asked, -, handled⟩ := never_breaks fits Responder.desk
  refine ⟨fits, by rw [asked, first], ?_⟩
  rw [(handled #[]).1]
  simp [Responder.handle, header, first, Header.isResponse]

end Handle

end Machine

end MulticastDns

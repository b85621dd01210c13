import Mathlib.Data.List.TakeWhile
import MulticastDns.Proofs.Resolution

namespace MulticastDns

namespace Resolution

section Split

variable {cs before behind : List Char} {name kind kind' domain : String}

theorem splitDot?_of_not_mem (dotless : '.' ∉ cs) : splitDot? cs = none := by
  have nothing : cs.dropWhile (· ≠ '.') = [] := List.dropWhile_eq_nil_iff.2 fun c hc =>
    decide_eq_true fun dot => dotless (dot ▸ hc)
  rw [splitDot?, nothing]

theorem splitDot?_append (dotless : '.' ∉ before) :
    splitDot? (before ++ '.' :: behind) = some (before, behind) := by
  have others : ∀ c ∈ before, decide (c ≠ '.') = true := fun c hc =>
    decide_eq_true fun dot => dotless (dot ▸ hc)
  rw [splitDot?, List.dropWhile_append_of_pos others, List.takeWhile_append_of_pos others]
  simp

theorem splitDot?_eq_some_iff :
    splitDot? cs = some (before, behind) ↔ cs = before ++ '.' :: behind ∧ '.' ∉ before := by
  constructor
  · intro h
    by_cases dot : '.' ∈ cs
    · obtain ⟨front, rest, rfl, dotless⟩ := List.eq_append_cons_of_mem dot
      rw [splitDot?_append dotless] at h
      cases h
      exact ⟨rfl, dotless⟩
    · rw [splitDot?_of_not_mem dot] at h
      cases h
  · rintro ⟨rfl, dotless⟩
    exact splitDot?_append dotless

theorem splitOn_eq_pair_iff : cs.splitOn '.' = [before, behind] ↔
    cs = before ++ '.' :: behind ∧ '.' ∉ before ∧ '.' ∉ behind := by
  constructor
  · intro h
    by_cases dot : '.' ∈ cs
    · obtain ⟨front, rest, rfl, dotless⟩ := List.eq_append_cons_of_mem dot
      rw [List.splitOn_append_cons_self_of_not_mem dotless, List.cons.injEq] at h
      obtain ⟨rfl, h⟩ := h
      by_cases again : '.' ∈ rest
      · obtain ⟨front', rest', rfl, dotless'⟩ := List.eq_append_cons_of_mem again
        rw [List.splitOn_append_cons_self_of_not_mem dotless', List.cons.injEq] at h
        exact absurd h.2 (List.splitOn_ne_nil _ _)
      · rw [List.splitOn_eq_singleton again, List.cons.injEq] at h
        exact ⟨h.1 ▸ rfl, dotless, h.1 ▸ again⟩
    · rw [List.splitOn_eq_singleton dot] at h
      cases h
  · rintro ⟨rfl, dotless, dotless'⟩
    rw [List.splitOn_append_cons_self_of_not_mem dotless, List.splitOn_eq_singleton dotless']

/-- The service types that a name can ask for: two labels, each with an underscore in front. -/
def IsServiceType (kind : String) : Prop :=
  (Name.parts kind).length = 2 ∧ ∀ label ∈ Name.parts kind, label.toList.head? = some '_'

instance : DecidablePred IsServiceType := fun _ => inferInstanceAs (Decidable (_ ∧ _))

theorem isServiceType_iff : IsServiceType kind ↔ ∃ service protocol : String,
    kind = service ++ "." ++ protocol ∧ '.' ∉ service.toList ∧ '.' ∉ protocol.toList ∧
      service.toList.head? = some '_' ∧ protocol.toList.head? = some '_' := by
  constructor
  · rintro ⟨two, underscores⟩
    rw [Name.parts] at two underscores
    rw [List.length_map, List.length_eq_two] at two
    obtain ⟨service, protocol, split⟩ := two
    obtain ⟨text, dotless, dotless'⟩ := splitOn_eq_pair_iff.1 split
    rw [split] at underscores
    refine ⟨String.ofList service, String.ofList protocol, ?_, by simpa, by simpa,
      by simpa using underscores⟩
    apply String.toList_inj.1
    simp [text]
  · rintro ⟨service, protocol, rfl, dotless, dotless', underscore, underscore'⟩
    have text : (service ++ "." ++ protocol).toList = service.toList ++ '.' :: protocol.toList := by
      simp
    rw [IsServiceType, Name.parts, splitOn_eq_pair_iff.2 ⟨text, dotless, dotless'⟩]
    simp [underscore, underscore']

theorem IsServiceType.head?_append (h : IsServiceType kind) (rest : String) :
    (kind ++ rest).toList.head? = some '_' := by
  obtain ⟨service, protocol, rfl, -, -, underscore, -⟩ := isServiceType_iff.1 h
  simp [underscore]

theorem IsServiceType.of_fold_eq (h : IsServiceType kind)
    (same : Text.fold kind' = Text.fold kind) : IsServiceType kind' := by
  obtain ⟨service, protocol, rfl, dotless, dotless', underscore, underscore'⟩ :=
    isServiceType_iff.1 h
  obtain ⟨service', protocol', rfl, first, second⟩ := Text.exists_cut_of_fold_eq same
  have dot : '.'.isAlpha = false := by decide
  have line : '_'.isAlpha = false := by decide
  refine isServiceType_iff.2 ⟨service', protocol', rfl, ?_, ?_, ?_, ?_⟩
  · rwa [← Text.mem_fold_iff dot, first, Text.mem_fold_iff dot]
  · rwa [← Text.mem_fold_iff dot, second, Text.mem_fold_iff dot]
  · rwa [← Text.head?_fold_eq_some_iff line, first, Text.head?_fold_eq_some_iff line]
  · rwa [← Text.head?_fold_eq_some_iff line, second, Text.head?_fold_eq_some_iff line]

theorem head?_append_dot_iff :
    (before ++ '.' :: behind).head? = some '_' ↔ before.head? = some '_' := by
  cases before <;> simp

theorem splitKind?_eq_some_iff : splitKind? name = some (kind, domain) ↔
    IsServiceType kind ∧ ∃ rest, name = kind ++ "." ++ rest ∧ domain = Name.dropDot rest := by
  simp only [isServiceType_iff, splitKind?, guard, failure, Option.bind_eq_bind,
    Option.pure_def, Option.bind_eq_some_iff, Option.ite_none_right_eq_some, Option.some.injEq,
    Prod.mk.injEq, Prod.exists, splitDot?_eq_some_iff]
  constructor
  · rintro ⟨_, ⟨underscore, -⟩, service, _, ⟨text, dotless⟩, _, ⟨underscore', -⟩, protocol, rest,
      ⟨rfl, dotless'⟩, rfl, rfl⟩
    rw [text, head?_append_dot_iff] at underscore
    rw [head?_append_dot_iff] at underscore'
    refine ⟨⟨String.ofList service, String.ofList protocol, ?_, by simpa, by simpa, by simpa,
      by simpa⟩, String.ofList rest, ?_, rfl⟩
    · apply String.toList_inj.1
      simp
    · apply String.toList_inj.1
      simp [text]
  · rintro ⟨⟨service, protocol, rfl, dotless, dotless', underscore, underscore'⟩, rest, rfl, rfl⟩
    have text : (service ++ "." ++ protocol ++ "." ++ rest).toList =
        service.toList ++ '.' :: (protocol.toList ++ '.' :: rest.toList) := by
      simp
    refine ⟨(), ⟨?_, trivial⟩, service.toList, _, ⟨text, dotless⟩, (), ⟨?_, trivial⟩,
      protocol.toList, rest.toList, ⟨rfl, dotless'⟩, ?_, by rw [String.ofList_toList]⟩
    · rwa [text, head?_append_dot_iff]
    · rwa [head?_append_dot_iff]
    · apply String.toList_inj.1
      simp

end Split

section Find

variable {r : Registry} {s : Service} {name kind kind' domain domain' : String}

theorem head?_key (h : s.instanceName ≠ "") :
    s.key.toList.head? = s.instanceName.toList.head? := by
  rw [Service.key]
  simp only [String.toList_append, List.append_assoc]
  rw [List.head?_append_of_ne_nil _ (by simpa using h)]

theorem ofKind_congr (hkind : Text.fold kind = Text.fold kind')
    (hdomain : Text.fold domain = Text.fold domain') (limit : Nat) :
    r.ofKind kind domain limit = r.ofKind kind' domain' limit := by
  have same : Registry.isOfKind kind domain = Registry.isOfKind kind' domain' := by
    funext s
    simp only [Registry.isOfKind, Text.same, hkind, hdomain]
  rw [Registry.ofKind, Registry.ofKind, same]

theorem findServices_of_splitKind? (split : splitKind? name = some (kind, domain))
    (r : Registry) : findServices name r = r.ofKind kind domain limit := by
  obtain ⟨type, rest, rfl, -⟩ := splitKind?_eq_some_iff.1 split
  have underscore : (kind ++ "." ++ rest).toList.head? = some '_' := by
    rw [String.append_assoc]
    exact type.head?_append _
  rw [findServices, if_pos underscore, split]

theorem findServices_of_spells (spelled : Name.Spells name (kind ++ "." ++ domain))
    (type : IsServiceType kind) (dotless : Name.dropDot domain = domain) :
    findServices name r = r.ofKind kind domain limit := by
  obtain ⟨ending, whole, bare⟩ : ∃ ending, Text.fold name = Text.fold (kind ++ "." ++ ending) ∧
      Name.dropDot ending = domain := by
    rcases spelled with same | same
    · exact ⟨domain, Text.same_iff.1 same, dotless⟩
    · refine ⟨domain ++ ".", ?_, Name.dropDot_append_dot domain⟩
      rw [Text.same_iff.1 same, String.append_assoc]
  obtain ⟨kind', rest, rfl, hkind, hrest⟩ := Text.exists_cut_of_fold_eq whole
  have type' : IsServiceType kind' := type.of_fold_eq hkind
  have hdomain : Text.fold (Name.dropDot rest) = Text.fold domain := by
    rw [Name.fold_dropDot, hrest, ← Name.fold_dropDot, bare]
  rw [findServices_of_splitKind? (splitKind?_eq_some_iff.2 ⟨type', rest, rfl, rfl⟩)]
  exact ofKind_congr hkind hdomain limit

theorem exists_kind_of_mem_findServices (found : s ∈ findServices name r)
    (underscore : name.toList.head? = some '_') (domain : s.domain ≠ "") :
    ∃ kind domain, splitKind? name = some (kind, domain) ∧ IsServiceType kind ∧
      Name.dropDot name = kind ++ "." ++ domain ∧
      Text.fold s.kind = Text.fold kind ∧ Text.fold s.domain = Text.fold domain := by
  rw [findServices, if_pos underscore] at found
  split at found
  · rename_i kind bare split
    obtain ⟨type, rest, rfl, rfl⟩ := splitKind?_eq_some_iff.1 split
    have named : Registry.isOfKind kind (Name.dropDot rest) s = true :=
      (List.mem_filter.1 (List.mem_of_mem_take found)).2
    rw [Registry.isOfKind, Bool.and_eq_true, Text.same_iff, Text.same_iff] at named
    have nonempty : rest ≠ "" := by
      rintro rfl
      rw [Name.dropDot_eq_empty_iff.2 (.inl rfl), Text.fold_eq_empty_iff.2 rfl,
        Text.fold_eq_empty_iff] at named
      exact domain named.2
    exact ⟨kind, Name.dropDot rest, split, type, Name.dropDot_append nonempty _, named⟩
  · cases found

theorem dropDot_ne_key_of_mem_findServices (found : s ∈ findServices name r)
    (underscore : name.toList.head? = some '_') (domain : s.domain ≠ "") :
    Text.fold (Name.dropDot name) ≠ Text.fold s.key := by
  intro folded
  obtain ⟨kind, domain, -, -, cut, hkind, hdomain⟩ :=
    exists_kind_of_mem_findServices found underscore domain
  have lengths := congrArg String.length folded
  have sameKind := congrArg String.length hkind
  have sameDomain := congrArg String.length hdomain
  rw [Text.length_fold, Text.length_fold] at lengths sameKind sameDomain
  rw [cut, Service.key] at lengths
  simp only [String.length_append] at lengths
  have dot : ".".length = 1 := rfl
  omega

theorem isServiceType_of_mem_findServices (found : s ∈ findServices name r)
    (spelled : Name.Spells name (kind ++ "." ++ domain)) (underscore : kind.toList.head? = some '_')
    (dotless : Name.dropDot domain = domain) (nonempty : domain ≠ "")
    (sameDomain : Text.fold s.domain = Text.fold domain) : IsServiceType kind := by
  have named : kind ++ "." ++ domain ≠ "" := Name.append_dot_append_ne_empty _ _
  have start : name.toList.head? = some '_' := by
    rw [spelled.head?_eq_some_iff named (by decide)]
    simp [underscore]
  have nonempty' : s.domain ≠ "" := fun h =>
    nonempty (Text.fold_eq_empty_iff.1 (sameDomain.symm.trans (Text.fold_eq_empty_iff.2 h)))
  obtain ⟨kind', domain', -, type, cut, -, hdomain⟩ :=
    exists_kind_of_mem_findServices found start nonempty'
  have folded : Text.fold (kind ++ "." ++ domain) = Text.fold (kind' ++ "." ++ domain') := by
    rw [← cut, spelled.fold_dropDot (by rw [Name.dropDot_append nonempty, dotless])]
  have lengths : domain.length = domain'.length := by
    rw [← Text.length_fold, ← sameDomain, hdomain, Text.length_fold]
  exact type.of_fold_eq (Text.fold_eq_of_append (Text.fold_eq_of_append folded lengths) rfl)

theorem mem_take_filter_of_few {p : Service → Bool} {before after : List Service} {n : Nat}
    (passes : p s = true) (few : (before.filter p).length < n) :
    s ∈ ((before ++ s :: after).filter p).take n := by
  obtain ⟨m, room⟩ : ∃ m, n - (before.filter p).length = m + 1 :=
    Nat.exists_eq_add_one.2 (Nat.sub_pos_of_lt few)
  rw [List.filter_append, List.filter_cons_of_pos passes, List.take_append, room,
    List.take_succ_cons]
  simp

end Find

section Answers

variable {q : Question} {r : Registry} {s : Service}

theorem resolve_of_srv (srv : q.qtype = RecordType.srv) (h : Host) (r : Registry) :
    resolve q h r = if findServices q.name r = [] then .noMatch
      else .services (findServices q.name r) := by
  rw [resolve, srv, if_neg (by decide), if_pos rfl]
  split
  · rename_i nothing
    rw [if_pos nothing]
  · rename_i something
    rw [if_neg something]

/-- A registered service is what its full name resolves to, in any case and with or without a
trailing dot, unless the instance starts with an underscore: then the name is taken for a general
query, and the service is not among what it finds. -/
theorem resolve_full_name (reachable : r.Reachable) (member : s ∈ r.services)
    (srv : q.qtype = RecordType.srv) (spelled : Name.Spells q.name s.key) (h : Host) :
    (s.instanceName.toList.head? ≠ some '_' → resolve q h r = .services [s]) ∧
      (s.instanceName.toList.head? = some '_' →
        ∀ found, resolve q h r = .services found → s ∉ found) := by
  have valid := reachable.valid
  have sound := valid.sound s member
  have fields := (s.fault?_eq_none_iff.1 sound).1
  have folded : Text.fold (Name.dropDot q.name) = Text.fold s.key :=
    spelled.fold_dropDot (Service.dropDot_key sound)
  have start : q.name.toList.head? = some '_' ↔ s.instanceName.toList.head? = some '_' := by
    rw [spelled.head?_eq_some_iff (key_ne_empty s) (by decide), head?_key fields.1]
  refine ⟨fun targeted => ?_, fun general found resolved here => ?_⟩
  · have found : r.find? (Name.dropDot q.name) = some s :=
      (Registry.find?_eq_some_iff valid).2 ⟨member, Text.same_iff.2 folded.symm⟩
    rw [resolve_of_srv srv, findServices, if_neg (fun line => targeted (start.1 line)),
      found]
    rfl
  · obtain ⟨-, rfl, -⟩ := resolve_eq_services resolved
    exact dropDot_ne_key_of_mem_findServices here (start.2 general) fields.2.2.1 folded

def office : Host := .named "office" none none 120

def frontDesk : Service :=
  ⟨"Front Desk", "_ipp._tcp", "local", 0, 0, 631, "office.local", [], 120⟩

def backRoom : Service :=
  ⟨"_Back.Room", "_IPP._tcp", "Local", 0, 0, 631, "office.local", ["duplex"], 60⟩

def rooms : Registry := (Registry.empty.after (.register frontDesk)).after (.register backRoom)

theorem reachable_rooms : rooms.Reachable := .step _ (.step _ .empty)

theorem services_rooms : rooms.services = [frontDesk, backRoom] := by
  have sound : frontDesk.fault? = none := frontDesk.fault?_eq_none_iff.2
    ⟨by decide, Text.same_refl _, by decide, by decide⟩
  have sound' : backRoom.fault? = none := backRoom.fault?_eq_none_iff.2
    ⟨by decide, Text.same_iff_toList.2 (by decide +kernel), by decide, by decide⟩
  have fresh : (Registry.mk [frontDesk]).find? backRoom.key = none :=
    Registry.find?_eq_none_iff.2 fun s hs same => by
      rw [List.mem_singleton.1 hs, ← Text.same_iff, Text.same_iff_toList] at same
      exact absurd same (by decide +kernel)
  rw [rooms, Registry.after_register sound rfl]
  exact congrArg Registry.services (Registry.after_register sound' fresh)

theorem frontDesk_found_by_full_name :
    rooms.Reachable ∧ frontDesk ∈ rooms.services ∧
      Name.Spells "FRONT desk._ipp._TCP.local." frontDesk.key ∧
      resolve ⟨"FRONT desk._ipp._TCP.local.", RecordType.srv, RecordClass.internet⟩ office rooms =
        .services [frontDesk] := by
  have member : frontDesk ∈ rooms.services := by simp [services_rooms]
  have spelled : Name.Spells "FRONT desk._ipp._TCP.local." frontDesk.key :=
    .inr (Text.same_iff_toList.2 (by decide +kernel))
  exact ⟨reachable_rooms, member, spelled,
    (resolve_full_name reachable_rooms member rfl spelled office).1 (by decide)⟩

theorem backRoom_unfound_by_full_name :
    rooms.Reachable ∧ backRoom ∈ rooms.services ∧ Name.Spells backRoom.key backRoom.key ∧
      resolve ⟨backRoom.key, RecordType.srv, RecordClass.internet⟩ office rooms = .noMatch := by
  have member : backRoom ∈ rooms.services := by simp [services_rooms]
  exact ⟨reachable_rooms, member, .inl (Text.same_refl _), by decide +kernel⟩

/-- The services of a registered service's type and domain, the first 32 as they were registered,
are what type and domain resolve to as a name, if the type is one that a name can ask for. For any
other type nothing is found. -/
theorem resolve_service_type (reachable : r.Reachable) (member : s ∈ r.services)
    (srv : q.qtype = RecordType.srv) (spelled : Name.Spells q.name (s.kind ++ "." ++ s.domain))
    (h : Host) :
    (IsServiceType s.kind →
      resolve q h r =
        .services ((r.services.filter (Registry.isOfKind s.kind s.domain)).take 32) ∧
      ∀ before after, r.services = before ++ s :: after →
        (before.filter (Registry.isOfKind s.kind s.domain)).length < 32 →
        s ∈ (r.services.filter (Registry.isOfKind s.kind s.domain)).take 32) ∧
      (¬ IsServiceType s.kind → resolve q h r = .noMatch) := by
  have valid := reachable.valid
  have sound := valid.sound s member
  obtain ⟨fields, localDomain, underscore, -⟩ := s.fault?_eq_none_iff.1 sound
  have dotless : Name.dropDot s.domain = s.domain := Service.dropDot_domain sound
  have own : Registry.isOfKind s.kind s.domain s = true := by simp [Registry.isOfKind]
  refine ⟨fun type => ⟨?_, fun before after split few => ?_⟩, fun untyped => ?_⟩
  · have something : (r.services.filter (Registry.isOfKind s.kind s.domain)).take 32 ≠ [] := by
      have filtered := List.ne_nil_of_mem (List.mem_filter.2 ⟨member, own⟩)
      simpa using filtered
    rw [resolve_of_srv srv, findServices_of_spells spelled type dotless,
      Registry.ofKind, limit, if_neg something]
  · rw [split]
    exact mem_take_filter_of_few own few
  · have nothing : findServices q.name r = [] := by
      refine List.eq_nil_iff_forall_not_mem.2 fun t found => untyped ?_
      have registered : t ∈ r.services := (findServices_sublist _ _).subset found
      have localDomain' := (t.fault?_eq_none_iff.1 (valid.sound t registered)).2.1
      exact isServiceType_of_mem_findServices found spelled underscore dotless
        fields.2.2.1 ((Text.same_iff.1 localDomain').trans (Text.same_iff.1 localDomain).symm)
    rw [resolve_of_srv srv, if_pos nothing]

def printing : Question := ⟨"_ipp._TCP.LOCAL.", RecordType.srv, RecordClass.internet⟩

theorem printers_found_by_type :
    rooms.Reachable ∧ backRoom ∈ rooms.services ∧ printing.qtype = RecordType.srv ∧
      Name.Spells printing.name (backRoom.kind ++ "." ++ backRoom.domain) ∧
      IsServiceType backRoom.kind ∧
      resolve printing office rooms = .services [frontDesk, backRoom] := by
  have member : backRoom ∈ rooms.services := by simp [services_rooms]
  have spelled : Name.Spells printing.name (backRoom.kind ++ "." ++ backRoom.domain) :=
    .inr (Text.same_iff_toList.2 (by decide +kernel))
  have type : IsServiceType backRoom.kind := by decide +kernel
  have both : ∀ s ∈ rooms.services,
      Registry.isOfKind backRoom.kind backRoom.domain s = true := by
    simp only [services_rooms, Registry.isOfKind, Bool.and_eq_true, Text.same_iff_toList]
    decide +kernel
  have found := ((resolve_service_type reachable_rooms member rfl spelled office).1 type).1
  rw [List.filter_eq_self.2 both, services_rooms] at found
  exact ⟨reachable_rooms, member, rfl, spelled, type, found⟩

def lamp : Service := ⟨"lamp", "_light", "local", 0, 0, 80, "lamp.local", [], 120⟩

theorem lamp_unfound_by_type :
    (Registry.empty.after (.register lamp)).Reachable ∧
      lamp ∈ (Registry.empty.after (.register lamp)).services ∧
      Name.Spells "_light.local" (lamp.kind ++ "." ++ lamp.domain) ∧
      resolve ⟨"_light.local", RecordType.srv, RecordClass.internet⟩ office
        (Registry.empty.after (.register lamp)) = .noMatch := by
  have sound : lamp.fault? = none := lamp.fault?_eq_none_iff.2
    ⟨by decide, Text.same_refl _, by decide, by decide⟩
  refine ⟨.step _ .empty, ?_, .inl (Text.same_refl _), by decide +kernel⟩
  rw [Registry.after_register sound rfl]
  exact List.mem_singleton.2 rfl

end Answers

end Resolution

end MulticastDns

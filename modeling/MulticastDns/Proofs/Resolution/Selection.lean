import MulticastDns.Proofs.Name.Spelling
import MulticastDns.Proofs.Resolution.Naming

namespace MulticastDns

namespace Resolution

section Found

variable {r : Registry} {s : Service} {name other kind domain : String}

theorem find?_congr (same : Text.fold name = Text.fold other) : r.find? name = r.find? other := by
  have alike : Registry.hasKey name = Registry.hasKey other := by
    funext s
    simp only [Registry.hasKey, Text.same, same]
  rw [Registry.find?, Registry.find?, alike]

theorem findServices_of_targeted (targeted : name.toList.head? ≠ some '_') (r : Registry) :
    findServices name r = (r.find? (Name.dropDot name)).toList :=
  if_neg targeted

theorem exists_only_of_targeted (targeted : name.toList.head? ≠ some '_')
    (found : findServices name r ≠ []) :
    ∃ s, findServices name r = [s] ∧ Text.same s.key (Name.dropDot name) = true := by
  rw [findServices_of_targeted targeted] at found ⊢
  cases one : r.find? (Name.dropDot name) with
  | none => simp [one] at found
  | some s => exact ⟨s, rfl, Text.same_iff.2 (Registry.find?_eq_some one).2⟩

theorem not_asked_of_findServices_eq_nil (nothing : findServices name r = [])
    (member : s ∈ r.services) :
    (name.toList.head? ≠ some '_' → Text.same s.key (Name.dropDot name) = false) ∧
      ∀ kind domain, splitKind? name = some (kind, domain) →
        (Text.same s.kind kind && Text.same s.domain domain) = false := by
  constructor
  · intro targeted
    rw [findServices_of_targeted targeted, Option.toList_eq_nil_iff] at nothing
    rw [Bool.eq_false_iff, ne_eq, Text.same_iff]
    exact Registry.find?_eq_none_iff.1 nothing s member
  · intro kind domain split
    rw [findServices_of_splitKind? split, Registry.ofKind, List.take_eq_nil_iff] at nothing
    exact Bool.eq_false_iff.2 (List.filter_eq_nil_iff.1 (nothing.resolve_left (by decide)) s member)

theorem exists_splitKind?_of_mem (valid : r.Valid) (found : s ∈ findServices name r)
    (underscore : name.toList.head? = some '_') :
    ∃ kind domain, splitKind? name = some (kind, domain) ∧
      Name.dropDot name = kind ++ "." ++ domain ∧ IsServiceType s.kind ∧
      Text.fold (s.kind ++ "." ++ s.domain) = Text.fold (Name.dropDot name) := by
  have sound := valid.sound s ((findServices_sublist name r).subset found)
  obtain ⟨kind, domain, split, type, cut, hkind, hdomain⟩ :=
    exists_kind_of_mem_findServices found underscore (s.fault?_eq_none_iff.1 sound).1.2.2.1
  refine ⟨kind, domain, split, cut, type.of_fold_eq hkind, ?_⟩
  simp only [cut, Text.fold_append, hkind, hdomain]

theorem findServices_of_mem (valid : r.Valid) (found : s ∈ findServices name r)
    (underscore : name.toList.head? = some '_')
    (same : Text.fold (Name.dropDot other) = Text.fold (Name.dropDot name)) :
    findServices other r = r.ofKind s.kind s.domain limit := by
  have sound := valid.sound s ((findServices_sublist name r).subset found)
  obtain ⟨-, -, -, -, type, own⟩ := exists_splitKind?_of_mem valid found underscore
  exact findServices_of_spells (Name.spells_of_fold_dropDot (same.trans own.symm)) type
    (Service.dropDot_domain sound)

theorem findServices_congr (valid : r.Valid)
    (same : Text.fold (Name.dropDot name) = Text.fold (Name.dropDot other)) :
    findServices name r = findServices other r := by
  have start : name.toList.head? = some '_' ↔ other.toList.head? = some '_' := by
    have line : '_'.isAlpha = false := by decide
    rw [← Name.head?_dropDot_eq_some_iff (by decide), ← Text.head?_fold_eq_some_iff line, same,
      Text.head?_fold_eq_some_iff line, Name.head?_dropDot_eq_some_iff (by decide)]
  by_cases underscore : name.toList.head? = some '_'
  · -- a service that either finds tells what both find
    cases one : findServices name r with
    | cons s _ =>
      have found : s ∈ findServices name r := one ▸ List.mem_cons_self
      rw [← one, findServices_of_mem valid found underscore rfl,
        findServices_of_mem valid found underscore same.symm]
    | nil =>
      cases two : findServices other r with
      | nil => rfl
      | cons s _ =>
        have found : s ∈ findServices other r := two ▸ List.mem_cons_self
        rw [← one, ← two, findServices_of_mem valid found (start.1 underscore) same,
          findServices_of_mem valid found (start.1 underscore) rfl]
  · rw [findServices_of_targeted underscore, findServices_of_targeted (start.not.1 underscore),
      find?_congr same]

end Found

section Resolve

variable {q q' : Question} {r : Registry}

theorem answersTo_congr {name other : String}
    (same : Text.fold (Name.dropDot name) = Text.fold (Name.dropDot other)) (h : Host) :
    h.answersTo name = h.answersTo other := by
  simp only [Host.answersTo, Text.same, same]

theorem resolve_congr (valid : r.Valid) (type : q.qtype = q'.qtype)
    (same : Text.fold (Name.dropDot q.name) = Text.fold (Name.dropDot q'.name)) (h : Host) :
    resolve q h r = resolve q' h r := by
  unfold resolve
  rw [type, answersTo_congr same h, findServices_congr valid same]

/-- What a question for services resolves to is registered under what it asks for, by full name or
by type and domain, as it was registered and each once. A name that starts with an underscore is cut
into a type and a domain and finds the first 32 services of both; any other finds the one service of
that name. Nothing is found only if there is no such service. -/
theorem resolve_selects (reachable : r.Reachable) (srv : q.qtype = RecordType.srv) (h : Host) :
    ((∃ found, resolve q h r = .services found) ∨ resolve q h r = .noMatch ∧
      ∀ s ∈ r.services,
        (q.name.toList.head? ≠ some '_' → Text.same s.key (Name.dropDot q.name) = false) ∧
        ∀ kind domain, splitKind? q.name = some (kind, domain) →
          (Text.same s.kind kind && Text.same s.domain domain) = false) ∧
      ∀ found, resolve q h r = .services found →
        found ≠ [] ∧ found.Sublist r.services ∧ found.Nodup ∧ found.length ≤ 32 ∧
        (∀ s ∈ found, Text.same s.key (Name.dropDot q.name) = true ∨
          Text.same (s.kind ++ "." ++ s.domain) (Name.dropDot q.name) = true) ∧
        (q.name.toList.head? ≠ some '_' →
          ∃ s, found = [s] ∧ Text.same s.key (Name.dropDot q.name) = true) ∧
        (q.name.toList.head? = some '_' → ∃ kind domain, splitKind? q.name = some (kind, domain) ∧
          Name.dropDot q.name = kind ++ "." ++ domain ∧
          found = (r.services.filter fun s =>
            Text.same s.kind kind && Text.same s.domain domain).take 32) := by
  have valid := reachable.valid
  refine ⟨?_, fun found resolved => ?_⟩
  · rw [resolve_of_srv srv]
    split
    · rename_i nothing
      exact .inr ⟨rfl, fun s => not_asked_of_findServices_eq_nil nothing⟩
    · exact .inl ⟨_, rfl⟩
  obtain ⟨-, rfl, something⟩ := resolve_eq_services resolved
  have ordered := findServices_sublist q.name r
  have distinct : (findServices q.name r).Nodup := valid.keys.of_map.sublist ordered
  refine ⟨something, ordered, distinct, length_findServices_le _ _, fun s member => ?_,
    fun targeted => exists_only_of_targeted targeted something, fun underscore => ?_⟩
  · by_cases underscore : q.name.toList.head? = some '_'
    · obtain ⟨-, -, -, -, -, own⟩ := exists_splitKind?_of_mem valid member underscore
      exact .inr (Text.same_iff.2 own)
    · obtain ⟨t, only, same⟩ := exists_only_of_targeted underscore something
      rw [only, List.mem_singleton] at member
      exact .inl (member ▸ same)
  · obtain ⟨s, member⟩ := List.exists_mem_of_ne_nil _ something
    obtain ⟨kind, domain, split, cut, -⟩ := exists_splitKind?_of_mem valid member underscore
    exact ⟨kind, domain, split, cut, findServices_of_splitKind? split r⟩

theorem printing_selects : rooms.Reachable ∧ printing.qtype = RecordType.srv ∧
    printing.name.toList.head? = some '_' ∧
    resolve printing office rooms = .services [frontDesk, backRoom] ∧
    ∃ kind domain, splitKind? printing.name = some (kind, domain) ∧
      Name.dropDot printing.name = kind ++ "." ++ domain ∧
      [frontDesk, backRoom] = (rooms.services.filter fun s =>
        Text.same s.kind kind && Text.same s.domain domain).take 32 := by
  have underscore : printing.name.toList.head? = some '_' := by decide
  have split : splitKind? printing.name = some ("_ipp._TCP", "LOCAL") := by decide +kernel
  have both : ∀ s ∈ rooms.services, Registry.isOfKind "_ipp._TCP" "LOCAL" s = true := by
    simp only [services_rooms, Registry.isOfKind, Bool.and_eq_true, Text.same_iff_toList]
    decide +kernel
  have found : findServices printing.name rooms = [frontDesk, backRoom] := by
    rw [findServices_of_splitKind? split, Registry.ofKind, List.filter_eq_self.2 both,
      services_rooms]
    rfl
  have resolved : resolve printing office rooms = .services [frontDesk, backRoom] := by
    rw [resolve_of_srv rfl, found]
    rfl
  obtain ⟨-, -, -, -, -, -, general⟩ := (resolve_selects reachable_rooms rfl office).2 _ resolved
  exact ⟨reachable_rooms, rfl, underscore, resolved, general underscore⟩

end Resolve

end Resolution

end MulticastDns

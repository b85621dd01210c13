import MulticastDns.Daemon.Run
import MulticastDns.Proofs.Registry.Runs

namespace MulticastDns

namespace Registry

/-- A service without a fault whose key is neither one of the registry's nor one of an earlier
candidate's. Only candidates without a fault count. -/
def New (r : Registry) (earlier : List Service) (s : Service) : Prop :=
  s.fault? = none ∧ (∀ t ∈ r.services, Text.same t.key s.key = false) ∧
    ∀ t ∈ earlier, t.fault? = none → Text.same t.key s.key = false

instance (r : Registry) (earlier : List Service) (s : Service) : Decidable (r.New earlier s) :=
  inferInstanceAs (Decidable (_ ∧ _ ∧ _))

def newcomers (r : Registry) : List Service → List Service → List Service
  | _, [] => []
  | earlier, s :: rest =>
    if r.New earlier s then s :: r.newcomers (earlier ++ [s]) rest
    else r.newcomers (earlier ++ [s]) rest

variable {r r' : Registry} {s t : Service} {earlier earlier' : List Service}

theorem newcomers_congr (h : ∀ later s, r.New (earlier ++ later) s ↔ r'.New (earlier' ++ later) s)
    (candidates : List Service) :
    r.newcomers earlier candidates = r'.newcomers earlier' candidates := by
  induction candidates generalizing earlier earlier' with
  | nil => rfl
  | cons s rest ih =>
    have first : r.New earlier s ↔ r'.New earlier' s := by simpa using h [] s
    have others : r.newcomers (earlier ++ [s]) rest = r'.newcomers (earlier' ++ [s]) rest :=
      ih fun later t => by simpa using h (s :: later) t
    rw [newcomers, newcomers, others]
    simp only [first]

theorem find?_eq_none_iff_new : s.fault? = none ∧ r.find? s.key = none ↔ r.New [] s := by
  rw [find?_eq_none_iff]
  simp [New, Text.same]

theorem New.of_subset (h : r'.New [] s) (grown : r.services ⊆ r'.services) : r.New [] s :=
  ⟨h.1, fun t ht => h.2.1 t (grown ht), List.forall_mem_nil _⟩

theorem insert_of_new (h : r.New [] s) : r.insert s = .ok ⟨r.services ++ [stored s]⟩ := by
  obtain ⟨sound, fresh⟩ := find?_eq_none_iff_new.2 h
  rw [insert, sound, fresh]

theorem fault_or_key_of_not_new (h : ¬ r.New [] s) :
    s.fault? ≠ none ∨ ∃ t ∈ r.services, Text.fold t.key = Text.fold s.key := by
  by_cases sound : s.fault? = none
  · refine .inr ?_
    cases found : r.find? s.key with
    | none => exact absurd (find?_eq_none_iff_new.1 ⟨sound, found⟩) h
    | some t => exact ⟨t, find?_eq_some found⟩
  · exact .inl sound

theorem insert_of_not_new (h : ¬ r.New [] s) : ∃ e, r.insert s = .error e := by
  cases done : r.insert s with
  | error e => exact ⟨e, rfl⟩
  | ok r' =>
    obtain ⟨sound, fresh, -⟩ := insert_eq_ok done
    exact absurd (find?_eq_none_iff_new.1 ⟨sound, fresh⟩) h

theorem newcomers_of_new (h : r.New [] s) (rest : List Service) :
    r.newcomers [] (s :: rest) = s :: newcomers ⟨r.services ++ [stored s]⟩ [] rest := by
  rw [newcomers, if_pos h]
  refine congrArg (s :: ·) (newcomers_congr (fun later t => ?_) rest)
  have taken : (stored s).key = s.key := rfl
  simp only [New, List.nil_append, List.cons_append, List.forall_mem_append, List.forall_mem_cons,
    taken, h.1, true_imp_iff]
  tauto

theorem newcomers_of_not_new (h : ¬ r.New [] s) (rest : List Service) :
    r.newcomers [] (s :: rest) = r.newcomers [] rest := by
  rw [newcomers, if_neg h]
  refine newcomers_congr (fun later t => ?_) rest
  have free : (∀ u ∈ r.services, Text.same u.key t.key = false) → s.fault? = none →
      Text.same s.key t.key = false := by
    intro distinct sound
    obtain fault | ⟨u, member, same⟩ := fault_or_key_of_not_new h
    · exact absurd sound fault
    · have other := distinct u member
      rwa [Text.same, same] at other
  simp only [New, List.nil_append, List.cons_append, List.forall_mem_cons]
  tauto

end Registry

namespace Config

open Registry (stored newcomers)

variable {r : Registry} {s : Service}

theorem registerAll_of_new (h : r.New [] s) (rest : List Service) :
    (registerAll (s :: rest) r).value =
      ((registerAll rest ⟨r.services ++ [stored s]⟩).value.1 + 1,
        (registerAll rest ⟨r.services ++ [stored s]⟩).value.2) := by
  rw [registerAll, Logged.value_bind, Registry.value_register, Registry.insert_of_new h]
  rfl

theorem registerAll_of_not_new (h : ¬ r.New [] s) (rest : List Service) :
    (registerAll (s :: rest) r).value = (registerAll rest r).value := by
  obtain ⟨e, refused⟩ := Registry.insert_of_not_new h
  rw [registerAll, Logged.value_bind, Registry.value_register, refused]
  rfl

theorem value_registerAll (candidates : List Service) (r : Registry) :
    (registerAll candidates r).value =
      ((r.newcomers [] candidates).length,
        ⟨r.services ++ (r.newcomers [] candidates).map stored⟩) := by
  induction candidates generalizing r with
  | nil => simp [registerAll, newcomers]
  | cons s rest ih =>
    by_cases new : r.New [] s
    · rw [registerAll_of_new new, Registry.newcomers_of_new new, ih]
      simp
    · rw [registerAll_of_not_new new, Registry.newcomers_of_not_new new, ih]

theorem value_registerAll_eq_registerEach (candidates : List Service) (r : Registry) :
    (registerAll candidates r).value =
      ((r.registerEach candidates).value.1.countP (·.isOk),
        (r.registerEach candidates).value.2) := by
  induction candidates generalizing r with
  | nil => rfl
  | cons s rest ih =>
    simp only [registerAll, Registry.registerEach, Logged.value_bind, Registry.value_register]
    cases r.insert s with
    | error e => exact ih r
    | ok r' => simp [ih, Except.map, Except.toOption, Except.isOk, Except.toBool]

theorem reachable_registerServices (c : Config) (h : r.Reachable) :
    (c.registerServices r).value.2.Reachable := by
  rw [registerServices, value_registerAll_eq_registerEach, Registry.value_registerEach_snd]
  exact h.run _

theorem registerAll_newcomers (candidates : List Service) (r : Registry) :
    (registerAll (r.newcomers [] candidates) r).value = (registerAll candidates r).value := by
  induction candidates generalizing r with
  | nil => rfl
  | cons s rest ih =>
    by_cases new : r.New [] s
    · rw [registerAll_of_new new, Registry.newcomers_of_new new, registerAll_of_new new, ih]
    · rw [registerAll_of_not_new new, Registry.newcomers_of_not_new new, ih]

theorem subset_registerAll (candidates : List Service) (r : Registry) :
    r.services ⊆ (registerAll candidates r).value.2.services := by
  rw [value_registerAll]
  exact List.subset_append_left _ _

theorem not_new_registerAll {candidates : List Service} (member : s ∈ candidates)
    (r : Registry) : ¬ (registerAll candidates r).value.2.New [] s := by
  induction candidates generalizing r with
  | nil => cases member
  | cons first rest ih =>
    by_cases new : r.New [] first
    · rw [registerAll_of_new new]
      rcases List.mem_cons.1 member with rfl | member
      · intro again
        have there := subset_registerAll rest ⟨r.services ++ [stored s]⟩
          (List.mem_append_right _ (List.mem_singleton_self (stored s)))
        exact absurd (Text.same_refl s.key) (Bool.eq_false_iff.1 (again.2.1 (stored s) there))
      · exact ih member _
    · rw [registerAll_of_not_new new]
      rcases List.mem_cons.1 member with rfl | member
      · exact fun again => new (again.of_subset (subset_registerAll rest r))
      · exact ih member r

theorem registerAll_of_none_new {candidates : List Service}
    (settled : ∀ s ∈ candidates, ¬ r.New [] s) : (registerAll candidates r).value = (0, r) := by
  induction candidates with
  | nil => rfl
  | cons s rest ih =>
    rw [registerAll_of_not_new (settled s List.mem_cons_self)]
    exact ih fun t ht => settled t (List.mem_cons_of_mem s ht)

/-- Loading puts behind the services of a registry, which stay as they are, the first candidate of
each key that is without a fault and whose key is not taken, in the order of the file, and counts
them. It comes to the same with no other candidates in the file, and to nothing a second time. -/
theorem registerServices_first_wins (c : Config) (r : Registry) :
    (c.registerServices r).value =
        ((r.newcomers [] c.services).length,
          ⟨r.services ++ (r.newcomers [] c.services).map fun s =>
            { s with ttl := if s.ttl = 0 then 120 else s.ttl }⟩) ∧
      (registerServices { c with services := r.newcomers [] c.services } r).value =
        (c.registerServices r).value ∧
      (c.registerServices (c.registerServices r).value.2).value =
        (0, (c.registerServices r).value.2) :=
  ⟨value_registerAll c.services r, registerAll_newcomers c.services r,
    registerAll_of_none_new fun _ member => not_new_registerAll member r⟩

end Config

namespace Host

theorem eq_named_of_discover {l : Link} {name interface : String} {ttl : UInt32}
    {host : Host} (h : (discover l name interface ttl).value = .ok host) :
    host = .named (Text.trim name) (firstIPv4 (l.addresses interface))
      (firstIPv6 (l.addresses interface)) ttl := by
  unfold discover at h
  dsimp only at h
  split at h
  · cases h
  · split at h <;> exact (Except.ok.inj h).symm

end Host

namespace Daemon

variable {around : Surroundings} {i : Invocation} {config : Config} {interface : String}
  {index : UInt32} {ready : Ready}

theorem assemble_eq_ok (h : (assemble around i config interface index).value = .ok ready) :
    ready.responder.registry = (config.registerServices .empty).value.2 ∧
      ∃ name ipv4 ipv6 ttl, ready.responder.host = .named name ipv4 ipv6 ttl := by
  unfold assemble at h
  rw [Logged.value_bind] at h
  split at h
  · cases h
  · rename_i host discovered
    cases h
    exact ⟨rfl, _, _, _, _, Host.eq_named_of_discover discovered⟩

theorem start_eq_ok (h : (start around i).value = .ok ready) :
    ∃ config interface index, (assemble around i config interface index).value = .ok ready := by
  unfold start at h
  simp only [Logged.value_bind] at h
  split at h
  · cases h
  · split at h
    · cases h
    · split at h
      · cases h
      · exact ⟨_, _, _, h⟩

/-- A daemon that starts has a named host and the registry that requests lead to from the empty
one, whatever its configuration holds. -/
theorem named_and_reachable_of_start (h : (start around i).value = .ok ready) :
    (∃ name ipv4 ipv6 ttl, ready.responder.host = .named name ipv4 ipv6 ttl) ∧
      ready.responder.registry.Reachable := by
  obtain ⟨config, interface, index, assembled⟩ := start_eq_ok h
  obtain ⟨loaded, host⟩ := assemble_eq_ok assembled
  exact ⟨host, loaded ▸ Config.reachable_registerServices config .empty⟩

end Daemon

end MulticastDns

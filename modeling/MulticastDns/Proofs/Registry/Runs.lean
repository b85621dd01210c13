import Mathlib.Data.List.Nodup
import MulticastDns.Proofs.Name.Text
import MulticastDns.Registry

namespace MulticastDns

namespace Service

theorem find?_requiredFields_eq_none_iff (s : Service) :
    s.requiredFields.find? (·.2 = "") = none ↔
      s.instanceName ≠ "" ∧ s.kind ≠ "" ∧ s.domain ≠ "" ∧ s.target ≠ "" := by
  simp [requiredFields]

theorem fault?_eq_none_iff (s : Service) :
    s.fault? = none ↔ (s.instanceName ≠ "" ∧ s.kind ≠ "" ∧ s.domain ≠ "" ∧ s.target ≠ "") ∧
      Text.same s.domain "local" = true ∧ s.kind.toList.head? = some '_' ∧ s.port ≠ 0 := by
  rw [← find?_requiredFields_eq_none_iff]
  unfold fault?
  split
  · rename_i missing
    rw [missing]
    simp
  · rename_i found
    rw [found]
    cases Text.same s.domain "local" with
    | false => simp
    | true =>
      by_cases kind : s.kind.toList.head? = some '_'
      · by_cases port : s.port = 0 <;> simp [kind, port]
      · simp [kind]

theorem effectiveTtl_ne_zero (s : Service) : s.effectiveTtl ≠ 0 := by
  unfold effectiveTtl
  split
  · decide
  · assumption

theorem dropDot_domain {s : Service} (h : s.fault? = none) : Name.dropDot s.domain = s.domain :=
  Name.dropDot_of_same (s.fault?_eq_none_iff.1 h).2.1 (by decide)

theorem dropDot_key {s : Service} (h : s.fault? = none) : Name.dropDot s.key = s.key := by
  rw [key, Name.dropDot_append (s.fault?_eq_none_iff.1 h).1.2.2.1, dropDot_domain h]

end Service

namespace Registry

inductive Request
  | register (s : Service)
  | update (s : Service)
  | unregister (key : String)
  | clear

def after (r : Registry) : Request → Registry
  | .register s => (r.register s).value.toOption.getD r
  | .update s => (r.replace s).value.toOption.getD r
  | .unregister key => ((r.remove key).toOption.map (·.2)).getD r
  | .clear => r.clear

def reply (r : Registry) : Request → Except RegistryError (Option Service)
  | .register s => (r.register s).value.map fun _ => none
  | .update s => (r.replace s).value.map fun _ => none
  | .unregister key => (r.remove key).map fun taken => some taken.1
  | .clear => .ok none

/-- What a request can come to: it is refused and changes nothing, or it does what it is for. -/
inductive Effect (r : Registry) :
    Request → Except RegistryError (Option Service) → Registry → Prop
  | refused (request : Request) (e : RegistryError) : Effect r request (.error e) r
  | registered (s : Service) : s.fault? = none → r.find? s.key = none →
      Effect r (.register s) (.ok none) ⟨r.services ++ [stored s]⟩
  | updated {old : Service} (s : Service) : s.fault? = none → r.find? s.key = some old →
      Effect r (.update s) (.ok none) ⟨changeFirst (hasKey s.key) (renewed · s) r.services⟩
  | unregistered {s : Service} (key : String) : r.find? key = some s →
      Effect r (.unregister key) (.ok (some s)) ⟨r.services.eraseP (hasKey key)⟩
  | cleared : Effect r .clear (.ok none) empty

def run (r : Registry) (requests : List Request) : Registry := requests.foldl after r

/-- The registries that requests lead to from the empty one. -/
inductive Reachable : Registry → Prop
  | empty : Reachable empty
  | step {r : Registry} (request : Request) : Reachable r → Reachable (r.after request)

/-- No two services share a key up to case, and no service has a fault or no lifetime. -/
structure Valid (r : Registry) : Prop where
  keys : (r.services.map fun s => Text.fold s.key).Nodup
  sound : ∀ s ∈ r.services, s.fault? = none
  lasting : ∀ s ∈ r.services, s.ttl ≠ 0

variable {r r' : Registry} {s : Service} {key : String}

theorem find?_eq_none_iff :
    r.find? key = none ↔ ∀ s ∈ r.services, Text.fold s.key ≠ Text.fold key := by
  simp [find?, hasKey]

theorem find?_eq_some (h : r.find? key = some s) :
    s ∈ r.services ∧ Text.fold s.key = Text.fold key :=
  ⟨List.mem_of_find?_eq_some h, Text.same_iff.1 (List.find?_some (p := hasKey key) h)⟩

theorem insert_eq_ok (h : r.insert s = .ok r') :
    s.fault? = none ∧ r.find? s.key = none ∧ r' = ⟨r.services ++ [stored s]⟩ := by
  unfold insert at h
  split at h
  · cases h
  · split at h
    · cases h
    · cases h
      exact ⟨‹_›, ‹_›, rfl⟩

theorem update_eq_ok (h : r.update s = .ok r') :
    s.fault? = none ∧ (∃ old, r.find? s.key = some old) ∧
      r' = ⟨changeFirst (hasKey s.key) (renewed · s) r.services⟩ := by
  unfold update at h
  split at h
  · cases h
  · split at h
    · cases h
    · cases h
      exact ⟨‹_›, ⟨_, ‹_›⟩, rfl⟩

theorem remove_eq_ok (h : r.remove key = .ok (s, r')) :
    r.find? key = some s ∧ r' = ⟨r.services.eraseP (hasKey key)⟩ := by
  unfold remove at h
  split at h
  · cases h
  · cases h
    exact ⟨‹_›, rfl⟩

theorem effect (r : Registry) (request : Request) :
    r.Effect request (r.reply request) (r.after request) := by
  cases request with
  | register s =>
    rw [reply, after, value_register]
    cases h : r.insert s with
    | error e => exact .refused _ e
    | ok r' =>
      obtain ⟨sound, fresh, rfl⟩ := insert_eq_ok h
      exact .registered s sound fresh
  | update s =>
    rw [reply, after, value_replace]
    cases h : r.update s with
    | error e => exact .refused _ e
    | ok r' =>
      obtain ⟨sound, ⟨old, found⟩, rfl⟩ := update_eq_ok h
      exact .updated s sound found
  | unregister key =>
    rw [reply, after]
    cases h : r.remove key with
    | error e => exact .refused _ e
    | ok taken =>
      obtain ⟨s, r'⟩ := taken
      obtain ⟨found, rfl⟩ := remove_eq_ok h
      exact .unregistered key found
  | clear => exact .cleared

theorem after_register (sound : s.fault? = none) (fresh : r.find? s.key = none) :
    r.after (.register s) = ⟨r.services ++ [stored s]⟩ := by
  rw [after, value_register, insert, sound, fresh]
  rfl

theorem changeFirst_eq_map {l : List Service} (distinct : (l.map fun s => Text.fold s.key).Nodup)
    (key : String) (f : Service → Service) :
    changeFirst (hasKey key) f l = l.map fun s => if hasKey key s then f s else s := by
  induction l with
  | nil => rfl
  | cons s rest ih =>
    rw [List.map_cons, List.nodup_cons] at distinct
    unfold changeFirst
    split
    · rename_i here
      have others : ∀ t ∈ rest, (if hasKey key t then f t else t) = t := fun t ht =>
        if_neg fun there => distinct.1 (List.mem_map.2
          ⟨t, ht, (Text.same_iff.1 there).trans (Text.same_iff.1 here).symm⟩)
      rw [List.map_cons, if_pos here, List.map_congr_left others, List.map_id']
    · rename_i elsewhere
      rw [List.map_cons, if_neg elsewhere, ih distinct.2]

theorem map_key_changeFirst {f : Service → Service} (named : ∀ s, (f s).key = s.key)
    (p : Service → Bool) (l : List Service) :
    (changeFirst p f l).map (fun s => Text.fold s.key) = l.map fun s => Text.fold s.key := by
  induction l with
  | nil => rfl
  | cons s rest ih =>
    unfold changeFirst
    split
    · rw [List.map_cons, named, List.map_cons]
    · rw [List.map_cons, ih, List.map_cons]

theorem key_renewed (old new : Service) : (renewed old new).key = old.key := rfl

theorem fault?_renewed {old new : Service} (h : old.fault? = none) (k : new.fault? = none) :
    (renewed old new).fault? = none := by
  rw [Service.fault?_eq_none_iff] at *
  exact ⟨⟨h.1.1, h.1.2.1, h.1.2.2.1, k.1.2.2.2⟩, h.2.1, h.2.2.1, k.2.2.2⟩

theorem Valid.empty : Valid empty :=
  ⟨List.nodup_nil, by simp [Registry.empty], by simp [Registry.empty]⟩

theorem Effect.valid {request : Request} {answer : Except RegistryError (Option Service)}
    (effect : r.Effect request answer r') (h : r.Valid) : r'.Valid := by
  cases effect with
  | refused => exact h
  | registered s sound fresh =>
    refine ⟨?_, fun t ht => ?_, fun t ht => ?_⟩
    · rw [List.map_append, List.map_singleton]
      refine h.keys.append (List.nodup_singleton _) ?_
      simp only [List.disjoint_singleton, List.mem_map, not_exists, not_and]
      exact find?_eq_none_iff.1 fresh
    · rcases List.mem_append.1 ht with ht | ht
      · exact h.sound t ht
      · rw [List.mem_singleton.1 ht]
        exact sound
    · rcases List.mem_append.1 ht with ht | ht
      · exact h.lasting t ht
      · rw [List.mem_singleton.1 ht]
        exact s.effectiveTtl_ne_zero
  | updated s sound =>
    refine ⟨?_, fun t ht => ?_, fun t ht => ?_⟩
    · rw [map_key_changeFirst fun old => key_renewed old s]
      exact h.keys
    · rw [changeFirst_eq_map h.keys] at ht
      obtain ⟨old, member, rfl⟩ := List.mem_map.1 ht
      split
      · exact fault?_renewed (h.sound old member) sound
      · exact h.sound old member
    · rw [changeFirst_eq_map h.keys] at ht
      obtain ⟨old, member, rfl⟩ := List.mem_map.1 ht
      split
      · exact s.effectiveTtl_ne_zero
      · exact h.lasting old member
  | unregistered key =>
    exact ⟨h.keys.sublist (List.eraseP_sublist.map _),
      fun t ht => h.sound t (List.mem_of_mem_eraseP ht),
      fun t ht => h.lasting t (List.mem_of_mem_eraseP ht)⟩
  | cleared => exact .empty

theorem Valid.after (h : r.Valid) (request : Request) : (r.after request).Valid :=
  (r.effect request).valid h

theorem Reachable.valid (h : r.Reachable) : r.Valid := by
  induction h with
  | empty => exact .empty
  | step request _ ih => exact ih.after request

theorem Reachable.run (h : r.Reachable) (requests : List Request) :
    (r.run requests).Reachable := by
  induction requests generalizing r with
  | nil => exact h
  | cons request _ ih => exact ih (.step request h)

theorem value_registerEach_snd (services : List Service) (r : Registry) :
    (r.registerEach services).value.2 = r.run (services.map .register) := by
  induction services generalizing r with
  | nil => rfl
  | cons s rest ih => exact ih (r.after (.register s))

theorem stored_of_lasting (lasting : s.ttl ≠ 0) : stored s = s := by
  rw [stored, Service.effectiveTtl, if_neg lasting]

theorem services_run_register {services : List Service}
    (sound : ∀ s ∈ services, s.fault? = none) (lasting : ∀ s ∈ services, s.ttl ≠ 0)
    (distinct : ((r.services ++ services).map fun s => Text.fold s.key).Nodup) :
    (r.run (services.map .register)).services = r.services ++ services := by
  induction services generalizing r with
  | nil => exact (List.append_nil _).symm
  | cons s rest ih =>
    have fresh : r.find? s.key = none := by
      rw [List.map_append, List.map_cons, List.nodup_middle, List.nodup_cons] at distinct
      refine find?_eq_none_iff.2 fun t ht same => distinct.1 ?_
      rw [← same]
      exact List.mem_append_left _ (List.mem_map.2 ⟨t, ht, rfl⟩)
    have registered : r.after (.register s) = ⟨r.services ++ [s]⟩ := by
      rw [after_register (sound s List.mem_cons_self) fresh,
        stored_of_lasting (lasting s List.mem_cons_self)]
    rw [List.append_cons] at distinct ⊢
    rw [List.map_cons, run, List.foldl_cons, registered]
    exact ih (fun t ht => sound t (List.mem_cons_of_mem s ht))
      (fun t ht => lasting t (List.mem_cons_of_mem s ht)) distinct

theorem Valid.filter_hasKey (h : r.Valid) (key : String) :
    r.services.filter (hasKey key) = (r.find? key).toList := by
  have alike : ∀ s ∈ r.services.filter (hasKey key), Text.fold s.key = Text.fold key :=
    fun s hs => Text.same_iff.1 (List.mem_filter.1 hs).2
  have distinct : ((r.services.filter (hasKey key)).map fun s => Text.fold s.key).Nodup :=
    h.keys.sublist (List.filter_sublist.map _)
  rw [find?, ← List.head?_filter]
  match k : r.services.filter (hasKey key) with
  | [] => rfl
  | [s] => rfl
  | s :: t :: rest =>
    rw [k] at alike distinct
    have both : Text.fold s.key = Text.fold t.key :=
      (alike s (by simp)).trans (alike t (by simp)).symm
    simp [both] at distinct

theorem find?_eq_some_iff (h : r.Valid) :
    r.find? key = some s ↔ s ∈ r.services ∧ Text.same s.key key = true := by
  rw [← Option.mem_toList, ← h.filter_hasKey, List.mem_filter]
  rfl

/-- After any requests no two services have the same key, each has passed every check, and what a
key finds is the one service of that key. -/
theorem distinct_and_sound_of_run (requests : List Request) :
    (empty.run requests).services.Pairwise (fun s t => Text.same s.key t.key = false) ∧
      (∀ s ∈ (empty.run requests).services, s.fault? = none ∧ s.ttl ≠ 0 ∧
        (s.instanceName ≠ "" ∧ s.kind ≠ "" ∧ s.domain ≠ "" ∧ s.target ≠ "") ∧
        Text.same s.domain "local" = true ∧ s.kind.toList.head? = some '_' ∧ s.port ≠ 0) ∧
      ∀ key, (((empty.run requests).find? key).isSome ↔
          ∃ s ∈ (empty.run requests).services, Text.same s.key key = true) ∧
        (empty.run requests).services.filter (fun s => Text.same s.key key) =
          ((empty.run requests).find? key).toList := by
  have valid : (empty.run requests).Valid := (Reachable.empty.run requests).valid
  refine ⟨?_, fun s hs => ?_, fun key => ⟨?_, valid.filter_hasKey key⟩⟩
  · exact (List.pairwise_map.1 valid.keys).imp fun distinct => by simpa [Text.same] using distinct
  · have sound := valid.sound s hs
    exact ⟨sound, valid.lasting s hs, s.fault?_eq_none_iff.1 sound⟩
  · rw [Option.isSome_iff_exists]
    simp only [find?_eq_some_iff valid]

end Registry

end MulticastDns

import Mathlib.Logic.Function.Basic
import MulticastDns.Proofs.Registry.Runs

/-! The registry as a map from folded keys to services that remembers in which order its keys
came. Requests to the registry and to the map have the same replies and the same effect. -/

namespace MulticastDns

open Registry (Request)

/-- A map with its keys in the order in which they came. -/
structure Catalog where
  order : List String
  entry : String → Option Service
  nodup : order.Nodup
  mem_order : ∀ key, key ∈ order ↔ (entry key).isSome

namespace Catalog

def empty : Catalog := ⟨[], fun _ => none, List.nodup_nil, by simp⟩

def services (c : Catalog) : List Service := c.order.filterMap c.entry

def put (c : Catalog) (key : String) (s : Service) : Catalog where
  order := if key ∈ c.order then c.order else c.order ++ [key]
  entry := Function.update c.entry key (some s)
  nodup := by
    split
    · exact c.nodup
    · rename_i new
      exact c.nodup.append (List.nodup_singleton _) (List.disjoint_singleton.2 new)
  mem_order other := by
    by_cases same : other = key
    · subst same
      split <;> simp_all
    · rw [Function.update_of_ne same, ← c.mem_order]
      split <;> simp [same]

def erase (c : Catalog) (key : String) : Catalog where
  order := c.order.erase key
  entry := Function.update c.entry key none
  nodup := c.nodup.erase key
  mem_order other := by
    rw [c.nodup.mem_erase_iff]
    by_cases same : other = key
    · subst same
      simp
    · rw [Function.update_of_ne same, ← c.mem_order]
      simp [same]

def step (c : Catalog) : Request → Except RegistryError (Option Service) × Catalog
  | .register s =>
    match s.fault?, c.entry (Text.fold s.key) with
    | some reason, _ => (.error (.invalid reason), c)
    | none, some _ => (.error (.conflict s.key), c)
    | none, none =>
      (.ok none, c.put (Text.fold s.key) { s with ttl := if s.ttl = 0 then 120 else s.ttl })
  | .update s =>
    match s.fault?, c.entry (Text.fold s.key) with
    | some reason, _ => (.error (.invalid reason), c)
    | none, none => (.error (.notFound s.key), c)
    | none, some old =>
      (.ok none, c.put (Text.fold s.key)
        { old with
          target := s.target
          priority := s.priority
          weight := s.weight
          port := s.port
          ttl := if s.ttl = 0 then 120 else s.ttl
          txt := s.txt })
  | .unregister key =>
    match c.entry (Text.fold key) with
    | none => (.error (.notFound key), c)
    | some s => (.ok (some s), c.erase (Text.fold key))
  | .clear => (.ok none, empty)

def run (c : Catalog) (requests : List Request) : Catalog :=
  requests.foldl (fun c request => (c.step request).2) c

/-- The registry lists the services of the map, each under its own folded key. -/
structure Represents (c : Catalog) (r : Registry) : Prop where
  order : c.order = r.services.map fun s => Text.fold s.key
  entry : ∀ s ∈ r.services, c.entry (Text.fold s.key) = some s

variable {c : Catalog} {r : Registry} {s old : Service} {key other : String}

theorem entry_eq_none_iff : c.entry key = none ↔ key ∉ c.order := by
  rw [c.mem_order, Option.not_isSome_iff_eq_none]

theorem mem_order_of_entry (h : c.entry key = some s) : key ∈ c.order := by
  rw [c.mem_order, h, Option.isSome_some]

theorem order_put_of_mem (h : key ∈ c.order) : (c.put key s).order = c.order := if_pos h

theorem order_put_of_not_mem (h : key ∉ c.order) : (c.put key s).order = c.order ++ [key] :=
  if_neg h

@[simp] theorem entry_put (c : Catalog) (key : String) (s : Service) :
    (c.put key s).entry key = some s :=
  Function.update_self _ _ _

theorem entry_put_of_ne (h : other ≠ key) : (c.put key s).entry other = c.entry other :=
  Function.update_of_ne h _ _

theorem entry_erase_of_ne (h : other ≠ key) : (c.erase key).entry other = c.entry other :=
  Function.update_of_ne h _ _

namespace Represents

theorem empty : Represents empty .empty := ⟨rfl, by simp [Registry.empty]⟩

theorem services_eq (h : c.Represents r) : c.services = r.services := by
  rw [services, h.order, List.filterMap_map]
  calc r.services.filterMap (c.entry ∘ fun s => Text.fold s.key)
      = r.services.filterMap some := List.filterMap_congr h.entry
    _ = r.services := List.filterMap_some

theorem size_eq (h : c.Represents r) : r.size = c.order.length := by
  rw [h.order, List.length_map]
  rfl

theorem isEmpty_iff (h : c.Represents r) : r.isEmpty = true ↔ ∀ key, c.entry key = none := by
  simp only [entry_eq_none_iff, ← List.eq_nil_iff_forall_not_mem]
  rw [h.order, List.map_eq_nil_iff, Registry.isEmpty, List.isEmpty_iff]

theorem find?_eq (h : c.Represents r) (key : String) : r.find? key = c.entry (Text.fold key) := by
  cases found : r.find? key with
  | none =>
    rw [eq_comm, entry_eq_none_iff, h.order]
    simpa using Registry.find?_eq_none_iff.1 found
  | some s =>
    obtain ⟨member, same⟩ := Registry.find?_eq_some found
    rw [← same, h.entry s member]

theorem mem_order (h : c.Represents r) (member : s ∈ r.services) : Text.fold s.key ∈ c.order :=
  mem_order_of_entry (h.entry s member)

theorem put_new (h : c.Represents r) (new : c.entry (Text.fold s.key) = none) :
    (c.put (Text.fold s.key) s).Represents ⟨r.services ++ [s]⟩ := by
  rw [entry_eq_none_iff] at new
  refine ⟨?_, fun t ht => ?_⟩
  · rw [order_put_of_not_mem new, h.order, List.map_append, List.map_singleton]
  · rcases List.mem_append.1 ht with ht | ht
    · have other : Text.fold t.key ≠ Text.fold s.key := fun same => new (same ▸ h.mem_order ht)
      rw [entry_put_of_ne other, h.entry t ht]
    · rw [List.mem_singleton.1 ht, entry_put]

theorem distinct (h : c.Represents r) : (r.services.map fun s => Text.fold s.key).Nodup :=
  h.order ▸ c.nodup

theorem put_old (h : c.Represents r) (found : c.entry (Text.fold key) = some old)
    {f : Service → Service} (named : ∀ s, (f s).key = s.key) :
    (c.put (Text.fold key) (f old)).Represents
      ⟨Registry.changeFirst (Registry.hasKey key) f r.services⟩ := by
  refine ⟨?_, fun t ht => ?_⟩
  · rw [order_put_of_mem (mem_order_of_entry found), h.order, Registry.map_key_changeFirst named]
  · rw [Registry.changeFirst_eq_map h.distinct] at ht
    obtain ⟨t, member, rfl⟩ := List.mem_map.1 ht
    split
    · rename_i here
      have same : Text.fold t.key = Text.fold key := Text.same_iff.1 here
      have only : t = old := by
        rw [← same, h.entry t member] at found
        exact Option.some.inj found
      rw [named, same, entry_put, only]
    · rename_i elsewhere
      have other : Text.fold t.key ≠ Text.fold key := fun same => elsewhere (Text.same_iff.2 same)
      rw [entry_put_of_ne other, h.entry t member]

theorem erase (h : c.Represents r) (key : String) :
    (c.erase (Text.fold key)).Represents ⟨r.services.eraseP (Registry.hasKey key)⟩ := by
  have compared : (fun other => Text.fold key == other) ∘ (fun s : Service => Text.fold s.key) =
      Registry.hasKey key := by
    funext s
    exact BEq.comm
  have order : c.order.erase (Text.fold key) =
      (r.services.eraseP (Registry.hasKey key)).map fun s => Text.fold s.key := by
    rw [h.order, List.erase_eq_eraseP, List.eraseP_map, compared]
  refine ⟨order, fun t ht => ?_⟩
  have kept : Text.fold t.key ∈ c.order.erase (Text.fold key) := order ▸ List.mem_map_of_mem ht
  rw [entry_erase_of_ne (c.nodup.mem_erase_iff.1 kept).1, h.entry t (List.mem_of_mem_eraseP ht)]

theorem step (h : c.Represents r) (request : Request) :
    r.reply request = (c.step request).1 ∧ (c.step request).2.Represents (r.after request) := by
  cases request with
  | register s =>
    rw [Registry.reply, Registry.after, Registry.value_register, Registry.insert, h.find?_eq,
      Catalog.step]
    cases s.fault? with
    | some reason => exact ⟨rfl, h⟩
    | none =>
      cases found : c.entry (Text.fold s.key) with
      | some old => exact ⟨rfl, h⟩
      | none => exact ⟨rfl, h.put_new (s := Registry.stored s) found⟩
  | update s =>
    rw [Registry.reply, Registry.after, Registry.value_replace, Registry.update, h.find?_eq,
      Catalog.step]
    cases s.fault? with
    | some reason => exact ⟨rfl, h⟩
    | none =>
      cases found : c.entry (Text.fold s.key) with
      | none => exact ⟨rfl, h⟩
      | some old => exact ⟨rfl, h.put_old found fun t => Registry.key_renewed t s⟩
  | unregister key =>
    rw [Registry.reply, Registry.after, Registry.remove, h.find?_eq, Catalog.step]
    cases c.entry (Text.fold key) with
    | none => exact ⟨rfl, h⟩
    | some s => exact ⟨rfl, h.erase key⟩
  | clear => exact ⟨rfl, .empty⟩

theorem run (h : c.Represents r) (requests : List Request) :
    (c.run requests).Represents (r.run requests) := by
  induction requests generalizing c r with
  | nil => exact h
  | cons request _ ih => exact ih (h.step request).2

end Represents

end Catalog

namespace Registry

variable {r r' : Registry}

def Request.key? : Request → Option String
  | .register s => some s.key
  | .update s => some s.key
  | .unregister key => some key
  | .clear => none

theorem hasKey_renewed (key : String) (old new : Service) :
    hasKey key (renewed old new) = hasKey key old := by
  rw [hasKey, hasKey, key_renewed]

theorem filter_changeFirst {p : Service → Bool} {f : Service → Service}
    (kept : ∀ s, p (f s) = p s) (l : List Service) :
    (changeFirst p f l).filter (!p ·) = l.filter (!p ·) := by
  induction l with
  | nil => rfl
  | cons s rest ih =>
    unfold changeFirst
    split
    · rename_i here
      rw [List.filter_cons_of_neg (by simp [kept, here]), List.filter_cons_of_neg (by simp [here])]
    · rename_i elsewhere
      rw [List.filter_cons_of_pos (by simpa using elsewhere),
        List.filter_cons_of_pos (by simpa using elsewhere), ih]

theorem filter_eraseP (p : Service → Bool) (l : List Service) :
    (l.eraseP p).filter (!p ·) = l.filter (!p ·) := by
  induction l with
  | nil => rfl
  | cons s rest ih =>
    cases here : p s with
    | true => rw [List.eraseP_cons_of_pos here, List.filter_cons_of_neg (by simp [here])]
    | false =>
      rw [List.eraseP_cons_of_neg (by simp [here]), List.filter_cons_of_pos (by simp [here]),
        List.filter_cons_of_pos (by simp [here]), ih]

theorem Effect.eq_of_error {request : Request} {e : RegistryError}
    (effect : r.Effect request (.error e) r') : r' = r := by
  cases effect
  rfl

theorem Effect.filter_others {request : Request} {answer : Except RegistryError (Option Service)}
    {key : String} (effect : r.Effect request answer r') (about : request.key? = some key) :
    r'.services.filter (!hasKey key ·) = r.services.filter (!hasKey key ·) := by
  cases effect with
  | refused => rfl
  | registered s =>
    cases about
    have own : hasKey s.key (stored s) = true := Text.same_refl _
    simp [own]
  | updated s =>
    cases about
    exact filter_changeFirst (fun t => hasKey_renewed s.key t s) r.services
  | unregistered key =>
    cases about
    exact filter_eraseP (hasKey key) r.services
  | cleared => cases about

/-- After any requests the registry is the map that the same requests lead to: it lists and finds
what the map holds and answers the next request as the map does. A refused request changes nothing,
and no request changes or moves the services of another key. -/
theorem run_refines_catalog (requests : List Request) :
    (Catalog.empty.run requests).order =
        (empty.run requests).services.map (fun s => Text.fold s.key) ∧
      (∀ limit, (empty.run requests).list limit =
        (Catalog.empty.run requests).services.take limit) ∧
      (∀ key, (empty.run requests).find? key =
        (Catalog.empty.run requests).entry (Text.fold key)) ∧
      ∀ request,
        (empty.run requests).reply request = ((Catalog.empty.run requests).step request).1 ∧
        (∀ e, (empty.run requests).reply request = .error e →
          (empty.run requests).after request = empty.run requests) ∧
        ∀ key, request.key? = some key →
          ((empty.run requests).after request).services.filter (!Text.same ·.key key) =
            (empty.run requests).services.filter (!Text.same ·.key key) := by
  have represents : (Catalog.empty.run requests).Represents (empty.run requests) :=
    Catalog.Represents.empty.run requests
  refine ⟨represents.order, fun limit => ?_, represents.find?_eq, fun request => ?_⟩
  · rw [represents.services_eq, list]
  · have effect := (empty.run requests).effect request
    exact ⟨(represents.step request).1, fun _ refused => (refused ▸ effect).eq_of_error,
      fun _ about => effect.filter_others about⟩

/-- The size of the registry is the number of the map's keys, and the registry is empty when the
map holds nothing. -/
theorem size_run (requests : List Request) :
    (empty.run requests).size = (Catalog.empty.run requests).order.length ∧
      ((empty.run requests).isEmpty = true ↔
        ∀ key, (Catalog.empty.run requests).entry key = none) := by
  have represents : (Catalog.empty.run requests).Represents (empty.run requests) :=
    Catalog.Represents.empty.run requests
  exact ⟨represents.size_eq, represents.isEmpty_iff⟩

end Registry

end MulticastDns

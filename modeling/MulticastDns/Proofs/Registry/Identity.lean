import MulticastDns.Proofs.Registry.Runs

namespace MulticastDns

namespace Text

theorem count_fold {c : Char} (sign : c.isAlpha = false) (s : String) :
    (fold s).toList.count c = s.toList.count c := by
  rw [toList_fold, List.count_eq_countP, List.countP_map, List.count_eq_countP]
  refine List.countP_congr fun d _ => ?_
  simp [toLower_eq_iff sign]

theorem cut_eq_iff {mark : Char} {front back front' back' : List Char}
    (h : front ++ mark :: back = front' ++ mark :: back') :
    front = front' ∧ back = back' ↔ back.count mark = back'.count mark := by
  constructor
  · rintro ⟨-, rfl⟩
    rfl
  · intro counts
    rcases List.append_eq_append_iff.1 h with ⟨between, rfl, tail⟩ | ⟨between, rfl, tail⟩
    all_goals
      cases between with
      | nil => simpa [eq_comm] using tail
      | cons c rest =>
        -- the longer back holds the mark at which the other one is cut
        obtain ⟨rfl, rfl⟩ := List.cons.inj tail
        simp at counts
        omega

theorem same_and_same_iff {front back front' back' : String}
    (h : same (front ++ "." ++ back) (front' ++ "." ++ back') = true) :
    same front front' = true ∧ same back back' = true ↔
      back.toList.count '.' = back'.toList.count '.' := by
  have dot : Char.toLower '.' = '.' := rfl
  have sign : '.'.isAlpha = false := by decide
  simp only [same_iff, ← String.toList_inj, fold_append, String.toList_append] at h ⊢
  rw [← count_fold sign back, ← count_fold sign back']
  refine cut_eq_iff ?_
  simpa [toList_fold, dot] using h

end Text

/-- Two services with the same labels one after another. They have the same instance and the same
kind exactly if their kinds have equally many labels. -/
structure Service.Namesakes (s t : Service) : Prop where
  domain : Text.same s.domain t.domain = true
  labels : Text.same (s.instanceName ++ "." ++ s.kind) (t.instanceName ++ "." ++ t.kind) = true
  parts : Text.same s.instanceName t.instanceName = true ∧ Text.same s.kind t.kind = true ↔
    s.kind.toList.count '.' = t.kind.toList.count '.'

theorem Service.namesakes_of_key {s t : Service} (hs : s.fault? = none) (ht : t.fault? = none)
    (same : Text.fold s.key = Text.fold t.key) : s.Namesakes t := by
  have domain : Text.same s.domain t.domain = true :=
    Text.same_trans (s.fault?_eq_none_iff.1 hs).2.1
      (Text.same_symm (t.fault?_eq_none_iff.1 ht).2.1)
  have length : s.domain.length = t.domain.length := by
    rw [← Text.length_fold, Text.same_iff.1 domain, Text.length_fold]
  have dotted := Text.fold_eq_of_append same length
  have labels := Text.same_iff.2 (Text.fold_eq_of_append dotted rfl)
  exact ⟨domain, labels, Text.same_and_same_iff labels⟩

namespace Registry

variable {r r' : Registry} {s old : Service} {key : String}

theorem insert_eq_conflict (h : r.insert s = .error (.conflict key)) :
    s.fault? = none ∧ ∃ t, r.find? s.key = some t := by
  unfold insert at h
  split at h
  · cases h
  · split at h
    · exact ⟨‹_›, _, ‹_›⟩
    · cases h

theorem insert_of_find? (sound : s.fault? = none) (found : r.find? s.key = some old) :
    r.insert s = .error (.conflict s.key) := by
  rw [insert, sound, found]

theorem update_of_find? (sound : s.fault? = none) (found : r.find? s.key = some old) :
    r.update s = .ok ⟨changeFirst (hasKey s.key) (renewed · s) r.services⟩ := by
  rw [update, sound, found]

theorem changeFirst_append {p : Service → Bool} {before : List Service}
    (passed : ∀ t ∈ before, p t = false) (here : p s = true) (f : Service → Service)
    (after : List Service) :
    changeFirst p f (before ++ s :: after) = before ++ f s :: after := by
  induction before with
  | nil => rw [List.nil_append, changeFirst, if_pos here, List.nil_append]
  | cons t before ih =>
    rw [List.forall_mem_cons] at passed
    rw [List.cons_append, changeFirst, if_neg (by simp [passed.1]), ih passed.2, List.cons_append]

theorem exists_place_of_find? (found : r.find? key = some s) (f : Service → Service) :
    ∃ before after, r.services = before ++ s :: after ∧
      changeFirst (hasKey key) f r.services = before ++ f s :: after := by
  obtain ⟨here, before, after, place, passed⟩ := List.find?_eq_some_iff_append.1 found
  refine ⟨before, after, place, ?_⟩
  rw [place]
  exact changeFirst_append (fun t ht => by simpa using passed t ht) here f after

/-- An update changes one service and a conflict is with one, whose labels are those of the service
passed in. It has the same instance and kind if the kinds have equally many labels, and only then:
the key does not tell where the kind begins. -/
theorem namesakes_of_replace_and_register (reachable : r.Reachable) (s : Service) :
    (∀ r', (r.replace s).value = .ok r' → ∃ before old after,
      r.services = before ++ old :: after ∧ r'.services = before ++ renewed old s :: after ∧
        old.Namesakes s) ∧
    (∀ key, (r.register s).value = .error (.conflict key) →
      ∃ t ∈ r.services, t.Namesakes s) := by
  have valid := reachable.valid
  have namesakes (t : Service) (sound : s.fault? = none) (found : r.find? s.key = some t) :
      t ∈ r.services ∧ t.Namesakes s := by
    obtain ⟨member, same⟩ := find?_eq_some found
    exact ⟨member, Service.namesakes_of_key (valid.sound t member) sound same⟩
  rw [value_replace, value_register]
  refine ⟨fun r' updated => ?_, fun key refused => ?_⟩
  · obtain ⟨sound, ⟨old, found⟩, rfl⟩ := update_eq_ok updated
    obtain ⟨before, after, place, changed⟩ := exists_place_of_find? found (renewed · s)
    exact ⟨before, old, after, place, changed, (namesakes old sound found).2⟩
  · obtain ⟨sound, t, found⟩ := insert_eq_conflict refused
    exact ⟨t, namesakes t sound found⟩

section Samples

def gate : Service := ⟨"gate", "_cam._tcp", "local", 0, 0, 554, "gate.local", [], 120⟩

def loudGate : Service := ⟨"Gate", "_CAM._tcp", "Local", 0, 0, 80, "gate.local", ["hd"], 0⟩

def gateCam : Service := ⟨"gate._cam", "_tcp", "local", 0, 0, 7447, "porch.local", [], 120⟩

def gates : Registry := empty.after (.register gate)

theorem services_gates : gates.services = [gate] := by
  have sound : gate.fault? = none := gate.fault?_eq_none_iff.2
    ⟨by decide, Text.same_refl _, by decide, by decide⟩
  rw [gates, after_register sound rfl]
  rfl

theorem answers_gates (sound : s.fault? = none) (same : Text.same gate.key s.key = true) :
    (gates.replace s).value = .ok ⟨[renewed gate s]⟩ ∧
      (gates.register s).value = .error (.conflict s.key) := by
  have found : gates.find? s.key = some gate := by
    rw [find?, services_gates]
    exact List.find?_cons_of_pos same
  have changed : changeFirst (hasKey s.key) (renewed · s) [gate] = [renewed gate s] := if_pos same
  rw [value_replace, value_register, update_of_find? sound found, insert_of_find? sound found,
    services_gates, changed]
  exact ⟨rfl, rfl⟩

theorem loudGate_is_gate :
    gates.Reachable ∧ (gates.replace loudGate).value = .ok ⟨[renewed gate loudGate]⟩ ∧
      gate.Namesakes loudGate ∧
      Text.same gate.instanceName loudGate.instanceName = true ∧
      Text.same gate.kind loudGate.kind = true ∧
      (gates.register loudGate).value = .error (.conflict loudGate.key) ∧
      ∃ t ∈ gates.services, t.Namesakes loudGate := by
  have sound : loudGate.fault? = none := loudGate.fault?_eq_none_iff.2
    ⟨by decide, Text.same_iff_toList.2 (by decide +kernel), by decide, by decide⟩
  obtain ⟨updated, refused⟩ :=
    answers_gates sound (Text.same_iff_toList.2 (by decide +kernel))
  have reachable : gates.Reachable := .step _ .empty
  obtain ⟨onUpdate, onConflict⟩ := namesakes_of_replace_and_register reachable loudGate
  obtain ⟨before, old, after, place, -, namesakes⟩ := onUpdate _ updated
  have only : old = gate := by
    have member : old ∈ gates.services := by simp [place]
    simpa [services_gates] using member
  subst only
  obtain ⟨name, kind⟩ := namesakes.parts.2 (by decide +kernel)
  exact ⟨reachable, updated, namesakes, name, kind, refused, onConflict _ refused⟩

theorem gateCam_taken_for_gate :
    gates.Reachable ∧ gates.services = [gate] ∧
      (gates.replace gateCam).value = .ok ⟨[renewed gate gateCam]⟩ ∧
      renewed gate gateCam ≠ gate ∧
      (gates.register gateCam).value = .error (.conflict gateCam.key) ∧
      Text.same gate.instanceName gateCam.instanceName = false ∧
      Text.same gate.kind gateCam.kind = false := by
  have sound : gateCam.fault? = none := gateCam.fault?_eq_none_iff.2
    ⟨by decide, Text.same_refl _, by decide, by decide⟩
  obtain ⟨updated, refused⟩ :=
    answers_gates sound (Text.same_iff_toList.2 (by decide +kernel))
  have unlike {s t : String} (h : s.toList.map Char.toLower ≠ t.toList.map Char.toLower) :
      Text.same s t = false := by
    rwa [← Bool.not_eq_true, Text.same_iff_toList]
  exact ⟨.step _ .empty, services_gates, updated, by decide, refused, unlike (by decide +kernel),
    unlike (by decide +kernel)⟩

end Samples

end Registry

end MulticastDns

import MulticastDns.Proofs.Name.Text
import MulticastDns.Proofs.Registry.Runs
import MulticastDns.Resolution

namespace MulticastDns

section Resolve

variable {q : Question} {h h' : Host} {r : Registry} {found : List Service}

theorem resolve_eq_host (k : resolve q h r = .host h') :
    h' = h ∧ h.answersTo q.name = true ∧
      (q.qtype = RecordType.a ∨ q.qtype = RecordType.aaaa) := by
  unfold resolve at k
  split at k
  · rename_i address
    split at k
    · rename_i own
      cases k
      exact ⟨rfl, own, address⟩
    · cases k
  · split at k
    · split at k <;> cases k
    · cases k

theorem resolve_eq_services (k : resolve q h r = .services found) :
    q.qtype = RecordType.srv ∧ Resolution.findServices q.name r = found ∧ found ≠ [] := by
  unfold resolve at k
  split at k
  · split at k <;> cases k
  · split at k
    · rename_i srv
      split at k
      · cases k
      · rename_i nonempty
        cases k
        exact ⟨srv, rfl, nonempty⟩
    · cases k

end Resolve

namespace Resolution

variable {r : Registry} {name : String}

theorem find?_toList_sublist {α : Type} (p : α → Bool) (l : List α) :
    (l.find? p).toList.Sublist l := by
  cases h : l.find? p with
  | none => exact List.nil_sublist _
  | some a => exact List.singleton_sublist.2 (List.mem_of_find?_eq_some h)

theorem findServices_sublist (name : String) (r : Registry) :
    (findServices name r).Sublist r.services := by
  unfold findServices
  split
  · split
    · exact (List.take_sublist _ _).trans List.filter_sublist
    · exact List.nil_sublist _
  · exact find?_toList_sublist _ _

theorem length_findServices_le (name : String) (r : Registry) :
    (findServices name r).length ≤ limit := by
  unfold findServices
  split
  · split
    · exact List.length_take_le _ _
    · exact Nat.zero_le _
  · cases r.find? (Name.dropDot name) <;> simp [limit]

theorem key_ne_empty (s : Service) : s.key ≠ "" := Name.append_dot_append_ne_empty _ _

theorem find?_empty (r : Registry) : r.find? "" = none :=
  Registry.find?_eq_none_iff.2 fun s _ same =>
    key_ne_empty s (Text.fold_eq_empty_iff.1 (same.trans (Text.fold_eq_empty_iff.2 rfl)))

theorem dropDot_ne_empty_of_findServices (h : findServices name r ≠ []) :
    Name.dropDot name ≠ "" := by
  intro root
  unfold findServices at h
  split at h
  · rename_i underscore
    rcases Name.dropDot_eq_empty_iff.1 root with rfl | rfl <;> simp at underscore
  · rw [root, find?_empty] at h
    exact h rfl

end Resolution

theorem Host.dropDot_ne_empty_of_answersTo {host name : String} {ipv4 : Option IPv4}
    {ipv6 : Option IPv6} {ttl : UInt32} (h : (named host ipv4 ipv6 ttl).answersTo name = true) :
    Name.dropDot name ≠ "" := by
  intro root
  rw [answersTo, root, Text.same_iff, eq_comm, Text.fold_eq_empty_iff.2 rfl,
    Text.fold_eq_empty_iff] at h
  exact Name.ensureLocal_ne_empty _ h

end MulticastDns

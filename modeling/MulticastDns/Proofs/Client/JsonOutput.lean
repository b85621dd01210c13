import MulticastDns.Proofs.Client.Hearing
import MulticastDns.Proofs.Text.Controls

namespace MulticastDns.Client

theorem nothingFound_ne_json (name : String) (wait : Nat) (r : Record) (source : Endpoint) :
    nothingFound name wait ≠ (r.json source).render := by
  intro h
  have words : (nothingFound name wait).toList.head? = some 'N' := by
    change ("No responses for " ++ name ++ " within " ++ toString wait ++ " second(s)").toList.head?
      = _
    simp
  have brace : (r.json source).render.toList.head? = some '\x7b' := by
    rw [Record.json, Text.Json.render]
    simp
  rw [h, brace] at words
  exact absurd words (by decide)

namespace Command

def jsonLines (c : Command) (name : String) (arrivals : List Datagram) : List String :=
  arrivals.flatMap fun d => (c.shown name d).map fun r => (r.json d.source).render

section Json

variable {c : Command} {name : String} {arrivals : List Datagram} {l : Link}
  {sent : List (List UInt8)}

theorem mem_records_of_mem_shown {d : Datagram} {r : Record} (h : r ∈ c.shown name d) :
    ∃ m, d.Brings m ∧ r ∈ m.records := by
  cases brings : brought? d with
  | none =>
    rw [shown_of_none brings] at h
    cases h
  | some m =>
    rw [shown_of_some brings] at h
    exact ⟨m, brought?_eq_some_iff.1 brings, (List.mem_filter.1 h).1⟩

theorem record_of_mem_jsonLines {line : String} (h : line ∈ c.jsonLines name arrivals) :
    Text.controls line = [] ∧ ∃ d ∈ arrivals, ∃ m, d.Brings m ∧
      ∃ r ∈ m.records, line = (r.json d.source).render := by
  obtain ⟨d, hd, h⟩ := List.mem_flatMap.1 h
  obtain ⟨r, hr, rfl⟩ := List.mem_map.1 h
  obtain ⟨m, brings, member⟩ := mem_records_of_mem_shown hr
  exact ⟨Text.Json.controls_render _, d, hd, m, brings, r, member, rfl⟩

theorem jsonLines_eq_nil_iff {b : Browse} :
    (browse b).jsonLines name arrivals = [] ↔ arrivals.any ((browse b).counts name) = false := by
  simp only [jsonLines, List.flatMap_eq_nil_iff, List.map_eq_nil_iff, List.any_eq_false, counts,
    Bool.not_eq_true', Bool.not_eq_false, List.isEmpty_iff]

theorem output_of_json (json : c.style = .json) (asks : c.Asks l name sent)
    (arrivals : List Datagram) : (c.run l arrivals).value.output =
      c.jsonLines name arrivals ++ c.closing name (arrivals.any (c.counts name)) := by
  have nothing : c.opening name = [] := by
    cases c with
    | lookup q => rfl
    | browse b =>
      change b.style = .json at json
      rw [opening, json]
      rfl
  have each : c.heard name = fun d => (c.shown name d).map fun r => (r.json d.source).render := by
    funext d
    rw [heard, json]
    rfl
  rw [run_of_asks asks, session, nothing, each]
  rfl

/-- A client that is asked for JSON prints nothing if it cannot ask, and otherwise the records it
shows, each on a line, in the order they arrive. That is all, except where it browses and shows
nothing: then its one line says so, in words. -/
theorem json_output (json : c.style = .json) (l : Link) (arrivals : List Datagram) :
    (∃ e sent, (c.run l arrivals).value = ⟨.error e, sent, []⟩) ∨
    ∃ name sent, c.Asks l name sent ∧
      (∀ line ∈ c.jsonLines name arrivals, Text.controls line = [] ∧
        ∃ d ∈ arrivals, ∃ m, d.Brings m ∧ ∃ r ∈ m.records, line = (r.json d.source).render) ∧
      ((c.run l arrivals).value.output = c.jsonLines name arrivals ↔
        (c.jsonLines name arrivals = [] → ∃ q, c = .lookup q)) ∧
      ∀ b, c = .browse b → c.jsonLines name arrivals = [] →
        (c.run l arrivals).value.output = [nothingFound name b.wait] := by
  rcases asks_or_fails c l with ⟨name, sent, asks⟩ | ⟨e, sent, fails⟩
  · refine .inr ⟨name, sent, asks, fun line => record_of_mem_jsonLines, ?_⟩
    rw [output_of_json json asks]
    cases c with
    | lookup q =>
      have silent (found : Bool) : (lookup q).closing name found = [] := by
        change q.style = .json at json
        simp [closing, json]
      simp [silent]
    | browse b =>
      rw [jsonLines_eq_nil_iff]
      cases found : arrivals.any ((browse b).counts name) with
      | true => simp [closing]
      | false => simp [closing, jsonLines_eq_nil_iff.2 found]
  · exact .inl ⟨e, sent, fails arrivals⟩

end Json

section Sample

def jsonBrowsing : Browse := { browsing with style := .json }

theorem silent_browse_prints_words :
    ((browse jsonBrowsing).run .silentLoopback []).value.output =
      ["No responses for _http._tcp.local within 2 second(s)"] ∧
    ∀ (r : Record) (source : Endpoint),
      "No responses for _http._tcp.local within 2 second(s)" ≠ (r.json source).render := by
  refine ⟨by decide +kernel, fun r source => ?_⟩
  exact nothingFound_ne_json "_http._tcp.local" 2 r source

theorem address_printed_as_json :
    (browse jsonBrowsing).style = .json ∧
    ((browse jsonBrowsing).run .silentLoopback noise).value.output =
      (browse jsonBrowsing).jsonLines "_http._tcp.local" noise ∧
    (browse jsonBrowsing).jsonLines "_http._tcp.local" noise =
      ["\x7b\"from\":\"[::1]:5353\",\"name\":\"b\",\"type\":\"A\",\"ttl\":9," ++
        "\"cache_flush\":false,\"data\":\x7b\"a\":\"10.0.0.7\"\x7d\x7d"] := by
  have lines : (browse jsonBrowsing).jsonLines "_http._tcp.local" noise =
      ["\x7b\"from\":\"[::1]:5353\",\"name\":\"b\",\"type\":\"A\",\"ttl\":9," ++
        "\"cache_flush\":false,\"data\":\x7b\"a\":\"10.0.0.7\"\x7d\x7d"] := by
    decide +kernel
  have named : Browse.fullName jsonBrowsing.kind = .ok "_http._tcp.local" := by decide +kernel
  refine ⟨rfl, ?_, lines⟩
  rcases json_output (c := browse jsonBrowsing) rfl .silentLoopback noise with
    ⟨e, sent, fails⟩ | ⟨name, sent, asks, -, all, -⟩
  · have found : ((browse jsonBrowsing).run .silentLoopback noise).value.outcome = .ok true := by
      decide +kernel
    rw [fails] at found
    cases found
  · cases asks with
    | browse named' =>
      cases Except.ok.inj (named.symm.trans named')
      refine all.2 fun empty => ?_
      rw [lines] at empty
      cases empty

end Sample

end Command

end MulticastDns.Client

import Mathlib.Data.Nat.Find
import WitSchema.Proofs.Binding.Refusal
import WitSchema.Proofs.Binding.Retrying

/-! Calls that are never made. A resolver checks its input, then looks for the
function, then for retrying if the policy wants it; what stops it there has not
touched the function. Once the function is called, only an answer of its own
can fail the field, and that failure is wrapped. -/

namespace WitSchema.Binding

open Conversion GraphQL Wit

def NativeTable.HoldsFunctions (table : NativeTable) : Prop :=
  ∀ entry ∈ table, entry.2 = .value .null ∨ ∃ answer, entry.2 = .function answer

/-- The first check that a call does not pass, with the error that comes of it. -/
inductive Stops (settings : Settings) (exportName : String) (f : Function) (host : Host)
    (arguments : List (String × Json)) : ResolveError → Prop
  | notObject {input} (given : arguments.lookup settings.inputArgumentName = some input)
      (truthy : input.isTruthy = true) (other : ∀ members, input ≠ .obj members)
      (wanted : f.params ≠ []) : Stops settings exportName f host arguments .notObject
  | missing
      (readable : ∀ input, arguments.lookup settings.inputArgumentName = some input →
        Readable f.params input)
      (absent : host.natives.lookup (fieldName exportName) = none ∨
        host.natives.lookup (fieldName exportName) = some (.value .null)) :
      Stops settings exportName f host arguments (.missingBinding f.name (fieldName exportName))
  | unready {answer}
      (readable : ∀ input, arguments.lookup settings.inputArgumentName = some input →
        Readable f.params input)
      (found : host.natives.lookup (fieldName exportName) = some (.function answer))
      (many : 1 < host.policy.maxAttempts) (unavailable : host.retryAvailable = false) :
      Stops settings exportName f host arguments (.invocation f.name .retryMissing)

theorem exists_decides (answers : Nat → Except Failure Json) {most : Nat} (positive : 0 < most) :
    ∃ k, Decides answers most k := by
  classical
  have failed {j : Nat} (none : ¬ ∃ v, answers j = .ok v) : ∃ e, answers j = .error e := by
    cases answered : answers j with
    | error e => exact ⟨e, rfl⟩
    | ok v => exact (none ⟨v, answered⟩).elim
  by_cases early : ∃ k, 0 < k ∧ k < most ∧ ∃ v, answers k = .ok v
  · obtain ⟨first, less, success⟩ := Nat.find_spec early
    refine ⟨Nat.find early, first, Nat.le_of_lt less, fun j after before => failed fun some => ?_,
      fun _ => success⟩
    exact Nat.find_min early before ⟨after, before.trans less, some⟩
  · refine ⟨most, positive, Nat.le_refl most, fun j after before => failed fun some => ?_,
      fun less => absurd less (Nat.lt_irrefl most)⟩
    exact early ⟨j, after, before, some⟩

theorem find?_eq_none_iff {table : NativeTable} {name : String} :
    table.find? name = none ↔
      table.lookup name = none ∨ table.lookup name = some (.value .null) := by
  unfold NativeTable.find?
  cases found : table.lookup name with
  | none => simp
  | some native =>
    cases native with
    | function answer => simp
    | value v => cases v <;> simp

theorem find?_of_function {table : NativeTable} {name : String}
    {answer : List Call → List Json → Except Failure Json}
    (found : table.lookup name = some (.function answer)) :
    table.find? name = some (.function answer) := by
  rw [NativeTable.find?, found]

section Stops

variable {g : Graph} {settings : Settings} {c : Converter} {f : Function} {q : QueryField}
  {exportName : String} {host : Host} {arguments : List (String × Json)} {e : ResolveError}

theorem not_readable_iff {params : List Param} {input : Json} :
    ¬ Readable params input ↔
      input.isTruthy = true ∧ (∀ members, input ≠ .obj members) ∧ params ≠ [] := by
  simp only [Readable, not_or, not_exists, Bool.not_eq_false]
  tauto

theorem positional_of_not_object {input : Json} {r : Resolver}
    (given : arguments.lookup r.argument = some input) (truthy : input.isTruthy = true)
    (other : ∀ members, input ≠ .obj members) (wanted : r.params ≠ []) :
    r.positional arguments = .error .notObject := by
  unfold Resolver.positional
  rw [given]
  cases input with
  | obj members => exact absurd rfl (other members)
  | _ => simp [truthy, wanted]

theorem Stops.run (stops : Stops settings exportName f host arguments e)
    (own : ∀ p ∈ ownParameters, arguments.lookup p = none) (calls : List Call) :
    Resolver.run ⟨f.name, fieldName exportName, paramNames f, settings.inputArgumentName⟩ host
      arguments calls = ⟨calls, [], .error e⟩ := by
  cases stops with
  | notObject given truthy other wanted =>
    have names : paramNames f ≠ [] := by simpa [paramNames] using wanted
    have refused := positional_of_not_object
      (r := ⟨f.name, fieldName exportName, paramNames f, settings.inputArgumentName⟩)
      given truthy other names
    simp only [Resolver.run, Resolver.ready, free_of_own own, refused]
  | missing readable absent =>
    rw [Resolver.run,
      ready_of_positional own (positional_of_readable (fieldName exportName) readable),
      find?_eq_none_iff.mpr absent]
    rfl
  | unready readable found many unavailable =>
    have further : host.policy.further host.retryAvailable = none := by
      rw [RetryPolicy.further, if_neg (Int.not_le.mpr many), unavailable]
      rfl
    rw [Resolver.run,
      ready_of_positional own (positional_of_readable (fieldName exportName) readable),
      find?_of_function found]
    simp only [Option.elim, RetryPolicy.run, further]
    rfl

theorem passes_of_not_stops (functions : host.natives.HoldsFunctions)
    (none : ∀ e, ¬ Stops settings exportName f host arguments e) :
    (∀ input, arguments.lookup settings.inputArgumentName = some input →
      Readable f.params input) ∧
    (∃ answer, host.natives.lookup (fieldName exportName) = some (.function answer)) ∧
    (host.policy.maxAttempts ≤ 1 ∨ host.retryAvailable = true) := by
  have readable : ∀ input, arguments.lookup settings.inputArgumentName = some input →
      Readable f.params input := by
    intro input given
    by_contra unreadable
    obtain ⟨truthy, other, wanted⟩ := not_readable_iff.mp unreadable
    exact none _ (.notObject given truthy other wanted)
  have found : ∃ answer,
      host.natives.lookup (fieldName exportName) = some (.function answer) := by
    cases there : host.natives.lookup (fieldName exportName) with
    | none => exact (none _ (.missing readable (.inl there))).elim
    | some native =>
      obtain rfl | ⟨answer, rfl⟩ := functions _ (mem_of_lookup there)
      · exact (none _ (.missing readable (.inr there))).elim
      · exact ⟨answer, rfl⟩
  refine ⟨readable, found, ?_⟩
  obtain ⟨answer, found⟩ := found
  by_contra wanting
  simp only [not_or, Bool.not_eq_true, Int.not_le] at wanting
  exact none _ (.unready readable found wanting.1 wanting.2)

theorem run_of_not_stops (functions : host.natives.HoldsFunctions)
    (own : ∀ p ∈ ownParameters, arguments.lookup p = none)
    (none : ∀ e, ¬ Stops settings exportName f host arguments e) (calls : List Call) :
    ∃ answer k, host.natives.lookup (fieldName exportName) = some (.function answer) ∧ 0 < k ∧
      Resolver.run ⟨f.name, fieldName exportName, paramNames f, settings.inputArgumentName⟩ host
          arguments calls =
        host.policy.repeated (callFor settings exportName f arguments) calls k
          ((answerTo answer (callFor settings exportName f arguments) calls k).mapError
            (.invocation f.name)) := by
  obtain ⟨readable, ⟨answer, found⟩, allowed⟩ := passes_of_not_stops functions none
  obtain ⟨left, -, most⟩ := RetryPolicy.further_eq allowed
  have positive : 0 < host.policy.most := by omega
  obtain ⟨k, decides⟩ := exists_decides
    (answerTo answer (callFor settings exportName f arguments) calls) positive
  refine ⟨answer, k, found, decides.positive, ?_⟩
  exact run_of_decides own (positional_of_readable (fieldName exportName) readable)
    (find?_of_function found) allowed decides

/-- The function is not called exactly if one of the checks before fails: a function with parameters
is given an input that is neither empty nor an object, or the table has nothing or `null` under the
name of the field, or several attempts are wanted without retrying at hand. The first of them gives
the error, without a pause and, for the first two, without wrapping. Otherwise the function is
called, and an error is the failure of its last call, wrapped with the name of the function. An
argument under the name of one of the resolver's own parameters is none that it can be given. -/
theorem untouched_iff_stopped (ok : (bind g settings c exportName f).result = .ok q)
    (functions : host.natives.HoldsFunctions)
    (own : ∀ p ∈ ownParameters, arguments.lookup p = none) (calls : List Call) :
    ((q.resolver.run host arguments calls).calls = calls ↔
      ∃ e, Stops settings exportName f host arguments e) ∧
    (∀ e, Stops settings exportName f host arguments e →
      q.resolver.run host arguments calls = ⟨calls, [], .error e⟩) ∧
    ((∀ e, ¬ Stops settings exportName f host arguments e) → ∃ answer n,
      host.natives.lookup (fieldName exportName) = some (.function answer) ∧ 0 < n ∧
      (q.resolver.run host arguments calls).calls =
        calls ++ List.replicate n (callFor settings exportName f arguments) ∧
      ∀ e, (q.resolver.run host arguments calls).result = .error e → ∃ cause,
        answerTo answer (callFor settings exportName f arguments) calls n = .error cause ∧
        e = .invocation f.name cause) := by
  obtain ⟨-, resolver⟩ := bind_bound ok
  rw [resolver]
  refine ⟨⟨fun same => ?_, fun ⟨e, stops⟩ => by rw [stops.run own]⟩,
    fun e stops => stops.run own calls, fun none => ?_⟩
  · by_contra passes
    obtain ⟨answer, k, -, positive, run⟩ :=
      run_of_not_stops functions own (not_exists.mp passes) calls
    rw [run] at same
    have none : List.replicate k (callFor settings exportName f arguments) = [] :=
      List.append_right_eq_self.mp same
    rw [List.replicate_eq_nil_iff] at none
    omega
  · obtain ⟨answer, k, found, positive, run⟩ := run_of_not_stops functions own none calls
    refine ⟨answer, k, found, positive, by rw [run]; rfl, fun e failed => ?_⟩
    rw [run] at failed
    exact exists_of_mapError failed

end Stops

/-- A text is no input, what is `null` in the table is missing whatever the policy, and the second
attempt needs retrying at hand; otherwise the greeting is asked for. -/
theorem greet_stopped :
    greetField.resolver.run (flakyHost 2) [("input", .str "Ada")] [] = ⟨[], [], .error .notObject⟩ ∧
    greetField.resolver.run { flakyHost 5 with natives := [("greet", .value .null)] }
        [("input", .obj ada)] [] =
      ⟨[], [], .error (.missingBinding (.str "greet") "greet")⟩ ∧
    greetField.resolver.run { flakyHost 5 with retryAvailable := false } [("input", .obj ada)] [] =
      ⟨[], [], .error (.invocation (.str "greet") .retryMissing)⟩ ∧
    ∃ n, 0 < n ∧ (greetField.resolver.run (flakyHost 2) [("input", .obj ada)] []).calls =
      List.replicate n ⟨"greet", [.str "Ada", .null]⟩ := by
  have field := bind_greet.1
  have free (v : Json) : ∀ p ∈ ownParameters, [("input", v)].lookup p = none := by
    have names : ∀ p ∈ ownParameters, (p == "input") = false := by decide
    intro p member
    rw [List.lookup_cons, names p member]
    rfl
  have readable : ∀ input,
      [("input", Json.obj ada)].lookup lenient.inputArgumentName = some input →
        Readable greet.params input := by
    rintro _ ⟨⟩
    exact .inl ⟨ada, rfl⟩
  have functions : (flakyHost 2).natives.HoldsFunctions := by
    intro entry member
    cases List.mem_singleton.mp member
    exact .inr ⟨flaky, rfl⟩
  have nothing : NativeTable.HoldsFunctions [("greet", .value .null)] := by
    intro entry member
    cases List.mem_singleton.mp member
    exact .inl rfl
  obtain ⟨-, text, -⟩ := untouched_iff_stopped field functions (free (.str "Ada")) []
  obtain ⟨-, absent, -⟩ := @untouched_iff_stopped nicknames lenient .empty greet greetField "greet"
    { flakyHost 5 with natives := [("greet", .value .null)] } _ field nothing (free (.obj ada)) []
  obtain ⟨-, unready, -⟩ := @untouched_iff_stopped nicknames lenient .empty greet greetField "greet"
    { flakyHost 5 with retryAvailable := false } _ field functions (free (.obj ada)) []
  obtain ⟨-, -, called⟩ := untouched_iff_stopped field functions (free (.obj ada)) []
  have passes : ∀ e, ¬ Stops lenient "greet" greet (flakyHost 2) [("input", .obj ada)] e := by
    intro e stops
    cases stops with
    | notObject given _ other _ =>
      cases given
      exact other ada rfl
    | missing _ absent => obtain ⟨⟨⟩⟩ | ⟨⟨⟩⟩ := absent
    | unready _ _ _ unavailable => cases unavailable
  obtain ⟨_, n, -, positive, calls, -⟩ := called passes
  exact ⟨text _ (.notObject rfl (by decide) nofun (by decide)),
    absent _ (.missing readable (.inr rfl)), unready _ (.unready readable rfl (by decide) rfl),
    n, positive, calls⟩

end WitSchema.Binding

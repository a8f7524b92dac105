import WitSchema.Proofs.Binding.Marshalling

/-! Repeated attempts. What an attempt comes to may depend on all the calls
before it. The attempt that decides is the first that succeeds, or the last
that the policy allows if none does: it ends the run, and its outcome is the
outcome of the run. -/

namespace WitSchema.Binding

open Conversion GraphQL Wit

def answerTo (answer : List Call → List Json → Except Failure Json) (call : Call)
    (calls : List Call) (k : Nat) : Except Failure Json :=
  answer (calls ++ List.replicate k call) call.args

/-- Attempts are counted from one. All before the deciding one fail, and it does not fail itself
where another might follow. -/
structure Decides (answers : Nat → Except Failure Json) (most k : Nat) : Prop where
  positive : 0 < k
  allowed : k ≤ most
  failed : ∀ j, 0 < j → j < k → ∃ e, answers j = .error e
  final : k < most → ∃ v, answers k = .ok v

section Attempts

variable {answers : Nat → Except Failure Json} {most k : Nat}

theorem Decides.eq_one_of_ok (h : Decides answers most k) {v : Json} (first : answers 1 = .ok v) :
    k = 1 := by
  by_contra other
  have positive := h.positive
  obtain ⟨e, failed⟩ := h.failed 1 Nat.one_pos (by omega)
  rw [first] at failed
  cases failed

theorem Decides.one_lt_of_error (h : Decides answers most k) (more : 1 < most) {e : Failure}
    (first : answers 1 = .error e) : 1 < k := by
  by_contra other
  obtain rfl : k = 1 := Nat.le_antisymm (Nat.le_of_not_lt other) h.positive
  obtain ⟨v, success⟩ := h.final more
  rw [first] at success
  cases success

variable {answer : List Call → List Json → Except Failure Json} {call : Call} {calls : List Call}
  {left n : Nat}

theorem replicate_after (calls : List Call) (call : Call) (k : Nat) :
    (calls ++ [call]) ++ List.replicate k call = calls ++ List.replicate (k + 1) call := by
  rw [List.append_assoc, List.singleton_append, List.replicate_succ]

theorem answerTo_after (k : Nat) :
    answerTo answer call (calls ++ [call]) k = answerTo answer call calls (k + 1) := by
  rw [answerTo, answerTo, replicate_after]

theorem Decides.after (h : Decides (answerTo answer call calls) (left + 1) (k + 1))
    (positive : 0 < k) : Decides (answerTo answer call (calls ++ [call])) left k where
  positive := positive
  allowed := Nat.le_of_succ_le_succ h.allowed
  failed j first before := by
    rw [answerTo_after]
    exact h.failed (j + 1) (Nat.succ_pos j) (Nat.succ_lt_succ before)
  final fewer := by
    rw [answerTo_after]
    exact h.final (Nat.succ_lt_succ fewer)

/-- A function is called once for each attempt up to the deciding one, with a pause in between. -/
theorem attempts_of_decides {pause : Nat → Float}
    (h : Decides (answerTo answer call calls) (left + 1) k) :
    attempts ((Native.function answer).invoke call.name call.args) pause left n calls =
      ⟨calls ++ List.replicate k call, (List.range' n (k - 1)).map pause,
        answerTo answer call calls k⟩ := by
  have step (calls : List Call) : (Native.function answer).invoke call.name call.args calls =
      (calls ++ [call], answerTo answer call calls 1) := rfl
  induction left generalizing n calls k with
  | zero =>
    obtain rfl : k = 1 := Nat.le_antisymm h.allowed h.positive
    simp only [attempts, step]
    rfl
  | succ left ih =>
    cases first : answerTo answer call calls 1 with
    | ok v =>
      obtain rfl := h.eq_one_of_ok first
      simp only [attempts, step, first]
      rfl
    | error e =>
      have more := h.one_lt_of_error (by omega) first
      obtain ⟨k, rfl⟩ : ∃ k', k = k' + 2 := ⟨k - 2, by omega⟩
      simp only [attempts, step, first]
      rw [ih (h.after (Nat.succ_pos k)), replicate_after, answerTo_after]
      rfl

end Attempts

def RetryPolicy.most (p : RetryPolicy) : Nat := (max p.maxAttempts 1).toNat

theorem RetryPolicy.further_eq {p : RetryPolicy} {available : Bool}
    (allowed : p.maxAttempts ≤ 1 ∨ available = true) :
    ∃ left, p.further available = some left ∧ p.most = left + 1 := by
  unfold RetryPolicy.further RetryPolicy.most
  split
  · exact ⟨0, rfl, by omega⟩
  · rename_i many
    rw [allowed.resolve_left many]
    exact ⟨_, rfl, by omega⟩

def RetryPolicy.repeated (p : RetryPolicy) (call : Call) (calls : List Call) (k : Nat)
    (r : Except ResolveError Json) : Run ResolveError :=
  ⟨calls ++ List.replicate k call, (List.range' 1 (k - 1)).map p.pause, r⟩

/-- The resolver can look for the members of the parameters: in an object, in something empty that
stands for one, or for none at all. -/
def Readable (params : List Param) (input : Json) : Prop :=
  (∃ members, input = .obj members) ∨ input.isTruthy = false ∨ params = []

section Resolver

variable {g : Graph} {settings : Settings} {c : Converter} {f : Function} {q : QueryField}
  {exportName : String} {host : Host} {arguments : List (String × Json)}
  {answer : List Call → List Json → Except Failure Json}

def callFor (settings : Settings) (exportName : String) (f : Function)
    (arguments : List (String × Json)) : Call :=
  ⟨fieldName exportName, f.params.map (inputFor settings arguments)⟩

theorem positional_of_readable (field : String)
    (readable : ∀ input, arguments.lookup settings.inputArgumentName = some input →
      Readable f.params input) :
    Resolver.positional ⟨f.name, field, paramNames f, settings.inputArgumentName⟩ arguments =
      .ok (f.params.map (inputFor settings arguments)) := by
  unfold Resolver.positional inputFor paramNames
  cases found : arguments.lookup settings.inputArgumentName with
  | none => simp [Json.isTruthy, Function.comp_def]
  | some input =>
    obtain ⟨members, rfl⟩ | empty | none := readable input found
    · simp [Json.member?, Function.comp_def]
    · cases input <;> simp [empty, Json.member?, Function.comp_def]
    · cases input <;> simp [none]

theorem run_of_decides {r : Resolver} {args : List Json} {calls : List Call} {k : Nat}
    (own : ∀ p ∈ ownParameters, arguments.lookup p = none)
    (positional : r.positional arguments = .ok args)
    (found : host.natives.find? r.field = some (.function answer))
    (allowed : host.policy.maxAttempts ≤ 1 ∨ host.retryAvailable = true)
    (decides : Decides (answerTo answer ⟨r.field, args⟩ calls) host.policy.most k) :
    r.run host arguments calls = host.policy.repeated ⟨r.field, args⟩ calls k
      ((answerTo answer ⟨r.field, args⟩ calls k).mapError (.invocation r.function)) := by
  obtain ⟨left, further, most⟩ := RetryPolicy.further_eq allowed
  rw [most] at decides
  have tried : attempts (ReadyCall.attempt ⟨r.function, r.field, .function answer, args⟩)
      host.policy.pause left 1 calls = ⟨calls ++ List.replicate k ⟨r.field, args⟩,
        (List.range' 1 (k - 1)).map host.policy.pause,
        answerTo answer ⟨r.field, args⟩ calls k⟩ := attempts_of_decides decides
  rw [Resolver.run, ready_of_positional own positional, found]
  simp only [Option.elim, RetryPolicy.run, further, tried]
  rfl

end Resolver

def flaky (calls : List Call) (_ : List Json) : Except Failure Json :=
  if calls.length < 3 then .error (.raised "ConnectionError" "host busy") else .ok (.str "Hello")

def flakyHost (maxAttempts : Int) : Host :=
  ⟨[("greet", .function flaky)], ⟨maxAttempts, .linear, 0.5⟩, true⟩

end WitSchema.Binding

import Mathlib.Data.List.Induction
import WitSchema.Proofs.Command.Stages
import WitSchema.GraphQL.Validity
import WitSchema.Proofs.Text.OneLine

/-! How an invocation ends: what it prints and reports, and its exit code. -/

namespace WitSchema.Command

open Binding GraphQL Wit

def Outcome.code? (o : Outcome) : Option Nat :=
  match o.ending with
  | .exit code _ => some code
  | .reported _ => some 1
  | .escaped _ => none

section Report

variable {i : Invocation} {s : Surroundings} {fault : Fault}

def WholeLines (text : String) : Prop := text = "" ∨ ∃ earlier, text = earlier ++ "\n"

theorem wholeLines_join (lines : List String) : WholeLines (String.join (lines.map (· ++ "\n"))) := by
  induction lines using List.reverseRecOn with
  | nil => exact .inl rfl
  | append_singleton lines line _ =>
    refine .inr ⟨String.join (lines.map (· ++ "\n")) ++ line, ?_⟩
    rw [List.map_append, String.join_append, List.map_singleton, String.join_cons, String.join_nil,
      String.append_empty, String.append_assoc]

theorem report_reported {o : Outcome} (reported : o.ending = .reported fault) (verbose : Bool) :
    ∃ log, WholeLines log ∧ o.report verbose = log ++ "Error: " ++ fault.message ++ "\n" := by
  refine ⟨_, wholeLines_join ((o.notices.filter fun n => verbose || n.isWarning).filterMap
    (·.logLine?)), ?_⟩
  simp only [Outcome.report, reported, List.map_append, String.join_append, List.map_singleton,
    String.join_cons, String.join_nil, String.append_empty, String.append_assoc]

theorem violations_of_fails {violations : List Violation} {manual : Option String}
    (fails : i.Fails s (.settings violations manual)) : violations ≠ [] := by
  generalize same : Fault.settings violations manual = fault at fails
  cases fails with
  | settings loaded equipped rejected =>
    obtain ⟨_, rfl⟩ | ⟨_, some, rfl⟩ := settings_error rejected
    · cases same
    · cases same
      exact some
  | graph named unread =>
    obtain ⟨_, rfl⟩ | ⟨_, rfl⟩ | ⟨_, _, _, -, -, -, rfl⟩ := loadGraph_error unread <;> cases same
  | _ => cases same

/-- A fault fits on a line unless it is told in several. -/
theorem fails_oneLine (fails : i.Fails s fault) : OneLine fault.message ↔ ¬ Sprawls fault := by
  refine ⟨fun line sprawls => ?_, oneLine_faultMessage⟩
  cases sprawls with
  | settings violations manual => exact not_oneLine_violationsText (violations_of_fails fails) line
  | file long => exact long line
  | component long => exact long line
  | output long => exact long line

end Report

namespace Invocation

def Delivers (i : Invocation) (s : Surroundings) (output : String) : Prop :=
  (∃ text, i.Describes s text ∧ output = text ++ "\n") ∨
    ∃ result, i.Responds s result ∧ ¬ HasErrors result ∧ output = result.pretty ++ "\n"

def Complains (i : Invocation) (s : Surroundings) (output : String) : Prop :=
  ∃ result, i.Responds s result ∧ HasErrors result ∧ output = result.pretty ++ "\n"

variable {i : Invocation} {s : Surroundings} {output : String}

theorem Delivers.yields (delivers : i.Delivers s output) : i.Yields s output := by
  obtain described | ⟨result, responds, -, rfl⟩ := delivers
  · exact .inl described
  · exact .inr ⟨result, responds, rfl⟩

theorem Complains.yields (complains : i.Complains s output) : i.Yields s output := by
  obtain ⟨result, responds, -, rfl⟩ := complains
  exact .inr ⟨result, responds, rfl⟩

end Invocation

/-- The four ways in which an invocation ends. -/
inductive Verdict (i : Invocation) (s : Surroundings) : Ending → Prop
  | delivered {output} (delivers : i.Delivers s output) (printed : s.unprintable output = none) :
      Verdict i s (.exit 0 output)
  | complained {output} (complains : i.Complains s output)
      (printed : s.unprintable output = none) : Verdict i s (.exit 1 output)
  | reported {fault} (fails : i.Fails s fault) (foreseen : Foreseen fault) :
      Verdict i s (.reported fault)
  | escaped {fault} (fails : i.Fails s fault) (unforeseen : ¬ Foreseen fault) :
      Verdict i s (.escaped fault)

section Verdict

variable {i : Invocation} {s : Surroundings} {output : String}

theorem print_of_printable {code : Nat} (printed : s.unprintable output = none) :
    s.print code output = .exit code output := by
  rw [Surroundings.print, printed]

theorem ending_of_verdict {ending : Ending} (verdict : Verdict i s ending) :
    (i.run s).ending = ending := by
  cases verdict with
  | delivered delivers printed =>
    rw [← print_of_printable printed]
    obtain ⟨text, describes, rfl⟩ | ⟨result, responds, flawless, rfl⟩ := delivers
    · exact describes_ending describes
    · exact (responds_ending responds).2 flawless
  | complained complains printed =>
    rw [← print_of_printable printed]
    obtain ⟨result, responds, failed, rfl⟩ := complains
    exact (responds_ending responds).1 failed
  | reported fails foreseen =>
    rw [fails_ending fails, Fault.ending, if_pos (foreseen_iff.mp foreseen)]
  | escaped fails unforeseen =>
    rw [fails_ending fails, Fault.ending, if_neg (mt foreseen_iff.mpr unforeseen)]

theorem exists_verdict (i : Invocation) (s : Surroundings) :
    ∃ ending, (i.run s).ending = ending ∧ Verdict i s ending := by
  suffices judged : ∃ ending, Verdict i s ending by
    obtain ⟨ending, verdict⟩ := judged
    exact ⟨ending, ending_of_verdict verdict, verdict⟩
  obtain ⟨fault, fails⟩ | ⟨output, yields⟩ := exists_ending i s
  · by_cases foreseen : Foreseen fault
    · exact ⟨_, .reported fails foreseen⟩
    · exact ⟨_, .escaped fails foreseen⟩
  cases printed : s.unprintable output with
  | some reason => exact ⟨_, .reported (.output yields printed) (.output reason)⟩
  | none =>
    obtain ⟨text, describes, rfl⟩ | ⟨result, responds, rfl⟩ := yields
    · exact ⟨_, .delivered (.inl ⟨text, describes, rfl⟩) printed⟩
    · by_cases failed : HasErrors result
      · exact ⟨_, .complained ⟨result, responds, failed, rfl⟩ printed⟩
      · exact ⟨_, .delivered (.inr ⟨result, responds, failed, rfl⟩) printed⟩

/-- What an invocation yields has been printed if it is the output, for it ends in a line break. -/
theorem printable_of_yields (yields : i.Yields s (i.run s).output) :
    s.unprintable (i.run s).output = none := by
  cases refused : s.unprintable (i.run s).output with
  | none => rfl
  | some reason =>
    have ends := ending_of_verdict (.reported (.output yields refused) (.output reason))
    have silent : (i.run s).output = "" := by rw [Outcome.output, ends]
    rw [silent] at yields
    obtain ⟨text, -, same⟩ | ⟨result, -, same⟩ := yields <;> exact absurd same (by simp)

theorem code_zero_iff : (i.run s).code? = some 0 ↔ i.Delivers s (i.run s).output := by
  constructor
  · intro zero
    obtain ⟨ending, ends, verdict⟩ := exists_verdict i s
    cases verdict with
    | delivered delivers => simpa only [Outcome.output, ends] using delivers
    | _ => simp [Outcome.code?, ends] at zero
  · intro delivers
    have printed := printable_of_yields delivers.yields
    simp only [Outcome.code?, ending_of_verdict (.delivered delivers printed)]

theorem code_one_iff : (i.run s).code? = some 1 ↔
    i.Complains s (i.run s).output ∨ ∃ fault, i.Fails s fault ∧ Foreseen fault := by
  constructor
  · intro one
    obtain ⟨ending, ends, verdict⟩ := exists_verdict i s
    cases verdict with
    | complained complains => exact .inl (by simpa only [Outcome.output, ends] using complains)
    | reported fails foreseen => exact .inr ⟨_, fails, foreseen⟩
    | _ => simp [Outcome.code?, ends] at one
  · rintro (complains | ⟨fault, fails, foreseen⟩)
    · have printed := printable_of_yields complains.yields
      simp only [Outcome.code?, ending_of_verdict (.complained complains printed)]
    · simp only [Outcome.code?, ending_of_verdict (.reported fails foreseen)]

theorem code_none_iff :
    (i.run s).code? = none ↔ ∃ fault, i.Fails s fault ∧ ¬ Foreseen fault := by
  constructor
  · intro none
    obtain ⟨ending, ends, verdict⟩ := exists_verdict i s
    cases verdict with
    | escaped fails unforeseen => exact ⟨_, fails, unforeseen⟩
    | _ => simp [Outcome.code?, ends] at none
  · rintro ⟨fault, fails, unforeseen⟩
    simp only [Outcome.code?, ending_of_verdict (.escaped fails unforeseen)]

theorem code_cases {code : Nat} (known : (i.run s).code? = some code) : code = 0 ∨ code = 1 := by
  obtain ⟨ending, ends, verdict⟩ := exists_verdict i s
  simp only [Outcome.code?, ends] at known
  cases verdict with
  | delivered => exact .inl (Option.some.inj known).symm
  | complained | reported => exact .inr (Option.some.inj known).symm
  | escaped => cases known

end Verdict

/-- The exit code is 0 iff the schema or a result without errors is printed, and 1 iff a result
with errors is printed, or the first fault is one that the program expects. Then nothing is
printed, and the report ends with a line for the fault, unless the fault takes several. Any other
fault ends the program without a code. It comes from a marker or a relative name among the
arguments, from a component that breaks down, from a graph that is not well shaped, from a name that
cannot stand in the schema, or from a document too deep for the front end. -/
theorem run_ends (i : Invocation) (s : Surroundings) :
    (∀ code, (i.run s).code? = some code → code = 0 ∨ code = 1) ∧
    ((i.run s).code? = some 0 ↔ i.Delivers s (i.run s).output) ∧
    ((i.run s).code? = some 1 ↔
      i.Complains s (i.run s).output ∨ ∃ fault, i.Fails s fault ∧ Foreseen fault) ∧
    ((i.run s).code? = none ↔ ∃ fault, i.Fails s fault ∧ ¬ Foreseen fault) ∧
    ∀ fault, i.Fails s fault → (Foreseen fault ∨ i.Provokes s fault) ∧
      (Foreseen fault → (i.run s).output = "" ∧
        (∀ verbose, ∃ log, WholeLines log ∧
          (i.run s).report verbose = log ++ "Error: " ++ fault.message ++ "\n") ∧
        (OneLine fault.message ↔ ¬ Sprawls fault)) := by
  refine ⟨fun _ => code_cases, code_zero_iff, code_one_iff, code_none_iff, fun fault fails => ?_⟩
  refine ⟨fails_cause fails, fun foreseen => ?_⟩
  have reported := ending_of_verdict (.reported fails foreseen)
  exact ⟨by rw [Outcome.output, reported], report_reported reported, fails_oneLine fails⟩

def listed : Surroundings where
  file path := if path = "g.json" then .ok "[]" else .error (.missing path)
  env := []
  components := []
  retryAvailable := true
  frontEnd := .plain fun _ _ _ => .refused .null []
  manual := none
  unprintable _ := none

def listedSchema : Invocation := ⟨false, some "g.json", .schema, none, none⟩

theorem list_escapes : Invocation.ofArguments ["schema", "g.json"] = .ok listedSchema ∧
    (listedSchema.run listed).code? = none :=
  ⟨rfl, rfl⟩

end WitSchema.Command

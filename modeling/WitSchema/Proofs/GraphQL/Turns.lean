import Mathlib.Data.List.Forall2
import WitSchema.GraphQL.Execution

/-! What comes of a field in the turns. A field that is known stays as it is,
and one that waits gets the answer of its own native to one of its own
attempts. The other fields decide only which calls were made before. -/

namespace WitSchema

namespace Binding

/-- A native answers these arguments alike, whatever was called before. -/
def Native.Gives (n : Native) (args : List Json) (answer : Except Failure Json) : Prop :=
  ∀ name calls, (n.invoke name args calls).2 = answer

/-- Two hosts have no native of this name, or natives that answer these arguments alike. -/
def Host.AnswersAlike (host other : Host) (name : String) (args : List Json) : Prop :=
  match host.natives.find? name, other.natives.find? name with
  | none, none => True
  | some n, some m => ∃ answer, n.Gives args answer ∧ m.Gives args answer
  | _, _ => False

end Binding

namespace GraphQL

open Binding

inductive Attempted.Comes (possible : Bool) : Attempted → Settled → Prop
  | known (s : Settled) : Comes possible (.settled s) s
  | answered (c : ReadyCall) (turn : Nat) (calls : List Call) (attempts : possible = true) :
      Comes possible (.waiting c) (.ofAttempt c turn (c.attempt calls).2)
  | unable (c : ReadyCall) (none : possible = false) :
      Comes possible (.waiting c) (.ofAttempt c 1 (.error .retryMissing))

namespace Turns

/-- One turn leaves a field as it is or settles it with an answer of its native. -/
inductive Goes (turn : Nat) : Attempted → Attempted → Prop
  | stays (a : Attempted) : Goes turn a a
  | settles (c : ReadyCall) (calls : List Call) :
      Goes turn (.waiting c) (.settled (.ofAttempt c turn (c.attempt calls).2))

theorem Goes.comes {turn : Nat} {a b : Attempted} {s : Settled} (goes : Goes turn a b)
    (comes : b.Comes true s) : a.Comes true s := by
  cases goes with
  | stays => exact comes
  | settles c calls =>
    cases comes with
    | known => exact .answered c turn calls rfl

theorem take_goes (turn : Nat) (calls : List Call) (fields : List Attempted) :
    List.Forall₂ (Goes turn) fields (take turn calls fields).2 := by
  induction fields generalizing calls with
  | nil => exact .nil
  | cons a rest ih =>
    cases a with
    | settled s => exact .cons (.stays _) (ih calls)
    | waiting c =>
      simp only [take]
      refine .cons ?_ (ih _)
      have settles : Goes turn _ _ := .settles c calls
      split
      · exact settles
      · exact .stays _

theorem takeLast_comes (turn : Nat) (calls : List Call) (fields : List Attempted) :
    List.Forall₂ (Attempted.Comes true) fields (takeLast turn calls fields).2 := by
  induction fields generalizing calls with
  | nil => exact .nil
  | cons a rest ih =>
    cases a with
    | settled s => exact .cons (.known s) (ih calls)
    | waiting c => exact .cons (.answered c turn calls rfl) (ih _)

theorem comes_of_goes {turn : Nat} {before after : List Attempted} {settled : List Settled}
    (goes : List.Forall₂ (Goes turn) before after)
    (comes : List.Forall₂ (Attempted.Comes true) after settled) :
    List.Forall₂ (Attempted.Comes true) before settled := by
  induction goes generalizing settled with
  | nil => exact comes
  | cons head _ ih =>
    obtain ⟨s, rest, first, others, rfl⟩ := List.forall₂_cons_left_iff.mp comes
    exact .cons (head.comes first) (ih others)

/-- By induction on the turns left: a turn lets each field go on by itself, and so does the run. -/
theorem run_comes (left turn : Nat) (calls : List Call) (fields : List Attempted) :
    List.Forall₂ (Attempted.Comes true) fields (run left turn calls fields).2 := by
  induction left generalizing turn calls fields with
  | zero => exact takeLast_comes turn calls fields
  | succ left ih =>
    apply comes_of_goes (take_goes turn calls fields)
    simp only [run]
    split
    · exact ih ..
    · exact takeLast_comes ..

end Turns

/-- Two fields begin alike: they are known to be the same, or they wait for natives of one function
that give the same answer. -/
inductive Attempted.Alike : Attempted → Attempted → Prop
  | known {s t : Settled} (result : s.result = t.result) : Alike (.settled s) (.settled t)
  | waiting {c d : ReadyCall} {answer : Except Failure Json} (function : c.function = d.function)
      (left : c.native.Gives c.args answer) (right : d.native.Gives d.args answer) :
      Alike (.waiting c) (.waiting d)

theorem Attempted.Comes.result_eq {possible : Bool} {a b : Attempted} {s t : Settled}
    (alike : a.Alike b) (first : a.Comes possible s) (second : b.Comes possible t) :
    s.result = t.result := by
  cases alike with
  | known result =>
    cases first with
    | known => cases second with
      | known => exact result
  | @waiting c d answer function left right =>
    have same : ∀ r : Except Failure Json, (Settled.ofAttempt c 1 r).result =
        (Settled.ofAttempt d 1 r).result := by
      intro r
      simp only [Settled.ofAttempt, function]
    cases first with
    | answered _ _ calls attempts =>
      cases second with
      | answered _ _ others _ =>
        have first : (c.attempt calls).2 = answer := left _ _
        have second : (d.attempt others).2 = answer := right _ _
        rw [first, second]
        exact same answer
      | unable _ none => exact absurd (attempts.symm.trans none) (by decide)
    | unable _ none =>
      cases second with
      | answered _ _ _ attempts => exact absurd (attempts.symm.trans none) (by decide)
      | unable => exact same _

end GraphQL

end WitSchema

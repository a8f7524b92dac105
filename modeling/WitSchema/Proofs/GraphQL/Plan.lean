import Mathlib.Data.List.Nodup
import WitSchema.GraphQL.Plan
import WitSchema.Proofs.Insertion

/-! The keys of a plan. Fields beside each other have different keys, at every
depth. What stands under a key comes from the selections with this key alone,
and from where they stand in the text it takes nothing but their places. -/

namespace WitSchema.GraphQL

mutual

def PlannedField.moved (place : Nat → Nat) : PlannedField → PlannedField
  | ⟨key, name, arguments, offsets, hasBraces, children⟩ =>
    ⟨key, name, arguments, offsets.map place, hasBraces, planMoved place children⟩

def planMoved (place : Nat → Nat) : List PlannedField → List PlannedField
  | [] => []
  | f :: rest => f.moved place :: planMoved place rest

end

mutual

def Selection.moved (place : Nat → Nat) : Selection → Selection
  | ⟨offset, key, name, arguments, hasBraces, selections⟩ =>
    ⟨place offset, key, name, arguments, hasBraces, selectionsMoved place selections⟩

def selectionsMoved (place : Nat → Nat) : List Selection → List Selection
  | [] => []
  | s :: rest => s.moved place :: selectionsMoved place rest

end

section Moved

variable (place : Nat → Nat)

@[simp]
theorem PlannedField.moved_key (f : PlannedField) : (f.moved place).key = f.key := by
  cases f; rfl

@[simp]
theorem PlannedField.moved_name (f : PlannedField) : (f.moved place).name = f.name := by
  cases f; rfl

@[simp]
theorem PlannedField.moved_arguments (f : PlannedField) :
    (f.moved place).arguments = f.arguments := by
  cases f; rfl

@[simp]
theorem PlannedField.moved_offsets (f : PlannedField) :
    (f.moved place).offsets = f.offsets.map place := by
  cases f; rfl

@[simp]
theorem PlannedField.moved_children (f : PlannedField) :
    (f.moved place).children = planMoved place f.children := by
  cases f; rfl

theorem planMoved_eq_map (plan : Plan) : planMoved place plan = plan.map (·.moved place) := by
  induction plan with
  | nil => rfl
  | cons f rest ih => simp [planMoved, ih]

theorem planMoved_keys (plan : Plan) :
    (planMoved place plan).map (·.key) = plan.map (·.key) := by
  simp [planMoved_eq_map, Function.comp_def]

end Moved

namespace Plan

section Keys

variable {plan plan' : Plan}

theorem addAll?_mem_keys {selections : List Selection} (h : addAll? plan selections = some plan')
    (key : String) :
    key ∈ plan'.map (·.key) ↔ key ∈ plan.map (·.key) ∨ key ∈ selections.map (·.key) := by
  induction selections generalizing plan with
  | nil =>
    rw [addAll?, Option.some.injEq] at h
    simp [h]
  | cons s rest ih =>
    obtain ⟨middle, first, last⟩ := addAll?_cons h
    rw [ih last, List.map_cons, List.mem_cons]
    rcases add?_keys first with ⟨member, keys⟩ | ⟨-, keys⟩
    · rw [keys]
      constructor
      · rintro (h | h) <;> simp [h]
      · rintro (h | rfl | h)
        · exact .inl h
        · exact .inl member
        · exact .inr h
    · simp only [keys, List.mem_append, List.mem_singleton, or_assoc]

end Keys

theorem ofSelections?_mem_keys {selections : List Selection} {plan : Plan}
    (h : ofSelections? selections = some plan) (key : String) :
    key ∈ plan.map (·.key) ↔ key ∈ selections.map (·.key) := by
  simpa using addAll?_mem_keys h key

theorem distinct_leaves {plan : Plan} (keys : (plan.map (·.key)).Nodup)
    (leaves : ∀ f ∈ plan, f.children.isEmpty) : Distinct plan := by
  refine ⟨keys, fun f member => ?_⟩
  rw [List.isEmpty_iff.mp (leaves f member)]
  exact distinct_nil

/-! ### What stands under one key -/

section Own

variable {plan plan' : Plan} {s : Selection} {key : String}

theorem replace_filter (new : PlannedField) (plan : Plan) :
    (replace new plan).filter (·.key == new.key) =
      replace new (plan.filter (·.key == new.key)) := by
  induction plan with
  | nil => rfl
  | cons f rest ih =>
    by_cases same : f.key = new.key
    · simp [replace, same]
    · simp [replace, same, ih]

theorem replace_filter_other {new : PlannedField} (other : new.key ≠ key) (plan : Plan) :
    (replace new plan).filter (·.key == key) = plan.filter (·.key == key) := by
  induction plan with
  | nil => rfl
  | cons f rest ih =>
    by_cases same : f.key = new.key
    · simp [replace, same, other]
    · simp [replace, same, List.filter_cons, ih]

theorem find?_filter_key (plan : Plan) (key : String) :
    (plan.filter (·.key == key)).find? (·.key == key) = plan.find? (·.key == key) := by
  simp only [List.find?_filter, and_self, Bool.decide_eq_true]

theorem add?_own (own : s.key = key) (h : add? plan s = some plan') :
    add? (plan.filter (·.key == key)) s = some (plan'.filter (·.key == key)) := by
  subst own
  have cases := add?_cases h
  obtain ⟨offset, key, name, arguments, hasBraces, selections⟩ := s
  rw [add?, find?_filter_key]
  obtain ⟨children, found, added, rfl⟩ | ⟨f, children, found, agree, added, rfl⟩ := cases
  · simp only at found added
    simp only [found, added, Option.map_some, List.filter_append]
    simp
  · have same : f.key = key := find?_key found
    simp only at found added
    simp only [found, agree, if_true, added, Option.map_some]
    have moved := replace_filter { f with offsets := f.offsets ++ [offset], children } plan
    simp only [same] at moved
    rw [same] at *
    simp only [moved]

theorem add?_other (other : s.key ≠ key) (h : add? plan s = some plan') :
    plan'.filter (·.key == key) = plan.filter (·.key == key) := by
  obtain ⟨children, -, -, rfl⟩ | ⟨f, children, found, -, -, rfl⟩ := add?_cases h
  · simp [other]
  · apply replace_filter_other
    rw [show _ = f.key from rfl, find?_key found]
    exact other

theorem addAll?_own {selections : List Selection} (key : String)
    (h : addAll? plan selections = some plan') :
    addAll? (plan.filter (·.key == key)) (selections.filter (·.key == key)) =
      some (plan'.filter (·.key == key)) := by
  induction selections generalizing plan with
  | nil =>
    rw [addAll?, Option.some.injEq] at h
    rw [List.filter_nil, addAll?, h]
  | cons s rest ih =>
    obtain ⟨middle, first, last⟩ := addAll?_cons h
    by_cases own : s.key = key
    · rw [List.filter_cons_of_pos (by simpa using own), addAll?, add?_own own first,
        Option.bind_some]
      exact ih last
    · rw [List.filter_cons_of_neg (by simpa using own), ← add?_other own first]
      exact ih last

/-- A field of a plan is what the selections with its key come to by themselves. -/
theorem ofSelections?_own {selections : List Selection} {f : PlannedField}
    (h : ofSelections? selections = some plan) (member : f ∈ plan) :
    ofSelections? (selections.filter (·.key == f.key)) = some [f] := by
  obtain ⟨keys, -⟩ := ofSelections?_distinct h
  rw [← filter_key_eq keys member]
  exact addAll?_own f.key h

end Own

section Moved

variable (place : Nat → Nat)

theorem agrees_moved (f : PlannedField) (s : Selection) :
    agrees (f.moved place) (s.moved place) = agrees f s := by
  cases f; cases s; rfl

theorem replace_moved (new : PlannedField) (plan : Plan) :
    replace (new.moved place) (planMoved place plan) = planMoved place (replace new plan) := by
  induction plan with
  | nil => rfl
  | cons f rest ih =>
    rw [planMoved, replace, replace, PlannedField.moved_key, PlannedField.moved_key, ih]
    split <;> rfl

theorem find?_moved (plan : Plan) (key : String) :
    (planMoved place plan).find? (·.key == key) =
      (plan.find? (·.key == key)).map (·.moved place) := by
  have same : ((·.key == key) ∘ PlannedField.moved place) = (·.key == key) := by
    funext f
    rw [Function.comp_apply, PlannedField.moved_key]
  rw [planMoved_eq_map, List.find?_map, same]

theorem planMoved_append (xs ys : Plan) :
    planMoved place (xs ++ ys) = planMoved place xs ++ planMoved place ys := by
  simp [planMoved_eq_map]

mutual

theorem add?_moved (plan : Plan) : ∀ s : Selection,
    add? (planMoved place plan) (s.moved place) = (add? plan s).map (planMoved place)
  | ⟨offset, key, name, arguments, hasBraces, selections⟩ => by
    have agree := fun f =>
      agrees_moved place f ⟨offset, key, name, arguments, hasBraces, selections⟩
    simp only [Selection.moved] at agree ⊢
    rw [add?, add?, find?_moved]
    cases plan.find? (·.key == key) with
    | none =>
      have below := addAll?_moved [] selections
      rw [planMoved] at below
      simp only [Option.map_none, below, Option.map_map]
      congr 1
      funext children
      simp [planMoved_append, planMoved, PlannedField.moved]
    | some f =>
      have below := addAll?_moved f.children selections
      simp only [Option.map_some, agree, PlannedField.moved_children, below]
      split
      · simp only [Option.map_map]
        congr 1
        funext children
        simp only [Function.comp_apply, ← replace_moved]
        congr 1
        cases f
        simp [PlannedField.moved]
      · rfl

theorem addAll?_moved (plan : Plan) : ∀ selections : List Selection,
    addAll? (planMoved place plan) (selectionsMoved place selections) =
      (addAll? plan selections).map (planMoved place)
  | [] => rfl
  | s :: rest => by
    rw [selectionsMoved, addAll?, addAll?, add?_moved plan s]
    cases add? plan s with
    | none => rfl
    | some middle => exact addAll?_moved middle rest

end

theorem ofSelections?_moved (selections : List Selection) :
    ofSelections? (selectionsMoved place selections) =
      (ofSelections? selections).map (planMoved place) :=
  addAll?_moved place [] selections

end Moved

end Plan

end WitSchema.GraphQL

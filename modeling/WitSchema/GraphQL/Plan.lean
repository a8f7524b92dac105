import WitSchema.GraphQL.Document

/-! What a document asks for, with each key once. Selections under one key
merge if they name the same field with the same arguments; what they select
below merges in turn. Fields beside each other have different keys, at every
depth. -/

namespace WitSchema.GraphQL

/-- A field to be answered under a key, and the places it is selected at. -/
structure PlannedField where
  key : String
  name : String
  arguments : List (String × Literal)
  offsets : List Nat
  hasBraces : Bool
  children : List PlannedField

abbrev Plan := List PlannedField

inductive Plan.Distinct : Plan → Prop
  | intro {plan : Plan} (keys : (plan.map (·.key)).Nodup)
      (children : ∀ f ∈ plan, Plan.Distinct f.children) : Plan.Distinct plan

namespace Plan

def agrees (f : PlannedField) (s : Selection) : Bool :=
  f.name == s.name && Literal.sameArguments f.arguments s.arguments &&
    f.hasBraces == s.hasBraces

def replace (new : PlannedField) : Plan → Plan
  | [] => []
  | f :: rest => if f.key == new.key then new :: rest else f :: replace new rest

mutual

def add? (plan : Plan) : Selection → Option Plan
  | ⟨offset, key, name, arguments, hasBraces, selections⟩ =>
    match plan.find? (·.key == key) with
    | none => (addAll? [] selections).map fun children =>
        plan ++ [⟨key, name, arguments, [offset], hasBraces, children⟩]
    | some f =>
      if agrees f ⟨offset, key, name, arguments, hasBraces, selections⟩ then
        (addAll? f.children selections).map fun children =>
          replace { f with offsets := f.offsets ++ [offset], children := children } plan
      else none

def addAll? (plan : Plan) : List Selection → Option Plan
  | [] => some plan
  | s :: rest => (add? plan s).bind fun plan => addAll? plan rest

end

def ofSelections? (selections : List Selection) : Option Plan := addAll? [] selections

theorem add?_cases {plan plan' : Plan} {s : Selection} (h : add? plan s = some plan') :
    (∃ children, plan.find? (·.key == s.key) = none ∧ addAll? [] s.selections = some children ∧
      plan' = plan ++ [⟨s.key, s.name, s.arguments, [s.offset], s.hasBraces, children⟩]) ∨
    ∃ f children, plan.find? (·.key == s.key) = some f ∧ agrees f s = true ∧
      addAll? f.children s.selections = some children ∧
      plan' = replace { f with offsets := f.offsets ++ [s.offset], children := children } plan := by
  obtain ⟨offset, key, name, arguments, hasBraces, selections⟩ := s
  rw [add?] at h
  cases found : plan.find? (·.key == key) with
  | none =>
    simp only [found, Option.map_eq_some_iff] at h
    obtain ⟨children, below, rfl⟩ := h
    exact .inl ⟨children, rfl, below, rfl⟩
  | some f =>
    simp only [found] at h
    split at h
    · rename_i agree
      obtain ⟨children, below, rfl⟩ := Option.map_eq_some_iff.mp h
      exact .inr ⟨f, children, rfl, agree, below, rfl⟩
    · exact absurd h (by simp)

theorem addAll?_cons {plan plan' : Plan} {s : Selection} {rest : List Selection}
    (h : addAll? plan (s :: rest) = some plan') :
    ∃ middle, add? plan s = some middle ∧ addAll? middle rest = some plan' := by
  rw [addAll?] at h
  exact Option.bind_eq_some_iff.mp h

section Keys

variable {plan plan' : Plan} {new f : PlannedField} {s : Selection}

theorem find?_key (h : plan.find? (·.key == s.key) = some f) : f.key = s.key := by
  simpa using List.find?_some h

theorem replace_keys (new : PlannedField) (plan : Plan) :
    (replace new plan).map (·.key) = plan.map (·.key) := by
  induction plan with
  | nil => rfl
  | cons f rest ih =>
    rw [replace]
    split
    · rename_i same
      simp only [List.map_cons, eq_of_beq same]
    · simp only [List.map_cons, ih]

theorem mem_replace (h : f ∈ replace new plan) : f = new ∨ f ∈ plan := by
  induction plan with
  | nil => exact absurd h List.not_mem_nil
  | cons g rest ih =>
    rw [replace] at h
    split at h
    · rcases List.mem_cons.mp h with rfl | h
      · exact .inl rfl
      · exact .inr (List.mem_cons_of_mem _ h)
    · rcases List.mem_cons.mp h with rfl | h
      · exact .inr List.mem_cons_self
      · exact (ih h).imp_right (List.mem_cons_of_mem _)

theorem add?_keys (h : add? plan s = some plan') :
    (s.key ∈ plan.map (·.key) ∧ plan'.map (·.key) = plan.map (·.key)) ∨
      (s.key ∉ plan.map (·.key) ∧ plan'.map (·.key) = plan.map (·.key) ++ [s.key]) := by
  obtain ⟨children, found, -, rfl⟩ | ⟨f, children, found, -, -, rfl⟩ := add?_cases h
  · apply Or.inr
    refine ⟨?_, by simp⟩
    intro member
    obtain ⟨f, there, same⟩ := List.mem_map.mp member
    have := List.find?_eq_none.mp found f there
    simp [same] at this
  · refine .inl ⟨?_, replace_keys ..⟩
    rw [← find?_key found]
    exact List.mem_map_of_mem (List.mem_of_find?_eq_some found)

end Keys

theorem distinct_nil : Distinct [] :=
  ⟨List.nodup_nil, fun _ member => absurd member List.not_mem_nil⟩

mutual

theorem add?_distinct {plan plan' : Plan} (distinct : Distinct plan) :
    ∀ s : Selection, add? plan s = some plan' → Distinct plan'
  | ⟨offset, key, name, arguments, hasBraces, selections⟩, h => by
    obtain ⟨keys, below⟩ := distinct
    have nodup : (plan'.map (·.key)).Nodup := by
      rcases add?_keys h with ⟨-, same⟩ | ⟨new, added⟩
      · rwa [same]
      · rw [added]
        exact List.nodup_append.mpr ⟨keys, List.pairwise_singleton .., by
          intro a ha b hb; rintro rfl; exact new (List.mem_singleton.mp hb ▸ ha)⟩
    refine ⟨nodup, ?_⟩
    intro f member
    obtain ⟨children, -, added, rfl⟩ | ⟨g, children, found, -, added, rfl⟩ := add?_cases h
    · rcases List.mem_append.mp member with member | member
      · exact below f member
      · obtain rfl := List.mem_singleton.mp member
        exact addAll?_distinct distinct_nil selections added
    · rcases mem_replace member with rfl | member
      · exact addAll?_distinct (below g (List.mem_of_find?_eq_some found)) selections added
      · exact below f member

theorem addAll?_distinct {plan plan' : Plan} (distinct : Distinct plan) :
    ∀ selections : List Selection, addAll? plan selections = some plan' → Distinct plan'
  | [], h => by
    rw [addAll?, Option.some.injEq] at h
    exact h ▸ distinct
  | s :: rest, h => by
    rw [addAll?] at h
    obtain ⟨middle, first, last⟩ := Option.bind_eq_some_iff.mp h
    exact addAll?_distinct (add?_distinct distinct s first) rest last

end

theorem ofSelections?_distinct {selections : List Selection} {plan : Plan}
    (h : ofSelections? selections = some plan) : Distinct plan :=
  addAll?_distinct distinct_nil selections h

end Plan

mutual

def PlannedField.variableNames : PlannedField → List String
  | ⟨_, _, arguments, _, _, children⟩ => Literal.fieldVariables arguments ++ planVariables children

def planVariables : List PlannedField → List String
  | [] => []
  | f :: rest => f.variableNames ++ planVariables rest

end

end WitSchema.GraphQL

import WitSchema.GraphQL.Input
import WitSchema.Proofs.Insertion

/-! The value of an argument depends on the variables that occur in it, and on
no others. -/

namespace WitSchema.GraphQL

/-- Two assignments of values agree on some variables: the same are without a value, and the rest
have the same one. -/
def Values.Agree (names : List String) (values others : Values) : Prop :=
  ∀ name ∈ names, values.lookup name = others.lookup name

namespace Values.Agree

variable {values others : Values} {names more : List String}

theorem mono (agree : Agree names values others) (h : more ⊆ names) : Agree more values others :=
  fun name member => agree name (h member)

theorem left (agree : Agree (names ++ more) values others) : Agree names values others :=
  agree.mono (List.subset_append_left _ _)

theorem right (agree : Agree (names ++ more) values others) : Agree more values others :=
  agree.mono (List.subset_append_right _ _)

end Values.Agree

namespace Store

variable {s : Store} {values others : Values}

theorem isUnset_congr {x : Literal} (agree : Values.Agree x.variableNames values others) :
    isUnset values x = isUnset others x := by
  match x with
  | .variable name => rw [isUnset, isUnset, agree name (List.mem_singleton_self name)]
  | .int _ | .float _ | .string .. | .boolean _ | .null | .enum _ | .list _ | .object _ => rfl

mutual

theorem ofLiteral?_congr (t : Ty) : ∀ x : Literal, Values.Agree x.variableNames values others →
    s.ofLiteral? values t x = s.ofLiteral? others t x
  | .variable name, agree => by
    rw [ofLiteral?, ofLiteral?, agree name (List.mem_singleton_self name)]
  | .list items, agree => by
    rw [ofLiteral?, ofLiteral?]
    split
    · rw [ofLiterals?_congr _ items agree]
    · rfl
  | .object fields, agree => by
    rw [ofLiteral?, ofLiteral?]
    split
    · rw [ofLiteralFields?_congr _ fields agree]
    · rfl
  | .int _, _ | .float _, _ | .string .., _ | .boolean _, _ | .null, _ | .enum _, _ => by
    simp only [ofLiteral?]

theorem ofLiterals?_congr (t : Ty) : ∀ items : List Literal,
    Values.Agree (Literal.itemVariables items) values others →
    ofLiterals? s values t items = ofLiterals? s others t items
  | [], _ => rfl
  | x :: rest, agree => by
    rw [Literal.itemVariables] at agree
    rw [ofLiterals?, ofLiterals?, isUnset_congr agree.left, ofLiteral?_congr t x agree.left,
      ofLiterals?_congr t rest agree.right]

theorem ofLiteralFields?_congr (declared : List (String × Member)) :
    ∀ fields : List (String × Literal),
    Values.Agree (Literal.fieldVariables fields) values others →
    ofLiteralFields? s values declared fields = ofLiteralFields? s others declared fields
  | [], _ => rfl
  | (name, x) :: rest, agree => by
    rw [Literal.fieldVariables] at agree
    rw [ofLiteralFields?, ofLiteralFields?, isUnset_congr agree.left,
      ofLiteralFields?_congr declared rest agree.right]
    cases declared.lookup name with
    | none => rfl
    | some m =>
      simp only [Option.bind_eq_bind, Option.bind_some, ofLiteral?_congr m.type x agree.left]

end

mutual

theorem nullVariable?_congr (path : String) (t : Ty) : ∀ x : Literal,
    Values.Agree x.variableNames values others →
    s.nullVariable? values path t x = s.nullVariable? others path t x
  | .variable name, agree => by
    rw [nullVariable?, nullVariable?, agree name (List.mem_singleton_self name)]
  | .list items, agree => by
    rw [nullVariable?, nullVariable?]
    split
    · exact nullItem?_congr path 0 _ items agree
    · rfl
  | .object fields, agree => by
    rw [nullVariable?, nullVariable?]
    split
    · rw [nullFields_congr path _ fields agree]
    · rfl
  | .int _, _ | .float _, _ | .string .., _ | .boolean _, _ | .null, _ | .enum _, _ => by
    simp only [nullVariable?]

theorem nullItem?_congr (path : String) (index : Nat) (t : Ty) : ∀ items : List Literal,
    Values.Agree (Literal.itemVariables items) values others →
    nullItem? s values path index t items = nullItem? s others path index t items
  | [], _ => rfl
  | x :: rest, agree => by
    rw [Literal.itemVariables] at agree
    rw [nullItem?, nullItem?, nullVariable?_congr _ t x agree.left,
      nullItem?_congr path (index + 1) t rest agree.right]

theorem nullFields_congr (path : String) (declared : List (String × Member)) :
    ∀ fields : List (String × Literal),
    Values.Agree (Literal.fieldVariables fields) values others →
    nullFields s values path declared fields = nullFields s others path declared fields
  | [], _ => rfl
  | (name, x) :: rest, agree => by
    rw [Literal.fieldVariables] at agree
    rw [nullFields, nullFields, nullFields_congr path declared rest agree.right]
    cases declared.lookup name with
    | none => rfl
    | some m => simp only [Option.bind_some, nullVariable?_congr _ m.type x agree.left]

end

end Store

theorem variableNames_subset {name : String} {x : Literal} {given : List (String × Literal)}
    (h : given.lookup name = some x) : x.variableNames ⊆ Literal.fieldVariables given := by
  have member := mem_of_lookup h
  clear h
  induction given with
  | nil => exact absurd member List.not_mem_nil
  | cons entry rest ih =>
    rw [Literal.fieldVariables]
    rcases List.mem_cons.mp member with rfl | member
    · exact List.subset_append_left _ _
    · exact List.Subset.trans (ih member) (List.subset_append_right _ _)

theorem argumentValues_congr {s : Store} {values others : Values}
    {given : List (String × Literal)} (argument : Option (String × Ty))
    (agree : Values.Agree (Literal.fieldVariables given) values others) :
    argumentValues s values argument given = argumentValues s others argument given := by
  cases argument with
  | none => rfl
  | some entry =>
    obtain ⟨name, t⟩ := entry
    rw [argumentValues, argumentValues]
    cases found : given.lookup name with
    | none => rfl
    | some x =>
      have own := agree.mono (variableNames_subset found)
      simp only [argumentValue, Store.isUnset_congr own, Store.ofLiteral?_congr t x own,
        Store.nullVariable?_congr "" t x own]

end WitSchema.GraphQL

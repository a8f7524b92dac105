import WitSchema.GraphQL.Document.Reader
import WitSchema.GraphQL.Execution

/-! Which operations can be run against a schema: fields exist and get the
arguments they need, objects and nothing else have selections, literals fit
their types, and variables are declared once, used, and used where their type
is allowed. Two selections under one key that stand beside each other are
compared, and then what they select with each other; a document that needs
more than a quarter of a million comparisons is not run. -/

namespace WitSchema.GraphQL

namespace Overlap

def comparisonLimit : Nat := 250000

mutual

/-- Compares the selections of one list with those of another. The result is how many comparisons
are left of those that were. -/
def between (left : Nat) (xs ys : List Selection) : Option Nat :=
  match xs with
  | [] => some left
  | ⟨_, key, _, _, _, inner⟩ :: rest =>
    match facing left key inner ys with
    | none => none
    | some left => between left rest ys
termination_by (sizeOf xs, 0, 0)

def facing (left : Nat) (key : String) (inner ys : List Selection) : Option Nat :=
  match ys with
  | [] => some left
  | y :: rest =>
    if y.key != key then facing left key inner rest
    else match left with
      | 0 => none
      | left + 1 =>
        match between left inner y.selections with
        | none => none
        | some left => facing left key inner rest
termination_by (sizeOf inner, 1, ys.length)

end

def within (left : Nat) : List Selection → Option Nat
  | [] => some left
  | s :: rest => (facing left s.key s.selections rest).bind fun left => within left rest

mutual

def below (left : Nat) : Selection → Option Nat
  | ⟨_, _, _, _, _, inner⟩ => (within left inner).bind fun left => belowAll left inner

def belowAll (left : Nat) : List Selection → Option Nat
  | [] => some left
  | s :: rest => (below left s).bind fun left => belowAll left rest

end

def isBounded (selections : List Selection) : Bool :=
  ((within comparisonLimit selections).bind fun left => belowAll left selections).isSome

end Overlap

inductive Parent
  | query
  | object (index : Nat)

/-- A declared variable; one with a default other than `null` always has a value. -/
structure Variable where
  type : Ty
  hasDefault : Bool

def Variable.fits (v : Variable) (t : Ty) : Bool :=
  if t.isNonNull && !v.type.isNonNull then v.hasDefault && t.nullable.accepts v.type
  else t.accepts v.type

abbrev Variables := List (String × Variable)

def namesDistinct (entries : List (String × α)) : Bool :=
  (firstRepeated [] (entries.map (·.1))).isNone

def requiredGiven (declared : List (String × Member)) (given : List (String × Literal)) : Bool :=
  declared.all fun d => !d.2.type.isNonNull || (given.lookup d.1).isSome

namespace Store

mutual

def fits (s : Store) (scope : Variables) (t : Ty) : Literal → Bool
  | .variable name => (scope.lookup name).any (·.fits t)
  | .null => !t.isNonNull
  | .list items =>
    match t.nullable with
    | .list _ _ item => itemsFit s scope item items
    | _ => false
  | .object fields =>
    match s.inputFields? t with
    | some declared =>
      namesDistinct fields && requiredGiven declared fields &&
        fieldsFit s scope declared fields
    | none => false
  | x =>
    match t.named with
    | .scalar scalar => (scalar.ofLiteral? x).isSome
    | _ => false

def itemsFit (s : Store) (scope : Variables) (t : Ty) : List Literal → Bool
  | [] => true
  | x :: rest => s.fits scope t x && itemsFit s scope t rest

def fieldsFit (s : Store) (scope : Variables) (declared : List (String × Member)) :
    List (String × Literal) → Bool
  | [] => true
  | (name, x) :: rest =>
    (match declared.lookup name with
      | some m => s.fits scope m.type x
      | none => false) && fieldsFit s scope declared rest

end

end Store

namespace Schema

/-- The type a document names, if it is one that variables can have. Lists in documents have no
identity. -/
def typeOf? (s : Schema) : TypeExpr → Option Ty
  | .named name =>
    match Scalar.all.find? (·.name == name) with
    | some scalar => some (.scalar scalar)
    | none =>
      (s.types.find? fun t => t.1 == .input && s.store.nameOf t.1 t.2 == name).map fun t =>
        .aggregate t.1 t.2
  | .list item => (s.typeOf? item).map (.list .input 0)
  | .nonNull inner => (s.typeOf? inner).map .nonNull

def field? (s : Schema) (parent : Parent) (name : String) : Option (Ty × Option (String × Ty)) :=
  if name = "__typename" then some (.nonNull (.scalar .string), none)
  else match parent with
    | .query => (s.fields.lookup name).map fun f => (f.type, f.argument)
    | .object i =>
      ((s.store.get? .output i).bind fun a => a.fields.lookup name).map fun m => (m.type, none)

def argumentsFit (s : Schema) (scope : Variables) (argument : Option (String × Ty))
    (given : List (String × Literal)) : Bool :=
  match argument, given with
  | none, [] => true
  | some (name, t), [(given, x)] => given == name && s.store.fits scope t x
  | some (_, t), [] => !t.isNonNull
  | _, _ => false

mutual

def fieldIsValid (s : Schema) (scope : Variables) (parent : Parent) : PlannedField → Bool
  | ⟨_, name, arguments, _, hasBraces, children⟩ =>
    match s.field? parent name with
    | none => false
    | some (t, argument) =>
      s.argumentsFit scope argument arguments &&
        match t.named with
        | .aggregate _ i => hasBraces && planIsValid s scope (.object i) children
        | _ => !hasBraces

def planIsValid (s : Schema) (scope : Variables) (parent : Parent) : List PlannedField → Bool
  | [] => true
  | f :: rest => s.fieldIsValid scope parent f && planIsValid s scope parent rest

end

def scope? (s : Schema) : List VariableDefinition → Option Variables
  | [] => some []
  | d :: rest => do
    let t ← s.typeOf? d.type
    if !d.default.all (s.store.fits [] t) then none
    let hasDefault := d.default.any fun x => !(x matches .null)
    return (d.name, ⟨t, hasDefault⟩) :: (← scope? s rest)

def plan? (s : Schema) (operation : Operation) : Option (Variables × Plan) := do
  if !Overlap.isBounded operation.selections then none
  let scope ← s.scope? operation.definitions
  let plan ← Plan.ofSelections? operation.selections
  let used := planVariables plan
  if s.isExecutable && namesDistinct scope && (scope.all fun v => used.contains v.1) &&
      s.planIsValid scope .query plan then
    return (scope, plan)
  else none

theorem plan?_ok {s : Schema} {operation : Operation} {scope : Variables} {plan : Plan}
    (h : s.plan? operation = some (scope, plan)) :
    Plan.ofSelections? operation.selections = some plan ∧ s.isExecutable = true := by
  simp only [plan?] at h
  split at h
  · exact absurd h (by simp)
  · simp only [Option.bind_eq_bind, Option.bind_eq_some_iff] at h
    obtain ⟨declared, -, found, merged, h⟩ := h
    split at h
    · rename_i sound
      simp only [Option.pure_def, Option.some.injEq, Prod.mk.injEq] at h
      obtain ⟨rfl, rfl⟩ := h
      simp only [Bool.and_eq_true] at sound
      exact ⟨merged, sound.1.1.1⟩
    · exact absurd h (by simp)

def values? (s : Schema) (scope : Variables) (given : List (String × Json)) :
    List VariableDefinition → Option Values
  | [] => some []
  | d :: rest => do
    let v ← scope.lookup d.name
    let others ← s.values? scope given rest
    match given.lookup d.name, d.default with
    | some x, _ =>
      if x.nestsWithin nestingLimit then return (d.name, ← s.store.ofJson? v.type x) :: others
      else none
    | none, some x => return (d.name, ← s.store.ofLiteral? [] v.type x) :: others
    | none, none => if v.type.isNonNull then none else return others

/-- The query of a plain operation with the values given to its variables. It asks nothing about
the schema. -/
def query? (s : Schema) (operation : Operation) (given : List (String × Json)) :
    Option (Query s) :=
  match ready : s.plan? operation with
  | none => none
  | some (scope, plan) =>
    (s.values? scope given operation.definitions).map fun values =>
      { plan
        values
        described := fun _ => .null
        distinct := Plan.ofSelections?_distinct (plan?_ok ready).1
        executable := (plan?_ok ready).2 }

end Schema

/-- Takes documents of one plain query and leaves the others to a front end behind it. -/
def FrontEnd.plain (others : FrontEnd) : FrontEnd := fun s document given =>
  match (Operation.read? document).bind fun operation => s.query? operation given with
  | some query => .accepted query
  | none => others s document given

end WitSchema.GraphQL

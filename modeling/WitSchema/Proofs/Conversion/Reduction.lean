import WitSchema.Proofs.Conversion.Recipe

/-! What references come down to. Aliases and options have no type of their own:
they pass on that of what they lead to, in the end a scalar or a node that
becomes a list or an aggregate. -/

namespace WitSchema.Wit

open GraphQL

inductive Core
  | scalar (s : Scalar)
  | node (id : Nat)

def Kind.onward? : Kind → Option TypeRef
  | .alias target => some target
  | .option inner => some inner
  | _ => none

def Kind.core? (id : Nat) : Kind → Option Core
  | .list _ | .tuple _ | .record _ | .variant _ | .result .. => some (.node id)
  | .enum _ | .flags _ | .handle .. | .resource | .future _ | .stream _ => some (.scalar .string)
  | _ => none

theorem Kind.core?_of_onward? {kind : Kind} {ref : TypeRef} (h : kind.onward? = some ref)
    (id : Nat) : kind.core? id = none := by
  cases kind with
  | «alias» | option => rfl
  | _ => cases h

theorem Kind.core?_node {kind : Kind} {id id' : Nat} (h : kind.core? id = some (.node id')) :
    id = id' ∧ (kind.isList = true ∨ kind.isAggregate = true) := by
  cases kind with
  | list | tuple =>
    cases h
    exact ⟨rfl, .inl rfl⟩
  | record | variant | result =>
    cases h
    exact ⟨rfl, .inr rfl⟩
  | _ => cases h

theorem Kind.core?_of_hasType {kind : Kind} (id : Nat)
    (h : kind.isList = true ∨ kind.isAggregate = true) : kind.core? id = some (.node id) := by
  cases kind with
  | list | tuple | record | variant | result => rfl
  | _ => simp [isList, isAggregate] at h

namespace Graph

def HasType (g : Graph) (id : Nat) : Prop :=
  ∃ node, g.types[id]? = some node ∧ (node.kind.isList = true ∨ node.kind.isAggregate = true)

inductive Reduces (g : Graph) : TypeRef → Core → Prop
  | primitive (p : Primitive) : Reduces g (.primitive p) (.scalar (Scalar.ofPrimitive p))
  | onward {index node ref core} (found : g.node? index = some node)
      (kind : node.kind.onward? = some ref) (rest : Reduces g ref core) :
      Reduces g (.node index) core
  | core {index node core} (found : g.node? index = some node)
      (kind : node.kind.core? index.toNat = some core) : Reduces g (.node index) core

section Reduces

variable {g : Graph} {ref : TypeRef} {core core' : Core} {index : Int} {id : Nat}

theorem Reduces.unique (h : g.Reduces ref core) (h' : g.Reduces ref core') : core = core' := by
  induction h with
  | primitive p =>
    cases h'
    rfl
  | onward found kind _ ih =>
    cases h' with
    | onward found' kind' rest =>
      cases found.symm.trans found'
      cases kind.symm.trans kind'
      exact ih rest
    | core found' kind' =>
      cases found.symm.trans found'
      cases (Kind.core?_of_onward? kind _).symm.trans kind'
  | core found kind =>
    cases h' with
    | onward found' kind' =>
      cases found.symm.trans found'
      cases (Kind.core?_of_onward? kind' _).symm.trans kind
    | core found' kind' =>
      cases found.symm.trans found'
      exact Option.some.inj (kind.symm.trans kind')

theorem Reduces.hasType (h : g.Reduces ref (.node id)) : g.HasType id := by
  generalize same : Core.node id = core at h
  induction h with
  | primitive => cases same
  | onward _ _ _ ih => exact ih same
  | core found kind =>
    subst same
    obtain ⟨rfl, has⟩ := Kind.core?_node kind
    exact ⟨_, (node?_eq_some found).2.2, has⟩

theorem Leads.reduces (h : g.Leads index (some id)) (rest : g.Reduces (.node id) core) :
    g.Reduces (.node index) core := by
  generalize same : some id = r at h
  induction h with
  | node found plain =>
    cases same
    rwa [Int.toNat_of_nonneg (node?_eq_some found).1] at rest
  | primitive => cases same
  | next found kind _ ih => exact .onward found (by rw [kind]; rfl) (ih same)

theorem reduces_of_denoted (h : g.denoted index = .ok id) (rest : g.Reduces (.node id) core) :
    g.Reduces (.node index) core := by
  rcases denoted_leads h with leads | ⟨leads, rfl⟩
  · exact leads.reduces rest
  · have inside : 0 ≤ index := by
      cases leads with
      | primitive found | next found => exact (node?_eq_some found).1
    rwa [Int.toNat_of_nonneg inside] at rest

end Reduces

end Graph

end WitSchema.Wit

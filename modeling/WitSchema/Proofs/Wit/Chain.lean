import WitSchema.Proofs.Wit.Walk

/-! The aliases that end in a primitive. A reference to one of them stands for
the alias itself and not for what it is an alias of. The nodes from there to
the primitive are its chain: each is an alias that ends in the same primitive,
none comes twice, and each stands for itself. -/

namespace WitSchema.Wit.Graph

inductive EndsIn (g : Graph) : Int → List Nat → Primitive → Prop
  | last {index node p} (found : g.node? index = some node)
      (kind : node.kind = .alias (.primitive p)) : EndsIn g index [index.toNat] p
  | next {index node target chain p} (found : g.node? index = some node)
      (kind : node.kind = .alias (.node target)) (rest : EndsIn g target chain p) :
      EndsIn g index (index.toNat :: chain) p

section EndsIn

variable {g : Graph} {start index target : Int} {passed chain chain' : List Nat} {p p' : Primitive}
  {r : Option Nat}

theorem EndsIn.leads (h : g.EndsIn index chain p) : g.Leads index none := by
  induction h with
  | last found kind => exact .primitive found kind
  | next found kind _ ih => exact .next found kind ih

theorem Leads.endsIn (h : g.Leads index none) : ∃ chain p, g.EndsIn index chain p := by
  generalize primitive : (none : Option Nat) = r at h
  induction h with
  | node => cases primitive
  | primitive found kind => exact ⟨_, _, .last found kind⟩
  | next found kind _ ih =>
    obtain ⟨chain, p, rest⟩ := ih primitive
    exact ⟨_, p, .next found kind rest⟩

theorem EndsIn.unique (h : g.EndsIn index chain p) (h' : g.EndsIn index chain' p') :
    chain = chain' ∧ p = p' := by
  induction h generalizing chain' with
  | last found kind =>
    cases h' with
    | last found' kind' =>
      cases found.symm.trans found'
      cases kind.symm.trans kind'
      exact ⟨rfl, rfl⟩
    | next found' kind' =>
      cases found.symm.trans found'
      cases kind.symm.trans kind'
  | next found kind _ ih =>
    cases h' with
    | last found' kind' =>
      cases found.symm.trans found'
      cases kind.symm.trans kind'
    | next found' kind' rest =>
      cases found.symm.trans found'
      cases kind.symm.trans kind'
      obtain ⟨rfl, rfl⟩ := ih rest
      exact ⟨rfl, rfl⟩

theorem Leads.none_nonneg (h : g.Leads index none) : 0 ≤ index := by
  cases h with
  | primitive found | next found => exact (node?_eq_some found).1

theorem EndsIn.head (h : g.EndsIn index chain p) : ∃ rest, chain = index.toNat :: rest := by
  cases h with
  | last => exact ⟨[], rfl⟩
  | next => exact ⟨_, rfl⟩

theorem EndsIn.isAlias (h : g.EndsIn index chain p) :
    ∀ a ∈ chain, ∃ node, g.types[a]? = some node ∧ node.kind.isAlias = true := by
  induction h with
  | last found kind =>
    exact List.forall_mem_singleton.mpr ⟨_, (node?_eq_some found).2.2, by rw [kind]; rfl⟩
  | next found kind _ ih =>
    exact List.forall_mem_cons.mpr ⟨⟨_, (node?_eq_some found).2.2, by rw [kind]; rfl⟩, ih⟩

theorem EndsIn.reaches (h : g.EndsIn index chain p) :
    ∀ a ∈ chain, Relation.ReflTransGen g.Aliases index a := by
  induction h with
  | last found =>
    rw [List.forall_mem_singleton, Int.toNat_of_nonneg (node?_eq_some found).1]
  | next found kind _ ih =>
    rw [List.forall_mem_cons, Int.toNat_of_nonneg (node?_eq_some found).1]
    exact ⟨.refl, fun a member => .head ⟨_, found, kind⟩ (ih a member)⟩

theorem EndsIn.not_before (h : g.EndsIn index chain p) {a : Nat} (member : a ∈ chain) :
    ¬ Relation.TransGen g.Aliases (a : Int) index :=
  fun back => h.leads.not_cycle (back.trans_right (h.reaches a member))

theorem EndsIn.nodup (h : g.EndsIn index chain p) : chain.Nodup := by
  induction h with
  | last => exact List.nodup_singleton _
  | next found kind rest ih =>
    refine List.nodup_cons.mpr ⟨fun again => ?_, ih⟩
    refine rest.not_before again (.single ?_)
    rw [Int.toNat_of_nonneg (node?_eq_some found).1]
    exact ⟨_, found, kind⟩

theorem Leads.step (h : g.Leads index r) (step : g.Aliases index target) : g.Leads target r := by
  obtain ⟨node, found, kind⟩ := step
  cases h with
  | node found' plain =>
    cases found.symm.trans found'
    simp [kind, Kind.isAlias] at plain
  | primitive found' kind' =>
    cases found.symm.trans found'
    cases kind.symm.trans kind'
  | next found' kind' rest =>
    cases found.symm.trans found'
    cases kind.symm.trans kind'
    exact rest

theorem Leads.steps (h : g.Leads index r) (path : Relation.TransGen g.Aliases index target) :
    g.Leads target r := by
  induction path with
  | single step => exact h.step step
  | tail _ step ih => exact ih.step step

theorem Walks.primitive_of_leads (walks : g.Walks start passed index) (h : g.Leads index none) :
    g.Ends (.node start) (.primitive start.toNat) := by
  generalize primitive : (none : Option Nat) = r at h
  induction h generalizing passed with
  | node => cases primitive
  | primitive found kind =>
    obtain ⟨inside, -, here⟩ := node?_eq_some found
    rw [← Int.toNat_of_nonneg inside] at walks
    exact .halt walks (.primitive here kind)
  | next found kind _ ih => exact ih (.next walks ⟨_, found, kind⟩) primitive

theorem Leads.resolveAlias (h : g.Leads index none) :
    g.resolveAlias (.node index) = .ok (some index.toNat) :=
  resolveAlias_of_ends (Walks.start.primitive_of_leads h)

theorem Leads.denoted (h : g.Leads index none) : g.denoted index = .ok index.toNat := by
  have resolved := h.resolveAlias
  cases walked : g.denoted index with
  | error e => simp [Graph.resolveAlias, walked, Except.map] at resolved
  | ok id => simpa [Graph.resolveAlias, walked, Except.map] using resolved

theorem resolveAlias_plain {id : Nat} {node : TypeDef} (found : g.types[id]? = some node)
    (plain : node.kind.isAlias = false) : g.resolveAlias (.node id) = .ok (some id) :=
  resolveAlias_of_ends (.halt .start (.node found plain))

end EndsIn

end WitSchema.Wit.Graph

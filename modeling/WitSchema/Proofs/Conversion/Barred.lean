import WitSchema.Proofs.Conversion.History
import WitSchema.Proofs.Conversion.Layers
import WitSchema.Proofs.Wit.Walk

/-! Nodes that are never cached. Lists, options and tuples enter the cache after
their members, whatever fails in between, so along a path of such nodes the
place in the cache goes down. From a node in the cache no such path runs into a
cycle. -/

namespace WitSchema

namespace Wit.Graph

/-- Both nodes are lists, options or tuples, and the second is what a member of the first one stands
for. -/
structure Wraps (g : Graph) (a b : Nat) : Prop where
  outer : ∃ node, g.types[a]? = some node ∧ node.kind.isWrapper = true
  inner : ∃ node, g.types[b]? = some node ∧ node.kind.isWrapper = true
  edge : g.Edge a b

/-- A path of lists, options and tuples leads to a cycle of them. -/
def Barred (g : Graph) (id : Nat) : Prop :=
  ∃ again, Relation.ReflTransGen g.Wraps id again ∧ Relation.TransGen g.Wraps again again

end Wit.Graph

namespace Conversion

open GraphQL Wit Wit.Graph

section Layered

variable {g : Graph} {direction : Direction} {s : Side} {a b : Nat}

theorem not_makes_of_isWrapper (h : ∃ node, g.types[a]? = some node ∧ node.kind.isWrapper = true) :
    ¬ Makes g direction a := by
  obtain ⟨node, found, wrapper⟩ := h
  intro makes
  have aggregate := makes.recipe found
  simp [isAggregate_of_isWrapper wrapper] at aggregate

theorem Layered.inner_before (h : Layered g direction s) (step : g.Wraps a b)
    (cached : (s.cached? a).isSome = true) : (s.cached? b).isSome = true ∧ s.place b < s.place a :=
  h a b cached (not_makes_of_isWrapper step.outer) step.edge

theorem Layered.cached_of_path (h : Layered g direction s)
    (path : Relation.ReflTransGen g.Wraps a b) (cached : (s.cached? a).isSome = true) :
    (s.cached? b).isSome = true ∧ s.place b ≤ s.place a := by
  induction path with
  | refl => exact ⟨cached, Nat.le_refl _⟩
  | tail _ step ih =>
    obtain ⟨inner, before⟩ := h.inner_before step ih.1
    exact ⟨inner, Nat.le_trans (Nat.le_of_lt before) ih.2⟩

theorem Layered.not_cycle (h : Layered g direction s) (cached : (s.cached? a).isSome = true) :
    ¬ Relation.TransGen g.Wraps a a := by
  intro cycle
  obtain ⟨b, step, back⟩ := Relation.TransGen.head'_iff.mp cycle
  obtain ⟨inner, before⟩ := h.inner_before step cached
  exact Nat.not_le_of_gt before (h.cached_of_path back inner).2

theorem Layered.uncached (h : Layered g direction s) (barred : g.Barred a) :
    s.cached? a = none := by
  obtain ⟨again, path, cycle⟩ := barred
  cases cached : s.cached? a with
  | none => rfl
  | some t =>
    have there := (h.cached_of_path path (by rw [cached]; rfl)).1
    exact (h.not_cycle there cycle).elim

theorem Layered.raises (h : Layered g direction s) (barred : g.Barred a) {ref : TypeRef}
    (denotes : g.resolveAlias ref = .ok (some a)) :
    ∃ e, (s.convert g direction ref).2 = .error e := by
  cases result : (s.convert g direction ref).2 with
  | error e => exact ⟨e, rfl⟩
  | ok t =>
    have looked := look?_of_convert (Prod.ext rfl result)
    have cached := isSome_cached_of_look denotes (by rw [looked]; rfl)
    rw [(convert_layered s ref h).uncached barred] at cached
    cases cached

end Layered

theorem made_layered {g : Graph} {calls : List (Direction × TypeRef)} {direction : Direction}
    {c : Call} (made : Converter.Made g calls direction c) : Layered g direction c.1 :=
  (lasting_layered g direction).made made

/-- A list, an option or a tuple from which such nodes lead to a cycle of them is never cached:
neither after any calls, whatever became of them, nor in the course of one. Every conversion of a
reference to it fails, those that other conversions make included. -/
theorem barred_never_converted {g : Graph} {id : Nat} (barred : g.Barred id)
    (calls : List (Direction × TypeRef)) (direction : Direction) :
    ((Converter.empty.run g calls).1.side direction).cached? id = none ∧
    (∀ ref, g.resolveAlias ref = .ok (some id) →
      ∃ e, ((Converter.empty.run g calls).1.convert g direction ref).2.2 = .error e) ∧
    ∀ c, Converter.Made g calls direction c → c.1.cached? id = none ∧
      (g.resolveAlias c.2 = .ok (some id) →
        ∃ e, (c.1.convert g direction c.2).2 = .error e) := by
  have layered := Converter.run_layered g calls direction
  refine ⟨layered.uncached barred, fun ref => layered.raises barred, fun c made => ?_⟩
  have nested := made_layered made
  exact ⟨nested.uncached barred, nested.raises barred⟩

def pairs : Graph :=
  { types :=
      [⟨.list (.node 1), .null, none, .null, .null⟩,
        ⟨.tuple [.primitive .string, .node 2], .null, none, .null, .null⟩,
        ⟨.option (.node 1), .null, none, .null, .null⟩]
    worlds := []
    interfaces := []
    packages := [] }

theorem pairs_never_converted : pairs.Barred 0 ∧
    ∃ e, ((Converter.empty.run pairs [(.output, .node 1), (.output, .node 2)]).1.convert pairs
      .output (.node 0)).2.2 = .error e := by
  have denotes {id : Nat} {node : TypeDef} (found : pairs.types[id]? = some node)
      (plain : node.kind.isAlias = false) : pairs.resolveAlias (.node id) = .ok (some id) :=
    resolveAlias_of_ends (.halt .start (.node found plain))
  have wraps {a b : Nat} {node node' : TypeDef} (outer : pairs.types[a]? = some node)
      (inner : pairs.types[b]? = some node') (wrapper : node.kind.isWrapper = true)
      (wrapper' : node'.kind.isWrapper = true) (plain : node'.kind.isAlias = false)
      (member : TypeRef.node b ∈ pairs.members a) : pairs.Wraps a b :=
    ⟨⟨node, outer, wrapper⟩, ⟨node', inner, wrapper'⟩, _, member, denotes inner plain⟩
  have list : pairs.Wraps 0 1 := wraps rfl rfl rfl rfl rfl (List.mem_singleton_self _)
  have tuple : pairs.Wraps 1 2 :=
    wraps rfl rfl rfl rfl rfl (List.mem_cons_of_mem _ (List.mem_singleton_self _))
  have option : pairs.Wraps 2 1 := wraps rfl rfl rfl rfl rfl (List.mem_singleton_self _)
  have barred : pairs.Barred 0 := ⟨1, .single list, .tail (.single tuple) option⟩
  exact ⟨barred, (barred_never_converted barred _ .output).2.1 _ (denotes rfl rfl)⟩

end Conversion

end WitSchema

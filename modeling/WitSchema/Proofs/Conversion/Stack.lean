import WitSchema.Proofs.Conversion.Reported

/-! The stacks of nodes under construction. A conversion starts with the nodes
of the constructions around it on the stack of its direction and with nothing
else there, and it leaves both stacks as they were, whatever becomes of it. A
node on the stack has started once, so it is there once; of its type, the cache
has what the start of the construction has put there. -/

namespace WitSchema.Conversion

open GraphQL Wit Wit.Graph

section Call

variable {g : Graph} {direction : Direction} {s : Side} {index : Int} {id : Nat} {node : TypeDef}
  {c : Call}

theorem Starts.kept_call (start : Starts g s index id node)
    (call : c ∈ (recipe direction id node).calls (Side.convert g direction) direction id
      (s.enter direction id node.name)) {outer : Nat} (busy : outer ∈ s.building) :
    c.1.cached? outer = s.cached? outer := by
  obtain ⟨before, after, _, pass⟩ := Recipe.mem_calls call
  have grows := pass.grows (fun s ref _ => convert_extends g direction s ref) rfl
  have begun : outer ∈ (begun direction s id node).building := by
    rw [begun_building]
    exact List.mem_append_left _ busy
  exact (grows.kept outer begun).trans
    (Recipe.cached?_begin_of_ne (ne_of_mem_of_not_mem busy start.idle) _)

theorem Starts.isSome_cached?_call (start : Starts g s index id node)
    (call : c ∈ (recipe direction id node).calls (Side.convert g direction) direction id
      (s.enter direction id node.name)) : (c.1.cached? id).isSome = node.kind.isAggregate := by
  rw [start.cached?_call call]
  cases aggregate : (recipe direction id node).isAggregate with
  | true =>
    rw [kind_isAggregate aggregate]
    rfl
  | false =>
    rw [isAggregate_of_recipe (not_refusal_of_call call) aggregate]
    rfl

end Call

/-- The stack holds each of the nodes once, and those of them that are aggregates are the ones that
are cached. -/
structure Stacked (g : Graph) (s : Side) (ids : List Nat) : Prop where
  building : s.building = ids
  distinct : ids.Nodup
  cached : ∀ id ∈ ids, ∃ node, g.types[id]? = some node ∧
    (s.cached? id).isSome = node.kind.isAggregate

theorem stacked_nil {g : Graph} {s : Side} (idle : s.building = []) : Stacked g s [] :=
  ⟨idle, .nil, fun _ member => nomatch member⟩

theorem Stacked.call {g : Graph} {direction : Direction} {s : Side} {ids : List Nat} {index : Int}
    {id : Nat} {node : TypeDef} {c : Call} (h : Stacked g s ids) (start : Starts g s index id node)
    (call : c ∈ (recipe direction id node).calls (Side.convert g direction) direction id
      (s.enter direction id node.name)) : Stacked g c.1 (ids ++ [id]) where
  building := by rw [call_building call, h.building]
  distinct := by
    rw [← h.building]
    exact start.nodup (h.building ▸ h.distinct)
  cached other member := by
    rcases List.mem_append.mp member with outer | own
    · obtain ⟨node', found, cached⟩ := h.cached other outer
      exact ⟨node', found, by rw [start.kept_call call (h.building ▸ outer), cached]⟩
    · cases List.mem_singleton.mp own
      exact ⟨node, start.found, start.isSome_cached?_call call⟩

namespace Converter

/-- In the course of the calls a conversion of the reference starts at the converter, while the
constructions of the nodes go on around it: for a call none, for a member of a node that of the
node and those around it. -/
inductive Entry (g : Graph) (calls : List (Direction × TypeRef)) (direction : Direction) :
    Converter → TypeRef → List Nat → Prop
  | call {earlier ref later} (split : calls = earlier ++ (direction, ref) :: later) :
      Entry g calls direction (empty.run g earlier).1 ref []
  | member {c index ids id node s ref} (outer : Entry g calls direction c (.node index) ids)
      (start : Starts g (c.side direction) index id node)
      (call : (s, ref) ∈ (recipe direction id node).calls (Side.convert g direction) direction id
        ((c.side direction).enter direction id node.name)) :
      Entry g calls direction (c.set direction s) ref (ids ++ [id])

section Stacks

variable {g : Graph} {calls : List (Direction × TypeRef)} {direction : Direction} {c : Converter}
  {ref : TypeRef} {ids : List Nat}

theorem convert_stacks (g : Graph) (c : Converter) (direction : Direction) (ref : TypeRef)
    (other : Direction) :
    ((c.convert g direction ref).1.side other).building = (c.side other).building :=
  convert_keeps (P := fun d s => s.building = (c.side d).building) (fun _ _ h => h)
    (fun d s ref h => (convert_building g d s ref).trans h) (fun _ => rfl) direction ref other

theorem run_stacks (g : Graph) (c : Converter) (calls : List (Direction × TypeRef))
    (direction : Direction) :
    ((c.run g calls).1.side direction).building = (c.side direction).building :=
  run_keeps (P := fun d s => s.building = (c.side d).building) (fun _ _ h => h)
    (fun d s ref h => (convert_building g d s ref).trans h) (fun _ => rfl) calls direction

theorem run_idle (g : Graph) (calls : List (Direction × TypeRef)) (direction : Direction) :
    ((empty.run g calls).1.side direction).building = [] := by
  rw [run_stacks]
  cases direction <;> rfl

theorem Entry.stacked (h : Entry g calls direction c ref ids) :
    Stacked g (c.side direction) ids := by
  induction h with
  | @call earlier ref later split => exact stacked_nil (run_idle g earlier direction)
  | member outer start call ih =>
    rw [side_set_self]
    exact ih.call start call

theorem Entry.other_idle (h : Entry g calls direction c ref ids) {other : Direction}
    (ne : other ≠ direction) : (c.side other).building = [] := by
  induction h with
  | @call earlier ref later split => exact run_idle g earlier other
  | member outer start call ih =>
    rw [side_set_of_ne ne]
    exact ih

end Stacks

/-- Wherever a conversion starts in the course of any calls, the stack of its direction consists of
the nodes of the graph whose constructions go on around it, each once, and the other stack is empty;
a node on the stack is cached exactly if it is an aggregate, so no list, option or tuple is. The
conversion leaves both stacks as they were, and the calls leave them empty, whether or not they
succeed. -/
theorem stack_discipline {g : Graph} {calls : List (Direction × TypeRef)} :
    (∀ direction c ref ids, Entry g calls direction c ref ids →
      (∀ other, (c.side other).building = if other = direction then ids else []) ∧
      ids.Nodup ∧
      (∀ id ∈ ids, ∃ node, g.types[id]? = some node ∧
        ((c.side direction).cached? id).isSome = node.kind.isAggregate ∧
        (node.kind.isWrapper = true → (c.side direction).cached? id = none)) ∧
      ∀ other, ((c.convert g direction ref).1.side other).building = (c.side other).building) ∧
    ∀ direction, ((empty.run g calls).1.side direction).building = [] := by
  refine ⟨fun direction c ref ids entry => ?_, run_idle g calls⟩
  have stacked := entry.stacked
  refine ⟨fun other => ?_, stacked.distinct, fun id busy => ?_, convert_stacks g c direction ref⟩
  · split
    next same => rw [same, stacked.building]
    next ne => exact entry.other_idle ne
  · obtain ⟨node, found, cached⟩ := stacked.cached id busy
    refine ⟨node, found, cached, fun wrapper => ?_⟩
    have late : node.kind.isAggregate = false := by
      cases hk : node.kind <;> simp [hk, Kind.isWrapper, Kind.isAggregate] at wrapper ⊢
    rwa [late, Option.isSome_eq_false_iff, Option.isNone_iff_eq_none] at cached

/-- A forest comes back to its list while the list and then the node are under construction. -/
theorem forest_stack : ∃ c, Entry forest [(.output, .node 0)] .output c (.node 0) [0, 1] ∧
    (c.convert forest .output (.node 0)).2.2 = .error (.typeCycle [0, 1, 0]) ∧
    (c.side .output).building = [0, 1] ∧ (c.side .input).building = [] ∧
    (c.side .output).cached? 0 = none ∧ ((c.side .output).cached? 1).isSome = true ∧
    ((c.convert forest .output (.node 0)).1.side .output).building = [0, 1] ∧
    ((empty.run forest [(.output, .node 0)]).1.side .output).building = [] := by
  have list : Starts forest (empty.side .output) 0 0 forest.types[0] :=
    ⟨by cbv, rfl, List.not_mem_nil, rfl⟩
  have first : [(Direction.output, TypeRef.node 0)] = [] ++ (.output, .node 0) :: [] := rfl
  have outer : Entry forest [(.output, .node 0)] .output empty (.node 0) [] := .call first
  have inner := outer.member list (List.mem_singleton_self _)
  have node : Starts forest
      ((empty.set .output ((empty.side .output).enter .output 0 .null)).side .output) 1 1
      forest.types[1] := ⟨by cbv, rfl, by decide, rfl⟩
  have members : recipe .output 1 forest.types[1] =
      .aggregate [] "Node" .null [⟨"children", some (.node 0), .string, .null⟩] := rfl
  have children (s : Side) : (begun .output s 1 forest.types[1], TypeRef.node 0) ∈
      (recipe .output 1 forest.types[1]).calls (Side.convert forest .output) .output 1
        (s.enter .output 1 (.str "node")) := by
    rw [begun, members]
    exact List.mem_cons_self ..
  have entry := inner.member node (children _)
  obtain ⟨entries, idle⟩ := @stack_discipline forest [(.output, .node 0)]
  obtain ⟨held, -, cached, left⟩ := entries _ _ _ _ entry
  refine ⟨_, entry, ?_, held .output, held .input, ?_, ?_, (left .output).trans (held .output),
    idle .output⟩
  · simp only [Converter.convert, convert_eq_evaluated]
    rfl
  · obtain ⟨_, found, -, wrapper⟩ := cached 0 (by decide)
    cases found
    exact wrapper rfl
  · obtain ⟨_, found, aggregate, -⟩ := cached 1 (by decide)
    cases found
    exact aggregate

end Converter

end WitSchema.Conversion

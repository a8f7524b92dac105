import WitSchema.Proofs.Conversion.Cycle
import WitSchema.Proofs.Conversion.History
import WitSchema.Proofs.Wit.Walk

/-! What a reported cycle consists of. Either aliases go round, or the stack at
the moment of failure is a path from the node that is met again back to it. An
aggregate is cached as soon as it is on the stack, so what is met again there
is a list, an option or a tuple. -/

namespace WitSchema.Conversion

open GraphQL Wit Wit.Graph

def Taken (g : Graph) (direction : Direction) (a b : Nat) : Prop :=
  g.Edge a b ∧ ∃ node, g.types[a]? = some node ∧ (recipe direction a node).isRefusal = false

/-- A conversion that starts on a stack has met a node again: from the reference to that node it has
gone along edges, and the nodes in between are on the stack, each of them once. -/
structure Reentry (g : Graph) (direction : Direction) (building : List Nat) (ref : TypeRef)
    (moment : Side) (id : Nat) (entered : List Nat) : Prop where
  stack : moment.building = building ++ entered
  distinct : moment.building.Nodup
  busy : id ∈ moment.building
  uncached : moment.cached? id = none
  start : g.resolveAlias ref = .ok (entered ++ [id]).head?
  path : (entered ++ [id]).IsChain (Taken g direction)

section Reentry

variable {g : Graph} {direction : Direction} {s s' : Side} {ref : TypeRef} {e : Error}

theorem Starts.nodup {index : Int} {id : Nat} {node : TypeDef} (start : Starts g s index id node)
    (nodup : s.building.Nodup) : (s.building ++ [id]).Nodup := by
  simpa using nodup.concat start.idle

theorem Starts.taken {index : Int} {id next : Nat} {node : TypeDef} {c : Call}
    (start : Starts g s index id node)
    (call : c ∈ (recipe direction id node).calls (Side.convert g direction) direction id
      (s.enter direction id node.name))
    (denotes : g.resolveAlias c.2 = .ok (some next)) : Taken g direction id next := by
  have accepted := not_refusal_of_call call
  obtain ⟨before, after, refs, _⟩ := Recipe.mem_calls call
  refine ⟨⟨c.2, ?_, denotes⟩, node, start.found, accepted⟩
  rw [members_eq start.found, ← recipe_refs accepted, refs]
  simp

theorem Reentry.outer {index : Int} {id again : Nat} {node : TypeDef} {c : Call}
    {entered : List Nat} (start : Starts g s index id node)
    (call : c ∈ (recipe direction id node).calls (Side.convert g direction) direction id
      (s.enter direction id node.name))
    (h : Reentry g direction c.1.building c.2 s' again entered) :
    Reentry g direction s.building (.node index) s' again (id :: entered) where
  stack := by rw [h.stack, call_building call, List.append_assoc, List.singleton_append]
  distinct := h.distinct
  busy := h.busy
  uncached := h.uncached
  start := resolveAlias_eq_some.mpr ⟨index, rfl, start.denoted⟩
  path := h.path.cons fun next hnext => start.taken call (hnext ▸ h.start)

/-- Where a cycle is reported, a reference stands on a cycle of aliases or a node is met again. -/
theorem Raises.reentry_of_cycle (h : Raises g direction s ref s' e) (nodup : s.building.Nodup)
    {chain : List Nat} (report : e = .typeCycle chain) :
    (∃ ref', g.resolveAlias ref' = .error (.typeCycle chain)) ∨
      ∃ id entered, chain = s'.building.dropWhile (· != id) ++ [id] ∧
        Reentry g direction s.building ref s' id entered := by
  induction h with
  | @dangling s index e hd =>
    exact .inl ⟨.node index, resolveAlias_eq_error.mpr ⟨index, rfl, report ▸ hd⟩⟩
  | @reentry s index id hd hc hb =>
    refine .inr ⟨id, [], (Error.typeCycle.inj report).symm, ?_⟩
    exact ⟨(List.append_nil _).symm, nodup, hb, hc, resolveAlias_eq_some.mpr ⟨index, rfl, hd⟩,
      List.isChain_singleton id⟩
  | refusal start refused => exact (recipe_refuse_ne_cycle refused chain report).elim
  | member start call inner ih =>
    rcases ih (call_building call ▸ start.nodup nodup) report with aliases | ⟨id, entered, hc, h⟩
    · exact .inl aliases
    · exact .inr ⟨id, _, hc, h.outer start call⟩

theorem Raises.not_aggregate (h : Raises g direction s ref s' e) {id : Nat}
    (busy : id ∈ s'.building) (idle : id ∉ s.building) (uncached : s'.cached? id = none)
    {node : TypeDef} (found : g.types[id]? = some node) :
    (recipe direction id node).isAggregate = false := by
  induction h with
  | dangling | reentry => exact (idle busy).elim
  | @refusal s index own node' notices e start refused =>
    obtain rfl : id = own := by
      simp only [Side.enter, Side.report, List.mem_append, List.mem_singleton] at busy
      exact busy.resolve_left idle
    cases found.symm.trans start.found
    rw [refused]
    rfl
  | @member s index own node' c s' e start call inner ih =>
    by_cases above : id ∈ c.1.building
    · obtain rfl : id = own := by
        rw [call_building call, List.mem_append, List.mem_singleton] at above
        exact above.resolve_left idle
      cases found.symm.trans start.found
      -- the entry of an aggregate would still be there
      have kept := (inner.extends.kept id above).trans (start.cached?_call call)
      cases aggregate : (recipe direction id node).isAggregate with
      | false => rfl
      | true =>
        rw [aggregate, if_pos rfl] at kept
        cases uncached.symm.trans kept
    · exact ih busy above uncached

end Reentry

/-- The chain ends at a node that it has passed once before, and it passes no other node twice. -/
structure ComesBack (g : Graph) (chain : List Nat) (last : Nat) : Prop where
  long : 2 ≤ chain.length
  inside : ∀ id ∈ chain, id < g.size
  passed : ∃ passed, chain = passed ++ [last] ∧ passed.Nodup ∧ passed.count last = 1

section Chains

variable {g : Graph} {direction : Direction} {passed : List Nat} {last : Nat}

theorem exists_next {edge : Nat → Nat → Prop} (chain : (passed ++ [last]).IsChain edge) :
    ∀ a ∈ passed, ∃ b, edge a b := by
  induction passed with
  | nil => simp
  | cons first rest ih =>
    obtain ⟨next, later⟩ := List.isChain_cons.mp chain
    refine List.forall_mem_cons.mpr ⟨?_, ih later⟩
    cases rest with
    | nil => exact ⟨last, next last rfl⟩
    | cons second rest => exact ⟨second, next second rfl⟩

theorem comesBack {edge : Nat → Nat → Prop} (inside : ∀ a b, edge a b → a < g.size)
    (distinct : passed.Nodup) (again : last ∈ passed)
    (chain : (passed ++ [last]).IsChain edge) : ComesBack g (passed ++ [last]) last where
  long := by
    have positive := List.length_pos_of_mem again
    simp only [List.length_append, List.length_singleton]
    omega
  inside id member := by
    have before : id ∈ passed := by
      rcases List.mem_append.mp member with before | same
      · exact before
      · exact List.mem_singleton.mp same ▸ again
    obtain ⟨b, step⟩ := exists_next chain id before
    exact inside id b step
  passed := ⟨passed, rfl, distinct, List.count_eq_one_of_mem distinct again⟩

theorem Taken.inside {a b : Nat} (h : Taken g direction a b) : a < g.size := by
  obtain ⟨-, node, found, -⟩ := h
  exact (List.getElem?_eq_some_iff.mp found).1

theorem inside_of_aliases {a b : Nat} (h : g.Aliases a b) : a < g.size := by
  obtain ⟨node, found, -⟩ := h
  exact (node?_eq_some found).2.1

theorem comesBack_of_ends {ref : TypeRef} {chain : List Nat} (h : g.Ends ref (.cycle chain)) :
    ∃ last, ComesBack g chain last ∧ chain.IsChain fun a b : Nat => g.Aliases a b := by
  cases h with
  | halt _ halts => cases halts
  | @cycle start passed last walks distinct again =>
    have chain : (passed ++ [last]).IsChain fun a b : Nat => g.Aliases a b := by
      have steps := walks.isChain
      rw [← List.map_singleton, ← List.map_append] at steps
      exact (List.isChain_map _).mp steps
    exact ⟨last, comesBack (fun _ _ => inside_of_aliases) distinct again chain, chain⟩

theorem Reentry.comesBack {s s' : Side} {ref : TypeRef} {e : Error} {id : Nat} {entered : List Nat}
    (h : Reentry g direction s.building ref s' id entered)
    (raises : Raises g direction s ref s' e) (idle : s.building = []) :
    ComesBack g (s'.building.dropWhile (· != id) ++ [id]) id ∧
      (s'.building.dropWhile (· != id) ++ [id]).IsChain (Taken g direction) ∧
      (s'.building.dropWhile (· != id) ++ [id]).head? = some id ∧
      ∃ node, g.types[id]? = some node ∧ node.kind.isWrapper = true := by
  obtain ⟨above, rest, split, cut⟩ := dropWhile_of_nodup h.distinct h.busy
  have stack : entered = above ++ id :: rest := by
    rw [← split, h.stack, idle, List.nil_append]
  have path : (id :: (rest ++ [id])).IsChain (Taken g direction) := by
    have whole := h.path
    rw [stack, List.append_assoc] at whole
    exact whole.right_of_append
  have distinct : (id :: rest).Nodup := by
    have whole := h.distinct
    rw [split] at whole
    exact whole.sublist (List.sublist_append_right ..)
  rw [cut, List.cons_append]
  refine ⟨Conversion.comesBack (fun _ _ => Taken.inside) distinct (List.mem_cons_self ..) path,
    path, rfl, ?_⟩
  obtain ⟨node, found, kind⟩ :=
    kinds_of_cycle (path.imp fun _ _ taken => taken.1) id (List.mem_cons_self ..)
  have late := raises.not_aggregate h.busy (by simp [idle]) h.uncached found
  have accepted : (recipe direction id node).isRefusal = false := by
    obtain ⟨next, -, node', found', accepted⟩ := exists_next path id (List.mem_cons_self ..)
    cases found.symm.trans found'
    exact accepted
  refine ⟨node, found, kind.resolve_right ?_⟩
  rw [isAggregate_of_recipe accepted late]
  exact Bool.false_ne_true

end Chains

/-- After any calls, whatever became of them, a cycle that is reported is one: the chain passes
nodes of the graph, comes back to one of them and passes no other twice. It consists of aliases, or
of references that conversion of each node follows; then it begins with the node it comes back to,
and that is a list, an option or a tuple. -/
theorem reported_cycle {g : Graph} {calls : List (Direction × TypeRef)} {direction : Direction}
    {ref : TypeRef} {chain : List Nat}
    (reported : ((Converter.empty.run g calls).1.convert g direction ref).2.2 =
      .error (.typeCycle chain)) :
    ∃ last, ComesBack g chain last ∧
      (chain.IsChain (fun a b : Nat => g.Aliases a b) ∨
        chain.IsChain (Taken g direction) ∧ chain.head? = some last ∧
          ∃ node, g.types[last]? = some node ∧ node.kind.isWrapper = true) := by
  obtain ⟨stalled, leftovers⟩ := Converter.run_leftovers g calls direction
  have idle := leftovers.idle
  obtain ⟨moment, raises⟩ := raises_of_error reported
  obtain ⟨ref', aliases⟩ | ⟨id, entered, rfl, again⟩ :=
    raises.reentry_of_cycle (idle ▸ List.nodup_nil) rfl
  · obtain ⟨ends, h, answer⟩ := exists_end g ref'
    rw [aliases] at answer
    cases ends with
    | cycle chain' =>
      cases answer
      obtain ⟨last, comes, steps⟩ := comesBack_of_ends h
      exact ⟨last, comes, .inl steps⟩
    | _ => cases answer
  · obtain ⟨comes, path, first, wrapper⟩ := again.comesBack raises idle
    exact ⟨id, comes, .inr ⟨path, first, wrapper⟩⟩

theorem forest_cycle_reported :
    ((Converter.empty.run forest [(.input, .node 0)]).1.convert forest .output (.node 0)).2.2 =
      .error (.typeCycle [0, 1, 0]) ∧
    ∃ last, ComesBack forest [0, 1, 0] last ∧ [0, 1, 0].IsChain (Taken forest .output) ∧
      ∃ node, forest.types[last]? = some node ∧ node.kind.isWrapper = true := by
  have reported : ((Converter.empty.run forest [(.input, .node 0)]).1.convert forest .output
      (.node 0)).2.2 = .error (.typeCycle [0, 1, 0]) := by
    simp only [Converter.run, Converter.convert, convert_eq_evaluated]
    rfl
  refine ⟨reported, ?_⟩
  obtain ⟨last, comes, aliases | ⟨path, first, wrapper⟩⟩ := reported_cycle reported
  · obtain ⟨⟨node, found, kind⟩, -⟩ := List.isChain_cons_cons.mp aliases
    cases found
    cases kind
  · exact ⟨last, comes, path, wrapper⟩

end WitSchema.Conversion

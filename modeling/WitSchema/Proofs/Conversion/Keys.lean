import WitSchema.Proofs.Conversion.Memo
import WitSchema.Proofs.Conversion.Stack
import WitSchema.Proofs.Wit.Chain

/-! What the caches are keyed by. A key is a node that stands for itself, so an
alias that leads to another node is none. One that ends in a primitive is
cached with the scalar, and after the aliases between it and the primitive.
Those are converted one by one, each under its own key. No other construction
on the stack is of one of them, as the aliases do not go round. -/

namespace WitSchema.Conversion

open GraphQL Wit Wit.Graph

/-- A node that is cached with the type stands for itself. If it is an alias, the aliases from it
end in a primitive, the type is the scalar of that, and they are all cached with it. -/
structure Keyed (g : Graph) (s : Side) (id : Nat) (t : Ty) : Prop where
  itself : g.resolveAlias (.node id) = .ok (some id)
  inside : ∃ node, g.types[id]? = some node ∧ (node.kind.isAlias = true →
    ∃ chain p, g.EndsIn id (id :: chain) p ∧ t = .scalar (Scalar.ofPrimitive p) ∧
      ∀ a ∈ chain, s.cached? a = some t)

def AllKeyed (g : Graph) (s : Side) : Prop := ∀ id t, s.cached? id = some t → Keyed g s id t

/-- The aliases under construction end in a primitive, and what is converted there is on the way to
it. -/
def Descends (g : Graph) (c : Call) : Prop :=
  ∀ a ∈ c.1.building, ∀ node, g.types[a]? = some node → node.kind.isAlias = true →
    g.Leads a none ∧ ∃ index, c.2 = .node index ∧ Relation.TransGen g.Aliases a index

section Keyed

variable {g : Graph} {direction : Direction} {s s' : Side} {index : Int} {id : Nat}
  {node : TypeDef} {chain : List Nat} {p : Primitive} {t : Ty}

theorem Keyed.mono (h : Keyed g s id t) (kept : s.cache.entries <+: s'.cache.entries) :
    Keyed g s' id t := by
  obtain ⟨node, found, isAlias⟩ := h.inside
  refine ⟨h.itself, node, found, fun is => ?_⟩
  obtain ⟨chain, p, ends, scalar, cached⟩ := isAlias is
  exact ⟨chain, p, ends, scalar, fun a member => cached?_of_isPrefix kept (cached a member)⟩

theorem not_isAlias_of_isAggregate (aggregate : (recipe direction id node).isAggregate = true) :
    node.kind.isAlias = false := by
  have isAggregate := kind_isAggregate aggregate
  cases kind : node.kind with
  | «alias» => simp [kind, Kind.isAggregate] at isAggregate
  | _ => rfl

theorem keyed_plain (found : g.types[id]? = some node) (plain : node.kind.isAlias = false) :
    Keyed g s id t where
  itself := resolveAlias_plain found plain
  inside := ⟨node, found, fun isAlias => by simp [plain] at isAlias⟩

theorem Keyed.along (h : Keyed g s index.toNat t) (ends : g.EndsIn index chain p) :
    t = .scalar (Scalar.ofPrimitive p) ∧ ∀ a ∈ chain.tail, s.cached? a = some t := by
  obtain ⟨node, found, isAlias⟩ := h.inside
  obtain ⟨rest, rfl⟩ := ends.head
  obtain ⟨node', found', is⟩ := ends.isAlias _ (List.mem_cons_self ..)
  cases found.symm.trans found'
  obtain ⟨chain, p', ends', scalar, cached⟩ := isAlias is
  rw [Int.toNat_of_nonneg ends.leads.none_nonneg] at ends'
  obtain ⟨same, rfl⟩ := ends'.unique ends
  cases same
  exact ⟨scalar, cached⟩

theorem Starts.keyed_alias (start : Starts g s index id node) (isAlias : node.kind.isAlias = true)
    (built : constructed g direction s id node = (s', .ok t)) (h : AllKeyed g s') :
    Keyed g (s'.put id t) id t := by
  have leads : g.Leads id none := denoted_alias start.denoted start.found isAlias
  have found : g.node? id = some node := (node?_natCast g id).trans start.found
  refine ⟨leads.resolveAlias, node, start.found, fun _ => ?_⟩
  obtain ⟨chain, p, ends⟩ := leads.endsIn
  cases ends with
  | last found' kind =>
    cases found.symm.trans found'
    simp only [constructed, recipe, kind, Recipe.build, Prod.mk.injEq, Except.ok.injEq] at built
    exact ⟨[], p, .last found kind, built.2.symm, fun _ member => absurd member List.not_mem_nil⟩
  | @next _ _ target chain _ found' kind rest =>
    cases found.symm.trans found'
    simp only [constructed, recipe, kind, Recipe.build] at built
    have looked := look?_of_convert built
    simp only [Side.look?, rest.leads.denoted] at looked
    obtain ⟨scalar, cached⟩ := (h _ _ looked).along rest
    refine ⟨chain, p, .next found kind rest, scalar, fun a member => ?_⟩
    obtain ⟨tail, rfl⟩ := rest.head
    have here : s'.cached? a = some t := by
      rcases List.mem_cons.mp member with rfl | later
      · exact looked
      · exact cached a later
    by_cases same : a = id
    · rw [same, cached?_put_self]
    · rwa [cached?_put_of_ne same]

theorem lasting_keyed (g : Graph) (direction : Direction) : Lasting g direction (AllKeyed g) where
  empty _ _ cached := nomatch cached
  of_cache {s s'} h same _ id t cached := by
    rw [Side.cached?, same] at cached
    exact (h id t cached).mono (same ▸ List.prefix_rfl)
  begun {s index id node} start h a t cached := by
    by_cases same : a = id
    · subst same
      cases aggregate : (recipe direction a node).isAggregate with
      | true => exact keyed_plain start.found (not_isAlias_of_isAggregate aggregate)
      | false =>
        rw [begun, Recipe.cached?_begin, aggregate, if_neg Bool.false_ne_true] at cached
        cases start.uncached.symm.trans cached
    · rw [begun, Recipe.cached?_begin_of_ne same] at cached
      exact (h a t cached).mono start.begin_grows.entries
  finish {s index id node s' t} start built h a u cached := by
    by_cases same : a = id
    · subst same
      rw [cached?_put_self] at cached
      cases cached
      cases isAlias : node.kind.isAlias with
      | true => exact start.keyed_alias isAlias built h
      | false => exact keyed_plain start.found isAlias
    · rw [cached?_put_of_ne same] at cached
      exact (h a u cached).mono (start.entries_finish built)

end Keyed

section Descends

variable {g : Graph} {direction : Direction} {outer inner : Call} {s : Side} {index : Int}
  {id : Nat} {node : TypeDef} {chain : List Nat} {p : Primitive}

theorem alias_call (isAlias : node.kind.isAlias = true) {c : Call}
    (call : c ∈ (recipe direction id node).calls (Side.convert g direction) direction id s) :
    ∃ target, node.kind = .alias (.node target) ∧ c.2 = .node target := by
  cases kind : node.kind with
  | «alias» ref =>
    simp only [recipe, kind] at call
    cases ref with
    | primitive p => cases call
    | node target =>
      cases List.mem_singleton.mp call
      exact ⟨target, rfl, rfl⟩
  | _ => simp [kind, Kind.isAlias] at isAlias

theorem Descends.nests (h : Descends g outer) (nests : Nests g direction outer inner) :
    Descends g inner := by
  obtain ⟨s, ref⟩ := outer
  obtain ⟨index, id, node, rfl, start, call⟩ := nests
  have step (isAlias : node.kind.isAlias = true) :
      ∃ target, inner.2 = .node target ∧ g.Aliases id target := by
    obtain ⟨target, kind, here⟩ := alias_call isAlias call
    exact ⟨target, here, node, (node?_natCast g id).trans start.found, kind⟩
  intro a busy node' found isAlias
  rw [call_building call] at busy
  rcases List.mem_append.mp busy with before | own
  · obtain ⟨leads, _, same, path⟩ := h a before node' found isAlias
    cases same
    -- what is built stands on the way to the primitive, so it is the alias converted here itself
    have primitive := leads.steps path
    obtain rfl : id = index.toNat := Except.ok.inj (start.denoted.symm.trans primitive.denoted)
    obtain ⟨own, foundOwn, isAliasOwn⟩ := primitive.isAlias_of_none
    cases start.found.symm.trans foundOwn
    obtain ⟨target, here, further⟩ := step isAliasOwn
    rw [Int.toNat_of_nonneg primitive.none_nonneg] at further
    exact ⟨leads, target, here, path.tail further⟩
  · cases List.mem_singleton.mp own
    cases start.found.symm.trans found
    obtain ⟨target, here, further⟩ := step isAlias
    exact ⟨denoted_alias start.denoted found isAlias, target, here, .single further⟩

theorem made_descends {calls : List (Direction × TypeRef)} {c : Call}
    (made : Converter.Made g calls direction c) : Descends g c := by
  obtain ⟨earlier, ref, later, -, within⟩ := made
  induction within with
  | refl =>
    intro a busy
    rw [Converter.run_idle] at busy
    cases busy
  | tail _ nests ih => exact ih.nests nests

theorem Descends.free (h : Descends g (s, .node index)) (ends : g.EndsIn index chain p) :
    ∀ a ∈ chain, a ∉ s.building := by
  intro a member busy
  obtain ⟨node, found, isAlias⟩ := ends.isAlias a member
  obtain ⟨-, _, same, path⟩ := h a busy node found isAlias
  cases same
  exact ends.not_before member path

end Descends

section Chain

variable {g : Graph} {direction : Direction} {s s' : Side} {index : Int} {id : Nat}
  {node : TypeDef} {chain : List Nat} {p : Primitive} {t : Ty}

/-- The entries of the chain that are still to come, in the order in which they come. -/
def Side.missing (s : Side) (chain : List Nat) (p : Primitive) : List (Nat × Ty) :=
  (chain.filter fun a => (s.cached? a).isNone).reverse.map fun a =>
    (a, .scalar (Scalar.ofPrimitive p))

theorem missing_cons (uncached : s.cached? id = none) (chain : List Nat) (p : Primitive) :
    s.missing (id :: chain) p = s.missing chain p ++ [(id, .scalar (Scalar.ofPrimitive p))] := by
  simp [Side.missing, uncached]

theorem missing_nil (cached : ∀ a ∈ chain, s.cached? a = some t) : s.missing chain p = [] := by
  simpa [Side.missing] using fun a member => Option.ne_none_iff_exists'.mpr ⟨t, cached a member⟩

theorem Starts.convert_alias (start : Starts g s index id node) (isAlias : node.kind.isAlias = true)
    (built : constructed g direction s id node = (s', .ok t)) :
    (s.convert g direction (.node index)).2 = .ok t ∧
    (s.convert g direction (.node index)).1.cache.entries = s'.cache.entries ++ [(id, t)] := by
  have uncached : s'.cached? id = none := by
    refine start.uncached_constructed ?_ built
    by_contra aggregate
    rw [Bool.not_eq_false] at aggregate
    rw [not_isAlias_of_isAggregate aggregate] at isAlias
    cases isAlias
  rw [start.convert, built]
  exact ⟨rfl, entries_put_of_uncached (s := s'.leave) uncached t⟩

def Completes (g : Graph) (direction : Direction) (s : Side) (index : Int) (chain : List Nat)
    (p : Primitive) : Prop :=
  (s.convert g direction (.node index)).2 = .ok (.scalar (Scalar.ofPrimitive p)) ∧
  (s.convert g direction (.node index)).1.cache.entries = s.cache.entries ++ s.missing chain p

theorem convert_chain_cached (direction : Direction) (ends : g.EndsIn index chain p)
    (keyed : AllKeyed g s) (cached : s.cached? index.toNat = some t) :
    Completes g direction s index chain p := by
  obtain ⟨rfl, later⟩ := (keyed _ _ cached).along ends
  obtain ⟨rest, rfl⟩ := ends.head
  have all : ∀ a ∈ index.toNat :: rest, s.cached? a = some (.scalar (Scalar.ofPrimitive p)) :=
    List.forall_mem_cons.mpr ⟨cached, later⟩
  rw [Completes, convert_cached ends.leads.denoted cached, missing_nil all, List.append_nil]
  exact ⟨rfl, rfl⟩

theorem starts_chain (ends : g.EndsIn index chain p) (found : g.node? index = some node)
    (uncached : s.cached? index.toNat = none) (free : ∀ a ∈ chain, a ∉ s.building) :
    Starts g s index index.toNat node := by
  obtain ⟨rest, rfl⟩ := ends.head
  exact ⟨ends.leads.denoted, uncached, free _ (List.mem_cons_self ..), (node?_eq_some found).2.2⟩

theorem convert_chain (direction : Direction) (ends : g.EndsIn index chain p)
    (keyed : AllKeyed g s) (free : ∀ a ∈ chain, a ∉ s.building) :
    Completes g direction s index chain p := by
  induction ends generalizing s with
  | @last index node p found kind =>
    have ends := EndsIn.last found kind
    cases cached : s.cached? index.toNat with
    | some t => exact convert_chain_cached direction ends keyed cached
    | none =>
      have start := starts_chain ends found cached free
      have built : constructed g direction s index.toNat node =
          (s.enter direction index.toNat node.name, .ok (.scalar (Scalar.ofPrimitive p))) := by
        simp only [constructed, recipe, kind, Recipe.build]
      obtain ⟨result, entries⟩ := start.convert_alias (by rw [kind]; rfl) built
      rw [Completes, missing_cons cached]
      exact ⟨result, entries⟩
  | @next index node target chain p found kind rest ih =>
    have ends := EndsIn.next found kind rest
    cases cached : s.cached? index.toNat with
    | some t => exact convert_chain_cached direction ends keyed cached
    | none =>
      have start := starts_chain ends found cached free
      have built : constructed g direction s index.toNat node =
          (s.enter direction index.toNat node.name).convert g direction (.node target) := by
        simp only [constructed, recipe, kind, Recipe.build]
      -- the alias joins the stack, but the chain does not come to it again
      have freeAhead : ∀ a ∈ chain, a ∉ (s.enter direction index.toNat node.name).building := by
        intro a member busy
        rcases List.mem_append.mp busy with before | own
        · exact free a (List.mem_cons_of_mem _ member) before
        · cases List.mem_singleton.mp own
          exact (List.nodup_cons.mp ends.nodup).1 member
      have keyedAhead : AllKeyed g (s.enter direction index.toNat node.name) :=
        (lasting_keyed g direction).of_cache keyed rfl (Nat.le_refl _)
      obtain ⟨result, entries⟩ := ih keyedAhead freeAhead
      rcases converted : (s.enter direction index.toNat node.name).convert g direction
        (.node target) with ⟨s', r⟩
      rw [converted] at built result entries
      cases result
      obtain ⟨result, later⟩ := start.convert_alias (by rw [kind]; rfl) built
      rw [Completes, missing_cons cached, later, entries, List.append_assoc]
      exact ⟨result, rfl⟩

end Chain

section Keys

variable {g : Graph} {calls : List (Direction × TypeRef)} {direction : Direction} {s : Side}
  {index : Int} {id : Nat} {node : TypeDef}

theorem Lasting.moment {P : Side → Prop} (h : Lasting g direction P)
    (moment : Converter.Moment g calls direction s) : P s := by
  cases moment with
  | before made => exact h.made made
  | begun made start => exact h.begun start (h.made made)
  | after made => exact h.convert _ _ (h.made made)

theorem Starts.of_alias (start : Starts g s index id node) (isAlias : node.kind.isAlias = true) :
    index = id := by
  rcases denoted_leads start.denoted with leads | ⟨leads, rfl⟩
  · obtain ⟨node', found, plain⟩ := leads.node_of_some
    cases start.found.symm.trans found
    simp [isAlias] at plain
  · exact (Int.toNat_of_nonneg leads.none_nonneg).symm

theorem Starts.result (start : Starts g s index id node) :
    (s.convert g direction (.node index)).2 =
      (build (Side.convert g direction) direction id node
        (s.enter direction id node.name)).2 := by
  rw [start.convert, build_eq_recipe, ← constructed]
  rcases constructed g direction s id node with ⟨s', e | t⟩
  · rfl
  · rfl

/-- At every moment of a run, after failures as well, a node in a cache is in the graph and stands
for itself; if it is an alias, the aliases from it end in a primitive, and it is cached with the
scalar of that, as are all aliases further on. An alias of a node is therefore built only on the way
to a primitive. Its construction does not fail and returns the scalar, and the conversion adds to
the cache those of the aliases that are not there, each once and under its own key. -/
theorem caches_keyed (g : Graph) (calls : List (Direction × TypeRef)) (direction : Direction) :
    (∀ s, Converter.Moment g calls direction s ∨
        s = (Converter.empty.run g calls).1.side direction →
      ∀ id t, s.cached? id = some t → Keyed g s id t) ∧
    ∀ s index id node target, Converter.Made g calls direction (s, .node index) →
      Starts g s index id node → node.kind = .alias (.node target) →
      ∃ chain p, g.EndsIn id (id :: chain) p ∧ (id :: chain).Nodup ∧
        (build (Side.convert g direction) direction id node (s.enter direction id node.name)).2 =
          .ok (.scalar (Scalar.ofPrimitive p)) ∧
        (s.convert g direction (.node index)).1.cache.entries =
          s.cache.entries ++ s.missing (id :: chain) p := by
  have lasting := lasting_keyed g direction
  constructor
  · rintro s (moment | rfl)
    · exact lasting.moment moment
    · exact lasting.run calls
  · intro s index id node target made start kind
    have isAlias : node.kind.isAlias = true := by rw [kind]; rfl
    obtain rfl := start.of_alias isAlias
    obtain ⟨chain, p, ends⟩ := (denoted_alias start.denoted start.found isAlias).endsIn
    obtain ⟨rest, rfl⟩ := ends.head
    have keyed := lasting.made made
    obtain ⟨result, entries⟩ :=
      convert_chain direction ends keyed ((made_descends made).free ends)
    exact ⟨rest, p, ends, ends.nodup, start.result.symm.trans result, entries⟩

end Keys

def accounts : Graph :=
  { types :=
      [⟨.alias (.primitive .u64), .str "user-id", none, .null, .null⟩,
        ⟨.alias (.node 0), .str "owner-id", none, .null, .null⟩,
        ⟨.record [⟨.str "owner", .node 1, .null⟩, ⟨.str "balance", .node 3, .null⟩], .str "account",
          none, .null, .null⟩,
        ⟨.unrecognised (.str "map"), .str "balance", none, .null, .null⟩,
        ⟨.alias (.node 2), .str "holder", none, .null, .null⟩]
    worlds := []
    interfaces := []
    packages := [] }

def accountsCalls : List (Direction × TypeRef) := [(.output, .node 4), (.input, .node 1)]

theorem accounts_keyed :
    (∃ e, Except.error e ∈ (Converter.empty.run accounts accountsCalls).2) ∧
    Keyed accounts ((Converter.empty.run accounts accountsCalls).1.side .output) 1
      (.scalar (Scalar.ofPrimitive .u64)) ∧
    ∃ chain p, accounts.EndsIn 1 (1 :: chain) p ∧
      (((Converter.empty.run accounts [(.output, .node 4)]).1.side .input).convert accounts .input
        (.node 1)).1.cache.entries = Side.missing .empty (1 :: chain) p := by
  have results : (Converter.empty.run accounts accountsCalls).2 =
      [.error (.unsupportedKind (.str "map")), .ok (.scalar (Scalar.ofPrimitive .u64))] := by
    simp only [accountsCalls, Converter.run, Converter.convert, convert_eq_evaluated]
    rfl
  have cached : ((Converter.empty.run accounts accountsCalls).1.side .output).cached? 1 =
      some (.scalar (Scalar.ofPrimitive .u64)) := by
    simp only [accountsCalls, Converter.run, Converter.convert, convert_eq_evaluated]
    rfl
  have untouched : (Converter.empty.run accounts [(.output, .node 4)]).1.side .input = .empty := rfl
  have start : Starts accounts .empty 1 1 ⟨.alias (.node 0), .str "owner-id", none, .null, .null⟩ :=
    ⟨by cbv, rfl, List.not_mem_nil, rfl⟩
  have made : Converter.Made accounts accountsCalls .input (.empty, .node 1) :=
    ⟨[(.output, .node 4)], .node 1, [], rfl, untouched ▸ .refl⟩
  refine ⟨⟨_, results ▸ List.mem_cons_self ..⟩, ?_, ?_⟩
  · exact (caches_keyed accounts accountsCalls .output).1 _ (.inr rfl) 1 _ cached
  · obtain ⟨chain, p, ends, -, -, entries⟩ :=
      (caches_keyed accounts accountsCalls .input).2 _ _ _ _ _ made start rfl
    rw [untouched]
    exact ⟨chain, p, ends, entries⟩

end WitSchema.Conversion

import Mathlib.Data.List.Perm.Subperm
import WitSchema.Proofs.Conversion.Extension

/-! Conversion ends. Each construction takes a node that is neither cached nor
under construction, and the nested conversions find one such node less. Hence
constructions nest at most as deep as the graph has nodes, and the recursion
unfolded that many times already gives the outcome, whatever is put in place of
the recursion below. -/

namespace WitSchema.Conversion

open GraphQL Wit Wit.Graph

def Side.untouched (g : Graph) (s : Side) : List Nat :=
  g.ids.filter fun id => !s.cache.contains id && !s.building.contains id

/-- The outer conversion builds a node and makes the inner one on the way. -/
def Nests (g : Graph) (direction : Direction) (outer inner : Call) : Prop :=
  ∃ index id node, outer.2 = .node index ∧ Starts g outer.1 index id node ∧
    inner ∈ (recipe direction id node).calls (Side.convert g direction) direction id
      (outer.1.enter direction id node.name)

def StartsBuild (g : Graph) (c : Call) : Prop :=
  ∃ index id node, c.2 = .node index ∧ Starts g c.1 index id node

/-- The recursion unfolded `n` times, with `bottom` in place of it below. -/
def unfolded (g : Graph) (direction : Direction) (bottom : Converts) : Nat → Converts
  | 0 => bottom
  | n + 1 => convertStep g direction (unfolded g direction bottom n)

theorem mem_untouched {g : Graph} {s : Side} {id : Nat} :
    id ∈ s.untouched g ↔ id < g.size ∧ s.cached? id = none ∧ id ∉ s.building := by
  simp [Side.untouched, mem_ids, Cache.contains, Side.cached?]

theorem nodup_untouched (g : Graph) (s : Side) : (s.untouched g).Nodup := (nodup_ids g).filter _

theorem length_untouched_le (g : Graph) (s : Side) : (s.untouched g).length ≤ g.size := by
  have hle := List.length_filter_le
    (fun id => !s.cache.contains id && !s.building.contains id) g.ids
  rwa [ids, List.length_range] at hle

theorem Starts.mem_untouched {g : Graph} {s : Side} {index : Int} {id : Nat} {node : TypeDef}
    (start : Starts g s index id node) : id ∈ s.untouched g :=
  Conversion.mem_untouched.mpr ⟨denoted_lt start.denoted, start.uncached, start.idle⟩

theorem nests_grows {g : Graph} {direction : Direction} {s : Side} {id : Nat} {node : TypeDef}
    (hc : s.cached? id = none) {c : Call}
    (h : c ∈ (recipe direction id node).calls (Side.convert g direction) direction id
      (s.enter direction id node.name)) :
    c.1.building = s.building ++ [id] ∧ s.cache.entries <+: c.1.cache.entries := by
  obtain ⟨before, after, _, hpass⟩ := Recipe.mem_calls h
  have hbegin := @Recipe.begin_grows [] direction id (s.enter direction id node.name) hc
    List.not_mem_nil (recipe direction id node)
  have hgrows := hpass.grows (fun s' ref _ => convert_extends g direction s' ref) rfl
  exact ⟨Recipe.calls_building (convert_building g direction) h,
    hbegin.entries.trans hgrows.entries⟩

theorem Nests.untouched_lt {g : Graph} {direction : Direction} {outer inner : Call}
    (h : Nests g direction outer inner) :
    (inner.1.untouched g).length < (outer.1.untouched g).length := by
  obtain ⟨index, id, node, _, start, hcall⟩ := h
  obtain ⟨hbuilding, hentries⟩ := nests_grows start.uncached hcall
  have hsub : inner.1.untouched g ⊆ (outer.1.untouched g).erase id := by
    intro a ha
    obtain ⟨hlt, hnone, hidle⟩ := mem_untouched.mp ha
    rw [hbuilding, List.mem_append, List.mem_singleton, not_or] at hidle
    refine ((nodup_untouched g outer.1).mem_erase_iff).mpr ⟨hidle.2, mem_untouched.mpr ?_⟩
    refine ⟨hlt, ?_, hidle.1⟩
    cases hc : outer.1.cached? a with
    | none => rfl
    | some t => rw [cached?_of_isPrefix hentries hc] at hnone; cases hnone
  have hle := ((nodup_untouched g inner.1).subperm hsub).length_le
  have hlen := List.length_erase_of_mem start.mem_untouched
  have hpos := List.length_pos_of_mem start.mem_untouched
  omega

section After

variable {g : Graph} {direction : Direction} {s : Side} {c : Call}

theorem fill_after_call {index : Nat} {slots : List Slot}
    (h : c ∈ fillCalls (Side.convert g direction) index s slots) :
    (c.1.convert g direction c.2).1.cache.entries <+:
      (fill (Side.convert g direction) index s slots).1.cache.entries := by
  induction slots generalizing s with
  | nil => cases h
  | cons slot rest ih =>
    cases ht : slot.type with
    | none =>
      simp only [fillCalls, ht] at h
      simp only [fill, ht]
      exact ih h
    | some ref =>
      simp only [fillCalls, ht, List.mem_cons] at h
      simp only [fill, ht]
      rcases hc : s.convert g direction ref with ⟨s₁, e | t⟩
      · simp only [hc, List.not_mem_nil, or_false] at h
        simp only [h, hc, List.prefix_rfl]
      · simp only [hc] at h
        rcases h with rfl | later
        · have rest := (fill_pass index rest (s₁.addField index slot.name ⟨t, slot.docs⟩)).grows
            (fun s ref _ => convert_extends g direction s ref) rfl
          simp only [hc]
          exact rest.entries
        · exact ih later

theorem convertAll_after_call {refs : List TypeRef}
    (h : c ∈ allCalls (Side.convert g direction) s refs) :
    (c.1.convert g direction c.2).1.cache.entries <+:
      (convertAll (Side.convert g direction) s refs).1.cache.entries := by
  induction refs generalizing s with
  | nil => cases h
  | cons ref rest ih =>
    simp only [allCalls, List.mem_cons] at h
    simp only [convertAll]
    rcases hc : s.convert g direction ref with ⟨s₁, e | t⟩
    · simp only [hc, List.not_mem_nil, or_false] at h
      simp only [h, hc, List.prefix_rfl]
    · simp only [hc] at h
      have all : (c.1.convert g direction c.2).1.cache.entries <+:
          (convertAll (Side.convert g direction) s₁ rest).1.cache.entries := by
        rcases h with rfl | later
        · have pass := @convertAll_pass (Side.convert g direction) 0 rest s₁
          simp only [hc]
          exact (pass.grows (fun s ref _ => convert_extends g direction s ref) rfl).entries
        · exact ih later
      rcases hr : convertAll (Side.convert g direction) s₁ rest with ⟨s₂, e | ts⟩
      · rw [hr] at all
        simpa only [hr] using all
      · rw [hr] at all
        simpa only [hr] using all

theorem Recipe.build_after_call {id : Nat} {r : Recipe}
    (h : c ∈ r.calls (Side.convert g direction) direction id s) :
    (c.1.convert g direction c.2).1.cache.entries <+:
      (r.build (Side.convert g direction) direction id s).1.cache.entries := by
  cases r with
  | refuse | scalar => cases h
  | same ref =>
    cases List.mem_singleton.mp h
    exact List.prefix_rfl
  | listOf ref =>
    cases List.mem_singleton.mp h
    simp only [Recipe.build]
    rcases hc : s.convert g direction ref with ⟨s₁, e | t⟩
    · exact List.prefix_rfl
    · exact List.prefix_rfl
  | tupleOf refs =>
    have all := convertAll_after_call h
    simp only [Recipe.build]
    rcases hc : convertAll (Side.convert g direction) s refs with ⟨s₁, e | ts⟩
    · rwa [hc] at all
    · rw [hc] at all
      exact all
  | aggregate notices name docs slots =>
    have all := fill_after_call h
    simp only [Recipe.begin] at all
    simp only [Recipe.build]
    rcases hc : fill (Side.convert g direction) s.aggregates.length _ slots with ⟨s₁, e | u⟩
    · rwa [hc] at all
    · rwa [hc] at all

theorem Nests.entries {outer inner : Call} (h : Nests g direction outer inner) :
    (inner.1.convert g direction inner.2).1.cache.entries <+:
      (outer.1.convert g direction outer.2).1.cache.entries := by
  obtain ⟨s, ref⟩ := outer
  obtain ⟨index, id, node, rfl, start, call⟩ := h
  have built : (inner.1.convert g direction inner.2).1.cache.entries <+:
      (constructed g direction s id node).1.cache.entries := Recipe.build_after_call call
  rw [start.convert]
  rcases result : constructed g direction s id node with ⟨s₁, e | t⟩
  · rwa [result] at built
  · rw [result] at built
    exact built.trans (start.entries_finish result)

end After

theorem convertStep_of_nests {g : Graph} {direction : Direction} {s : Side} {ref : TypeRef}
    {convert : Converts}
    (h : ∀ inner, Nests g direction (s, ref) inner →
      inner.1.convert g direction inner.2 = convert inner.1 inner.2) :
    convertStep g direction convert s ref = s.convert g direction ref := by
  rw [convert_eq_step]
  cases ref with
  | primitive p => rfl
  | node index =>
    simp only [convertStep, denotedWithin_eq]
    cases hd : g.denoted index with
    | error e => rfl
    | ok id =>
      cases hc : s.cached? id with
      | some t => simp only [hc]
      | none =>
        by_cases hb : id ∈ s.building
        · simp only [hc, hb, if_true]
        · obtain ⟨node, found⟩ := denoted_found hd
          have hcongr := Recipe.build_congr fun c hcall =>
            h c ⟨index, id, node, rfl, ⟨hd, hc, hb, found⟩, hcall⟩
          simp only [hc, hb, if_false, typeDef_natCast g id found, build_eq_recipe, hcongr]

theorem unfolded_eq_convert {g : Graph} {direction : Direction} (bottom : Converts) {n : Nat}
    {s : Side} {ref : TypeRef} (hn : (s.untouched g).length < n) :
    unfolded g direction bottom n s ref = s.convert g direction ref := by
  induction n generalizing s ref with
  | zero => omega
  | succ n ih =>
    refine convertStep_of_nests fun inner hinner => (ih ?_).symm
    have hlt : (inner.1.untouched g).length < (s.untouched g).length := hinner.untouched_lt
    omega

def evaluated (g : Graph) (direction : Direction) : Converts :=
  unfolded g direction (fun s _ => (s, .error (.typeCycle []))) (g.size + 1)

theorem convert_eq_evaluated (g : Graph) (direction : Direction) :
    Side.convert g direction = evaluated g direction := by
  funext s ref
  have hle := length_untouched_le g s
  exact (unfolded_eq_convert _ (by omega)).symm

theorem chain_length_le {g : Graph} {direction : Direction} {c : Call} {chain : List Call}
    (h : (c :: chain).IsChain (Nests g direction))
    (starts : ∀ c' ∈ c :: chain, StartsBuild g c') :
    chain.length + 1 ≤ (c.1.untouched g).length := by
  induction chain generalizing c with
  | nil =>
    obtain ⟨index, id, node, _, start⟩ := starts c (List.mem_singleton_self c)
    have hpos := List.length_pos_of_mem start.mem_untouched
    rw [List.length_nil]
    omega
  | cons c' chain ih =>
    obtain ⟨hnests, hrest⟩ := List.isChain_cons_cons.mp h
    have hlt := hnests.untouched_lt
    have hle := ih hrest fun c'' hc'' => starts c'' (List.mem_cons_of_mem _ hc'')
    rw [List.length_cons]
    omega

/-- Conversion ends in every state with a type or an error: the walk over aliases after at most one
step more than there are nodes, the recursion when it is unfolded one time more than there are
nodes. Along nested conversions that start to build, the nodes that are neither cached nor under
construction become fewer, so there are at most as many as the graph has nodes. -/
theorem convert_terminates (g : Graph) (direction : Direction) (s : Side) (ref : TypeRef) :
    (∀ index : Int, g.walkWithin index.toNat (g.size + 1) [] index = some (g.denoted index)) ∧
    (∀ bottom, unfolded g direction bottom (g.size + 1) s ref = s.convert g direction ref) ∧
    (∀ convert : Converts, (∀ inner, Nests g direction (s, ref) inner →
        inner.1.convert g direction inner.2 = convert inner.1 inner.2) →
      convertStep g direction convert s ref = s.convert g direction ref) ∧
    ∀ chain : List Call, ((s, ref) :: chain).IsChain (Nests g direction) →
      (∀ c ∈ (s, ref) :: chain, StartsBuild g c) →
        ((s, ref) :: chain).Pairwise
          (fun outer inner => (inner.1.untouched g).length < (outer.1.untouched g).length) ∧
        ((s, ref) :: chain).length ≤ g.size := by
  refine ⟨walkWithin_eq_denoted g, fun bottom => ?_, fun convert => convertStep_of_nests, ?_⟩
  · have hle := length_untouched_le g s
    exact unfolded_eq_convert bottom (by omega)
  · intro chain hchain hstarts
    constructor
    · have hdecreasing := hchain.imp fun _ _ hnests => hnests.untouched_lt
      exact List.isChain_iff_pairwise.mp hdecreasing
    · have hle := length_untouched_le g s
      have hchainLe : chain.length + 1 ≤ (s.untouched g).length := chain_length_le hchain hstarts
      rw [List.length_cons]
      omega

theorem forest_nests_two :
    [((Side.empty, .node 0) : Call), (Side.empty.enter .output 0 .null, .node 1)].IsChain
      (Nests forest .output) ∧ 2 ≤ forest.size := by
  have hlist : Starts forest .empty 0 0 ⟨.list (.node 1), .null, none, .null, .null⟩ :=
    ⟨by cbv, rfl, List.not_mem_nil, rfl⟩
  have hnode : Starts forest (Side.empty.enter .output 0 .null) 1 1
      ⟨.record [⟨.str "children", .node 0, .null⟩], .str "node", none, .null, .null⟩ :=
    ⟨by cbv, rfl, by decide, rfl⟩
  have hchain : [((Side.empty, .node 0) : Call),
      (Side.empty.enter .output 0 .null, .node 1)].IsChain (Nests forest .output) :=
    .cons_cons ⟨0, 0, _, rfl, hlist, List.mem_singleton_self _⟩ (.singleton _)
  have hstarts : ∀ c ∈ [((Side.empty, .node 0) : Call),
      (Side.empty.enter .output 0 .null, .node 1)], StartsBuild forest c := by
    intro c hc
    rcases List.mem_cons.mp hc with rfl | hc
    · exact ⟨0, 0, _, rfl, hlist⟩
    · cases List.mem_singleton.mp hc
      exact ⟨1, 1, _, rfl, hnode⟩
  obtain ⟨_, _, _, hnested⟩ := convert_terminates forest .output .empty (.node 0)
  exact ⟨hchain, (hnested _ hchain hstarts).2⟩

end WitSchema.Conversion

import Mathlib.Data.List.Chain
import WitSchema.Proofs.Wit.Alias

/-! What comes of the walk over aliases. It starts at a reference and goes from
each alias of a node to that node. There are five ways for it to end, exactly
one of them applies, and it says what the reference resolves to. -/

namespace WitSchema.Wit

inductive WalkEnd
  | absent
  | node (id : Nat)
  /-- An alias of a primitive stands for the node the walk started from. -/
  | primitive (start : Nat)
  | outside (index : Int)
  | cycle (chain : List Nat)
  deriving DecidableEq

def WalkEnd.answer (size : Nat) : WalkEnd → Except Error (Option Nat)
  | absent => .ok none
  | node id => .ok (some id)
  | primitive start => .ok (some start)
  | outside index => .error (.unresolvedType index size)
  | cycle chain => .error (.typeCycle chain)

namespace Graph

/-- The walk from `start` passes these nodes in this order and then stands at an index. -/
inductive Walks (g : Graph) (start : Int) : List Nat → Int → Prop
  | start : Walks g start [] start
  | next {passed index target} (before : Walks g start passed index)
      (step : g.Aliases index target) : Walks g start (passed ++ [index.toNat]) target

/-- There is no way on from an index: it stands for a node that is no alias, for an alias of a
primitive, or for nothing. -/
inductive Halts (g : Graph) (start : Int) : Int → WalkEnd → Prop
  | node {id : Nat} {node} (found : g.types[id]? = some node)
      (plain : node.kind.isAlias = false) : Halts g start id (.node id)
  | primitive {id : Nat} {node p} (found : g.types[id]? = some node)
      (kind : node.kind = .alias (.primitive p)) : Halts g start id (.primitive start.toNat)
  | outside {index : Int} (out : index < 0 ∨ g.size ≤ index) : Halts g start index (.outside index)

inductive Ends (g : Graph) : TypeRef → WalkEnd → Prop
  | absent (p : Primitive) : Ends g (.primitive p) .absent
  | halt {start passed index e} (walks : g.Walks start passed index)
      (halts : g.Halts start index e) : Ends g (.node start) e
  | cycle {start passed} {id : Nat} (walks : g.Walks start passed id) (distinct : passed.Nodup)
      (again : id ∈ passed) : Ends g (.node start) (.cycle (passed ++ [id]))

section Walks

variable {g : Graph} {start index index' target : Int} {passed passed' : List Nat}

theorem node?_eq_none_iff : g.node? index = none ↔ index < 0 ∨ g.size ≤ index := by
  unfold node?
  split
  · rw [List.getElem?_eq_none_iff, ← size]
    omega
  · simp
    omega

theorem Aliases.unique {target' : Int} (h : g.Aliases index target)
    (h' : g.Aliases index target') : target = target' := by
  obtain ⟨node, found, kind⟩ := h
  obtain ⟨node', found', kind'⟩ := h'
  cases found.symm.trans found'
  cases kind.symm.trans kind'
  rfl

theorem Aliases.toNat_eq (h : g.Aliases index target) : (index.toNat : Int) = index := by
  obtain ⟨node, found, _⟩ := h
  exact Int.toNat_of_nonneg (node?_eq_some found).1

theorem Walks.reaches (h : g.Walks start passed index) :
    Relation.ReflTransGen g.Aliases start index := by
  induction h with
  | start => exact .refl
  | next _ step ih => exact .tail ih step

theorem Walks.returns (h : g.Walks start passed index) :
    ∀ id ∈ passed, Relation.TransGen g.Aliases (id : Int) index := by
  induction h with
  | start => simp
  | next _ step ih =>
    intro id member
    rcases List.mem_append.mp member with member | member
    · exact .tail (ih id member) step
    · obtain rfl := List.mem_singleton.mp member
      rw [step.toNat_eq]
      exact .single step

theorem Walks.isChain (h : g.Walks start passed index) :
    (passed.map (Nat.cast : Nat → Int) ++ [index]).IsChain g.Aliases := by
  induction h with
  | start => exact .singleton _
  | next _ step ih =>
    rw [List.map_append, List.map_singleton, step.toNat_eq]
    exact List.isChain_append.mpr ⟨ih, .singleton _, by simpa using step⟩

theorem Walks.unique (h : g.Walks start passed index) (h' : g.Walks start passed' index')
    (same : passed.length = passed'.length) : passed = passed' ∧ index = index' := by
  induction h generalizing passed' index' with
  | start =>
    cases h' with
    | start => exact ⟨rfl, rfl⟩
    | next => simp at same
  | next _ step ih =>
    cases h' with
    | start => simp at same
    | next before step' =>
      obtain ⟨rfl, rfl⟩ := ih before (by simpa using same)
      exact ⟨rfl, step.unique step'⟩

theorem Walks.isPrefix (h : g.Walks start passed index) (h' : g.Walks start passed' index')
    (shorter : passed.length < passed'.length) : passed ++ [index.toNat] <+: passed' := by
  induction h' with
  | start => simp at shorter
  | @next between index _ before step ih =>
    rw [List.length_append, List.length_singleton] at shorter
    rcases Nat.lt_or_ge passed.length between.length with less | enough
    · exact (ih less).trans (List.prefix_append ..)
    · obtain ⟨rfl, rfl⟩ := h.unique before (by omega)
      exact List.prefix_rfl

theorem not_returns_of_stuck {stuck reached : Int}
    (h : Relation.ReflTransGen g.Aliases start stuck) (dead : ∀ next, ¬ g.Aliases stuck next)
    (h' : Relation.ReflTransGen g.Aliases start reached) :
    ¬ Relation.TransGen g.Aliases reached reached := by
  induction h using Relation.ReflTransGen.head_induction_on generalizing reached with
  | refl =>
    intro returns
    rcases Relation.ReflTransGen.cases_head h' with rfl | ⟨next, step, _⟩
    · obtain ⟨next, step, _⟩ := Relation.TransGen.head'_iff.mp returns
      exact dead next step
    · exact dead next step
  | head step _ ih =>
    rcases Relation.ReflTransGen.cases_head h' with rfl | ⟨next, step', rest⟩
    · intro returns
      obtain ⟨next, step', rest⟩ := Relation.TransGen.head'_iff.mp returns
      cases step.unique step'
      exact ih .refl (.tail' rest step)
    · cases step.unique step'
      exact ih rest

theorem stuck_unique {stuck stuck' : Int} (h : g.Walks start passed stuck)
    (h' : g.Walks start passed' stuck') (dead : ∀ next, ¬ g.Aliases stuck next)
    (dead' : ∀ next, ¬ g.Aliases stuck' next) : stuck = stuck' := by
  have functional : Relator.RightUnique g.Aliases := fun _ _ _ => Aliases.unique
  rcases Relation.ReflTransGen.total_of_right_unique functional h.reaches h'.reaches with
    onward | onward
  · rcases Relation.ReflTransGen.cases_head onward with same | ⟨next, step, _⟩
    · exact same
    · exact (dead next step).elim
  · rcases Relation.ReflTransGen.cases_head onward with same | ⟨next, step, _⟩
    · exact same.symm
    · exact (dead' next step).elim

theorem cycle_unique {id id' : Nat} (h : g.Walks start passed id) (h' : g.Walks start passed' id')
    (distinct : passed.Nodup) (distinct' : passed'.Nodup) (again : id ∈ passed)
    (again' : id' ∈ passed') : passed ++ [id] = passed' ++ [id'] := by
  have repeats {id : Nat} {passed : List Nat} (again : id ∈ passed) :
      ¬ (passed ++ [id]).Nodup := by simp [List.nodup_append, again]
  rcases Nat.lt_trichotomy passed.length passed'.length with less | same | more
  · exact (repeats again ((h.isPrefix h' less).sublist.nodup distinct')).elim
  · obtain ⟨rfl, places⟩ := h.unique h' same
    rw [Int.natCast_inj.mp places]
  · exact (repeats again' ((h'.isPrefix h more).sublist.nodup distinct)).elim

end Walks

section Ends

variable {g : Graph} {start index : Int} {ref : TypeRef} {e e' : WalkEnd}

theorem Halts.stuck (h : g.Halts start index e) : ∀ next, ¬ g.Aliases index next := by
  rintro next ⟨node, found, kind⟩
  cases h with
  | node here plain =>
    cases here.symm.trans ((node?_natCast g _).symm.trans found)
    simp [kind, Kind.isAlias] at plain
  | primitive here kind' =>
    cases here.symm.trans ((node?_natCast g _).symm.trans found)
    simp [kind] at kind'
  | outside out =>
    rw [node?_eq_none_iff.mpr out] at found
    cases found

theorem inside_of_found {id : Nat} {node : TypeDef} (found : g.types[id]? = some node) :
    ¬ ((id : Int) < 0 ∨ (g.size : Int) ≤ id) := by
  have small : id < g.size := (List.getElem?_eq_some_iff.mp found).1
  omega

theorem Halts.unique (h : g.Halts start index e) (h' : g.Halts start index e') : e = e' := by
  generalize same : index = index' at h'
  cases h with
  | node here plain =>
    cases h' with
    | node => rw [Int.natCast_inj.mp same]
    | primitive here' kind =>
      cases Int.natCast_inj.mp same
      cases here.symm.trans here'
      simp [kind, Kind.isAlias] at plain
    | outside out => exact (inside_of_found here (same ▸ out)).elim
  | primitive here kind =>
    cases h' with
    | node here' plain =>
      cases Int.natCast_inj.mp same
      cases here.symm.trans here'
      simp [kind, Kind.isAlias] at plain
    | primitive => rfl
    | outside out => exact (inside_of_found here (same ▸ out)).elim
  | outside out =>
    cases h' with
    | node here' => exact (inside_of_found here' (same ▸ out)).elim
    | primitive here' => exact (inside_of_found here' (same ▸ out)).elim
    | outside => rw [same]

theorem Ends.unique (h : g.Ends ref e) (h' : g.Ends ref e') : e = e' := by
  cases h with
  | absent => cases h'; rfl
  | halt walks halts =>
    cases h' with
    | halt walks' halts' =>
      cases stuck_unique walks walks' halts.stuck halts'.stuck
      exact halts.unique halts'
    | cycle walks' _ again =>
      have onward := not_returns_of_stuck walks.reaches halts.stuck walks'.reaches
      exact (onward (walks'.returns _ again)).elim
  | cycle walks distinct again =>
    cases h' with
    | halt walks' halts' =>
      have onward := not_returns_of_stuck walks'.reaches halts'.stuck walks.reaches
      exact (onward (walks.returns _ again)).elim
    | cycle walks' distinct' again' =>
      rw [cycle_unique walks walks' distinct distinct' again again']

theorem walk_ends {passed fresh : List Nat} (walks : g.Walks start passed index)
    (distinct : passed.Nodup) (nodup : fresh.Nodup)
    (rest : ∀ id, id ∈ fresh ↔ id < g.size ∧ id ∉ passed) :
    ∃ e, g.Ends (.node start) e ∧
      (g.walk start.toNat passed fresh index).map some = e.answer g.size := by
  fun_induction walk g start.toNat passed fresh index with
  | case1 passed fresh index missing =>
    exact ⟨.outside index, .halt walks (.outside (node?_eq_none_iff.mp missing)), rfl⟩
  | case2 passed fresh index node found member target kind ih =>
    have new : index.toNat ∉ passed := ((rest _).mp member).2
    have distinct' : (passed ++ [index.toNat]).Nodup := by simpa using distinct.concat new
    refine ih (.next walks ⟨node, found, kind⟩) distinct' (nodup.erase _) fun id => ?_
    rw [nodup.mem_erase_iff, rest]
    simp only [List.mem_append, List.mem_singleton, not_or]
    tauto
  | case3 passed fresh index node found member p kind =>
    obtain ⟨inside, -, here⟩ := node?_eq_some found
    rw [← Int.toNat_of_nonneg inside] at walks
    exact ⟨.primitive start.toNat, .halt walks (.primitive here kind), rfl⟩
  | case4 passed fresh index node found member other plain =>
    obtain ⟨inside, -, here⟩ := node?_eq_some found
    rw [← Int.toNat_of_nonneg inside] at walks
    refine ⟨.node index.toNat, .halt walks (.node here ?_), rfl⟩
    cases hk : node.kind with
    | «alias» target =>
      cases target with
      | primitive p => exact (plain p hk).elim
      | node target => exact (other target hk).elim
    | _ => rfl
  | case5 passed fresh index node found member =>
    obtain ⟨inside, small, here⟩ := node?_eq_some found
    have again : index.toNat ∈ passed := by
      by_contra new
      exact member ((rest _).mpr ⟨small, new⟩)
    rw [← Int.toNat_of_nonneg inside] at walks
    exact ⟨.cycle (passed ++ [index.toNat]), .cycle walks distinct again, rfl⟩

theorem exists_end (g : Graph) (ref : TypeRef) :
    ∃ e, g.Ends ref e ∧ g.resolveAlias ref = e.answer g.size := by
  cases ref with
  | primitive p => exact ⟨.absent, .absent p, rfl⟩
  | node index => exact walk_ends .start List.nodup_nil (nodup_ids g) fun id => by simp [mem_ids]

theorem resolveAlias_of_ends (h : g.Ends ref e) : g.resolveAlias ref = e.answer g.size := by
  obtain ⟨e', ends, answer⟩ := exists_end g ref
  rw [answer, h.unique ends]

theorem Walks.start_nonneg {passed : List Nat} {id : Nat} (h : g.Walks start passed id) :
    0 ≤ start := by
  rcases Relation.ReflTransGen.cases_head h.reaches with rfl | ⟨_, ⟨node, found, _⟩, _⟩
  · exact Int.natCast_nonneg id
  · exact (node?_eq_some found).1

theorem resolveAlias_idem {id : Nat} (h : g.resolveAlias ref = .ok (some id)) :
    g.resolveAlias (.node id) = .ok (some id) := by
  obtain ⟨e, ends, answer⟩ := exists_end g ref
  rw [h] at answer
  cases ends with
  | absent => cases answer
  | cycle => cases answer
  | halt walks halts =>
    cases halts with
    | outside => cases answer
    | node here plain =>
      cases answer
      exact resolveAlias_of_ends (.halt .start (.node here plain))
    | primitive here kind =>
      cases answer
      rwa [Int.toNat_of_nonneg walks.start_nonneg]

end Ends

def resolveWithin (g : Graph) (rounds : Nat) : TypeRef → Option (Except Error (Option Nat))
  | .primitive _ => some (.ok none)
  | .node index => (g.walkWithin index.toNat rounds [] index).map (·.map some)

/-- A reference resolves to what the one end of its walk says, after at most one round more than
there are nodes. -/
theorem resolveAlias_eq_answer (g : Graph) (ref : TypeRef) :
    (∃! e, g.Ends ref e) ∧ (∀ e, g.Ends ref e → g.resolveAlias ref = e.answer g.size) ∧
      (g.resolveAlias ref = .ok none ↔ ∃ p, ref = .primitive p) ∧
      g.resolveWithin (g.size + 1) ref = some (g.resolveAlias ref) ∧
      ∀ id : Nat, g.resolveAlias ref = .ok (some id) →
        g.resolveAlias (.node id) = .ok (some id) := by
  refine ⟨?_, fun e => resolveAlias_of_ends, ?_, ?_, fun id => resolveAlias_idem⟩
  · obtain ⟨e, ends, _⟩ := exists_end g ref
    exact ⟨e, ends, fun e' ends' => ends'.unique ends⟩
  · cases ref with
    | primitive p => simp [resolveAlias]
    | node index => cases hd : g.denoted index <;> simp [resolveAlias, hd, Except.map]
  · cases ref with
    | primitive p => rfl
    | node index => rw [resolveWithin, walkWithin_eq_denoted]; rfl

end Graph

end WitSchema.Wit

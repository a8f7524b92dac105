import Mathlib.Data.List.Nodup
import Mathlib.Logic.Relation
import Mathlib.Tactic.Tauto
import WitSchema.Wit.Graph

/-! The walk over aliases. Where it leads is a relation on the graph alone:
to a node that is no alias, or to a primitive. The walk that keeps the passed
nodes in a list needs at most one step more than the graph has nodes. -/

namespace WitSchema.Wit

def Kind.isAlias : Kind → Bool
  | .alias _ => true
  | _ => false

namespace Graph

theorem node?_eq_some {g : Graph} {index : Int} {node : TypeDef} (h : g.node? index = some node) :
    0 ≤ index ∧ index.toNat < g.size ∧ g.types[index.toNat]? = some node := by
  unfold node? at h
  split at h
  · rename_i hi
    exact ⟨hi, (List.getElem?_eq_some_iff.mp h).1, h⟩
  · cases h

theorem node?_natCast (g : Graph) (id : Nat) : g.node? (id : Int) = g.types[id]? := by
  simp [node?]

theorem typeDef_natCast (g : Graph) (id : Nat) {node : TypeDef} (h : g.types[id]? = some node) :
    g.typeDef (id : Int) = .ok node := by
  simp [typeDef, node?_natCast, h]

theorem mem_ids {g : Graph} {id : Nat} : id ∈ g.ids ↔ id < g.size := by simp [ids]

theorem nodup_ids (g : Graph) : g.ids.Nodup := List.nodup_range

/-- Where the aliases from an index lead: to a node, or to none where they end in a primitive. -/
inductive Leads (g : Graph) : Int → Option Nat → Prop
  | node {index node} (found : g.node? index = some node) (plain : node.kind.isAlias = false) :
      Leads g index (some index.toNat)
  | primitive {index node p} (found : g.node? index = some node)
      (kind : node.kind = .alias (.primitive p)) : Leads g index none
  | next {index node target r} (found : g.node? index = some node)
      (kind : node.kind = .alias (.node target)) (rest : Leads g target r) : Leads g index r

theorem Leads.unique {g : Graph} {index : Int} {r r' : Option Nat} (h : g.Leads index r)
    (h' : g.Leads index r') : r = r' := by
  induction h with
  | node found plain =>
    cases h' with
    | node => rfl
    | primitive found' kind =>
      cases found.symm.trans found'
      simp [kind, Kind.isAlias] at plain
    | next found' kind _ =>
      cases found.symm.trans found'
      simp [kind, Kind.isAlias] at plain
  | primitive found kind =>
    cases h' with
    | node found' plain =>
      cases found.symm.trans found'
      simp [kind, Kind.isAlias] at plain
    | primitive => rfl
    | next found' kind' _ =>
      cases found.symm.trans found'
      simp [kind] at kind'
  | next found kind _ ih =>
    cases h' with
    | node found' plain =>
      cases found.symm.trans found'
      simp [kind, Kind.isAlias] at plain
    | primitive found' kind' =>
      cases found.symm.trans found'
      simp [kind] at kind'
    | next found' kind' rest =>
      cases found.symm.trans found'
      cases kind.symm.trans kind'
      exact ih rest

theorem Leads.node_of_some {g : Graph} {index : Int} {id : Nat} (h : g.Leads index (some id)) :
    ∃ node, g.types[id]? = some node ∧ node.kind.isAlias = false := by
  generalize hr : some id = r at h
  induction h with
  | node found plain =>
    cases hr
    exact ⟨_, (node?_eq_some found).2.2, plain⟩
  | primitive => cases hr
  | next _ _ _ ih => exact ih hr

theorem Leads.isAlias_of_none {g : Graph} {index : Int} (h : g.Leads index none) :
    ∃ node, g.types[index.toNat]? = some node ∧ node.kind.isAlias = true := by
  cases h with
  | primitive found kind => exact ⟨_, (node?_eq_some found).2.2, by rw [kind]; rfl⟩
  | next found kind _ => exact ⟨_, (node?_eq_some found).2.2, by rw [kind]; rfl⟩

theorem walk_leads {g : Graph} {start : Nat} {chain fresh : List Nat} {index : Int} {id : Nat}
    (h : g.walk start chain fresh index = .ok id) :
    g.Leads index (some id) ∨ g.Leads index none ∧ id = start := by
  fun_induction walk g start chain fresh index with
  | case1 => cases h
  | case2 chain fresh index node found member target kind ih =>
    rcases ih h with hnode | ⟨hprimitive, rfl⟩
    · exact .inl (.next found kind hnode)
    · exact .inr ⟨.next found kind hprimitive, rfl⟩
  | case3 chain fresh index node found member p kind =>
    cases h
    exact .inr ⟨.primitive found kind, rfl⟩
  | case4 chain fresh index node found member other plain =>
    cases h
    refine .inl (.node found ?_)
    cases hk : node.kind with
    | «alias» target =>
      cases target with
      | primitive p => exact (plain p hk).elim
      | node target => exact (other target hk).elim
    | _ => rfl
  | case5 => cases h

theorem walk_lt {g : Graph} {start : Nat} {chain fresh : List Nat} {index : Int} {id : Nat}
    (h : g.walk start chain fresh index = .ok id) (hs : start < g.size) : id < g.size := by
  rcases walk_leads h with hnode | ⟨_, rfl⟩
  · obtain ⟨node, found, _⟩ := hnode.node_of_some
    exact (List.getElem?_eq_some_iff.mp found).1
  · exact hs

theorem denoted_leads {g : Graph} {index : Int} {id : Nat} (h : g.denoted index = .ok id) :
    g.Leads index (some id) ∨ g.Leads index none ∧ id = index.toNat := walk_leads h

theorem denoted_lt {g : Graph} {index : Int} {id : Nat} (h : g.denoted index = .ok id) :
    id < g.size := by
  cases hn : g.node? index with
  | none =>
    rw [denoted, walk, hn] at h
    cases h
  | some node => exact walk_lt h (node?_eq_some hn).2.1

theorem denoted_found {g : Graph} {index : Int} {id : Nat} (h : g.denoted index = .ok id) :
    ∃ node, g.types[id]? = some node :=
  ⟨_, List.getElem?_eq_getElem (denoted_lt h)⟩

/-- A walk that comes to an end does so whatever it has passed before. -/
theorem walk_ok_mono {g : Graph} {start start' : Nat} {chain chain' fresh fresh' : List Nat}
    {index : Int} {id : Nat} (nodup : fresh.Nodup) (hsub : fresh ⊆ fresh')
    (h : g.walk start chain fresh index = .ok id) :
    ∃ id', g.walk start' chain' fresh' index = .ok id' := by
  fun_induction walk g start chain fresh index generalizing chain' fresh' with
  | case1 | case5 => cases h
  | case2 chain fresh index node found member target kind ih =>
    unfold walk
    simp only [found, hsub member, dif_pos, kind]
    refine ih (nodup.erase _) (fun a ha => ?_) h
    obtain ⟨hne, ha⟩ := nodup.mem_erase_iff.mp ha
    exact (List.mem_erase_of_ne hne).mpr (hsub ha)
  | case3 chain fresh index node found member p kind =>
    unfold walk
    simp only [found, hsub member, dif_pos, kind]
    exact ⟨start', rfl⟩
  | case4 chain fresh index node found member plain other =>
    unfold walk
    simp only [found, hsub member, dif_pos]
    refine ⟨index.toNat, ?_⟩
    cases hk : node.kind with
    | «alias» target =>
      cases target with
      | primitive p => exact (other p hk).elim
      | node target => exact (plain target hk).elim
    | _ => rfl

theorem denoted_next {g : Graph} {index target : Int} {id : Nat} {node : TypeDef}
    (h : g.denoted index = .ok id) (found : g.node? index = some node)
    (kind : node.kind = .alias (.node target)) : ∃ id', g.denoted target = .ok id' := by
  have member : index.toNat ∈ g.ids := mem_ids.mpr (node?_eq_some found).2.1
  unfold denoted walk at h
  simp only [found, member, dif_pos, kind] at h
  exact walk_ok_mono ((nodup_ids g).erase _) List.erase_subset h

def Aliases (g : Graph) (index target : Int) : Prop :=
  ∃ node, g.node? index = some node ∧ node.kind = .alias (.node target)

theorem Leads.not_cycle {g : Graph} {index : Int} {r : Option Nat} (h : g.Leads index r) :
    ¬ Relation.TransGen g.Aliases index index := by
  intro hcycle
  induction h with
  | node found plain =>
    obtain ⟨target, ⟨node, found', kind⟩, _⟩ := Relation.TransGen.head'_iff.mp hcycle
    cases found.symm.trans found'
    simp [kind, Kind.isAlias] at plain
  | primitive found kind =>
    obtain ⟨target, ⟨node, found', kind'⟩, _⟩ := Relation.TransGen.head'_iff.mp hcycle
    cases found.symm.trans found'
    simp [kind] at kind'
  | next found kind _ ih =>
    obtain ⟨target, ⟨node, found', kind'⟩, hback⟩ := Relation.TransGen.head'_iff.mp hcycle
    cases found.symm.trans found'
    cases kind.symm.trans kind'
    exact ih (.tail' hback ⟨_, found, kind⟩)

theorem denoted_alias {g : Graph} {index : Int} {id : Nat} {node : TypeDef}
    (h : g.denoted index = .ok id) (found : g.types[id]? = some node)
    (isAlias : node.kind.isAlias = true) : g.Leads id none := by
  rcases denoted_leads h with hnode | ⟨hprimitive, rfl⟩
  · obtain ⟨node', found', plain⟩ := hnode.node_of_some
    cases found.symm.trans found'
    simp [isAlias] at plain
  · have hi : 0 ≤ index := by
      cases hprimitive with
      | primitive found _ => exact (node?_eq_some found).1
      | next found _ _ => exact (node?_eq_some found).1
    rwa [Int.toNat_of_nonneg hi]

/-- The walk with the passed nodes in a list and a bound on its steps, none if they run out. -/
def walkWithin (g : Graph) (start : Nat) : Nat → List Nat → Int → Option (Except Error Nat)
  | 0, _, _ => none
  | steps + 1, chain, index =>
    match g.node? index with
    | none => some (.error (.unresolvedType index g.size))
    | some node =>
      if index.toNat ∈ chain then some (.error (.typeCycle (chain ++ [index.toNat])))
      else match node.kind with
        | .alias (.node target) => walkWithin g start steps (chain ++ [index.toNat]) target
        | .alias (.primitive _) => some (.ok start)
        | _ => some (.ok index.toNat)

theorem walkWithin_eq_walk {g : Graph} {start : Nat} {chain fresh : List Nat} {index : Int}
    (hf : ∀ id, id ∈ fresh ↔ id < g.size ∧ id ∉ chain) (nodup : fresh.Nodup) {steps : Nat}
    (hs : fresh.length < steps) :
    g.walkWithin start steps chain index = some (g.walk start chain fresh index) := by
  induction steps generalizing chain fresh index with
  | zero => omega
  | succ steps ih =>
    unfold walkWithin walk
    cases hn : g.node? index with
    | none => rfl
    | some node =>
      have hlt := (node?_eq_some hn).2.1
      by_cases hc : index.toNat ∈ chain
      · have hfresh : index.toNat ∉ fresh := fun h => ((hf _).mp h).2 hc
        simp [hc, hfresh]
      · have hfresh : index.toNat ∈ fresh := (hf _).mpr ⟨hlt, hc⟩
        have hlen := List.length_erase_of_mem hfresh
        have hpos := List.length_pos_of_mem hfresh
        have hrest (target : Int) :
            g.walkWithin start steps (chain ++ [index.toNat]) target =
              some (g.walk start (chain ++ [index.toNat]) (fresh.erase index.toNat) target) := by
          apply ih _ (nodup.erase _) (by omega)
          intro id
          rw [nodup.mem_erase_iff, hf]
          simp only [List.mem_append, List.mem_singleton, not_or]
          tauto
        simp only [hc, hfresh, if_false, dif_pos]
        cases node.kind with
        | «alias» target => cases target with
          | primitive p => rfl
          | node target => exact hrest target
        | _ => rfl

theorem walkWithin_eq_denoted (g : Graph) (index : Int) :
    g.walkWithin index.toNat (g.size + 1) [] index = some (g.denoted index) := by
  refine walkWithin_eq_walk (fun id => ?_) (nodup_ids g) ?_
  · simp [mem_ids]
  · simp [ids]

def denotedWithin (g : Graph) (index : Int) : Except Error Nat :=
  (g.walkWithin index.toNat (g.size + 1) [] index).getD (.error (.unresolvedType index g.size))

@[simp] theorem denotedWithin_eq (g : Graph) (index : Int) :
    g.denotedWithin index = g.denoted index := by
  rw [denotedWithin, walkWithin_eq_denoted, Option.getD_some]

end Graph

end WitSchema.Wit

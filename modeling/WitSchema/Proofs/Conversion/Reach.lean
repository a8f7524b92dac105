import WitSchema.Proofs.Conversion.Layers

/-! What a reference reaches through members, aliases among them. A sound side
with nothing under construction has a type for all that it reaches from the
references it has a type for, so none of these can be faulty. -/

namespace WitSchema

open GraphQL

namespace Wit

def Kind.isRecognised : Kind → Bool
  | .unrecognised _ => false
  | _ => true

namespace Graph

def Steps (g : Graph) (ref ref' : TypeRef) : Prop :=
  ∃ index node, ref = .node index ∧ g.node? index = some node ∧ ref' ∈ node.kind.members

def Reaches (g : Graph) : TypeRef → TypeRef → Prop := Relation.ReflTransGen g.Steps

def Resolves (g : Graph) (ref : TypeRef) : Prop :=
  ∃ r, g.resolveAlias ref = .ok r ∧ ∀ id ∈ r, ∃ node, g.types[id]? = some node ∧
    node.kind.isRecognised = true

structure WrapperCycle (g : Graph) (id : Nat) (path : List Nat) : Prop where
  cycle : (id :: (path ++ [id])).IsChain g.Edge
  wrappers : ∀ a ∈ id :: path, ∃ node, g.types[a]? = some node ∧ node.kind.isWrapper = true

inductive Faulty (g : Graph) (ref : TypeRef) : Prop
  | missing {index} (reached : g.Reaches ref (.node index)) (missing : g.node? index = none)
  | aliasCycle {index} (reached : g.Reaches ref (.node index))
      (cycle : Relation.TransGen g.Aliases index index)
  | wrapperCycle {ref' id path} (reached : g.Reaches ref ref')
      (resolves : g.resolveAlias ref' = .ok (some id)) (cycle : g.WrapperCycle id path)
  | unrecognised {index node} (reached : g.Reaches ref (.node index))
      (found : g.node? index = some node) (unknown : node.kind.isRecognised = false)

theorem Leads.found {g : Graph} {index : Int} {r : Option Nat} (h : g.Leads index r) :
    ∃ node, g.node? index = some node := by
  cases h with
  | node found | primitive found | next found => exact ⟨_, found⟩

theorem leads_of_denoted {g : Graph} {index : Int} {id : Nat} (h : g.denoted index = .ok id) :
    ∃ r, g.Leads index r := by
  rcases denoted_leads h with hnode | ⟨hprimitive, _⟩
  · exact ⟨_, hnode⟩
  · exact ⟨_, hprimitive⟩

theorem denoted_plain {g : Graph} {index : Int} {id : Nat} {node : TypeDef}
    (h : g.denoted index = .ok id) (found : g.node? index = some node)
    (plain : node.kind.isAlias = false) : id = index.toNat := by
  rcases denoted_leads h with hnode | ⟨hprimitive, rfl⟩
  · cases hnode.unique (.node found plain)
    rfl
  · rfl

end Graph

end Wit

namespace Conversion

open Wit Wit.Graph

variable {g : Graph} {direction : Direction} {s : Side} {ref ref' : TypeRef}

theorem look?_eq_some_node {index : Int} (h : (s.look? g (.node index)).isSome = true) :
    ∃ id t, g.denoted index = .ok id ∧ s.cached? id = some t := by
  unfold Side.look? at h
  cases hd : g.denoted index with
  | error e => simp [hd] at h
  | ok id =>
    obtain ⟨t, ht⟩ := Option.isSome_iff_exists.mp (by simpa only [hd] using h)
    exact ⟨id, t, rfl, ht⟩

theorem recognised_of_cached (sound : Sound g direction s) (idle : s.building = []) {id : Nat}
    {t : Ty} {node : TypeDef} (hc : s.cached? id = some t) (found : g.types[id]? = some node) :
    node.kind.isRecognised = true := by
  obtain ⟨node', found', hdesc⟩ := sound id t hc (idle ▸ List.not_mem_nil)
  cases found.symm.trans found'
  cases hk : node.kind with
  | unrecognised raw =>
    simp only [recipe, hk] at hdesc
    exact hdesc.elim
  | _ => rfl

theorem looked_members (sound : Sound g direction s) (idle : s.building = []) {id : Nat} {t : Ty}
    {node : TypeDef} (hc : s.cached? id = some t) (found : g.types[id]? = some node) :
    ∀ ref ∈ node.kind.members, (s.look? g ref).isSome = true := by
  obtain ⟨node', found', hdesc⟩ := sound id t hc (idle ▸ List.not_mem_nil)
  cases found.symm.trans found'
  have hr : (recipe direction id node).isRefusal = false := by
    cases hr : recipe direction id node with
    | refuse notices e =>
      rw [hr] at hdesc
      exact hdesc.elim
    | _ => rfl
  rw [← recipe_refs hr]
  exact hdesc.looked

theorem describes_of_look (sound : Sound g direction s) (idle : s.building = []) {index : Int}
    {node : TypeDef} {t : Ty} (h : s.look? g (.node index) = some t)
    (found : g.node? index = some node) (plain : node.kind.isAlias = false) :
    (recipe direction index.toNat node).Describes g direction s t := by
  obtain ⟨id, t', hd, hc⟩ := look?_eq_some_node (by rw [h]; rfl)
  obtain rfl : t' = t := by simpa [Side.look?, hd, hc] using h
  cases denoted_plain hd found plain
  obtain ⟨node', found', hdesc⟩ := sound _ t' hc (idle ▸ List.not_mem_nil)
  cases found'.symm.trans (node?_eq_some found).2.2
  exact hdesc

theorem look?_alias (sound : Sound g direction s) (idle : s.building = []) {index : Int}
    {target : TypeRef} {node : TypeDef} {t : Ty} (h : s.look? g (.node index) = some t)
    (found : g.node? index = some node) (kind : node.kind = .alias target) :
    s.look? g target = some t := by
  obtain ⟨id, t', hd, hc⟩ := look?_eq_some_node (by rw [h]; rfl)
  obtain rfl : t' = t := by simpa [Side.look?, hd, hc] using h
  rcases denoted_leads hd with hnode | ⟨_, rfl⟩
  · cases target with
    | primitive p => cases hnode.unique (.primitive found kind)
    | node target =>
      obtain ⟨id', hd'⟩ := denoted_next hd found kind
      have hid : id' = id := by
        rcases denoted_leads hd' with hnode' | ⟨hprimitive, _⟩
        · exact (Option.some.inj (hnode.unique (.next found kind hnode'))).symm
        · cases hnode.unique (.next found kind hprimitive)
      simp only [Side.look?, hd', hid, hc]
  · obtain ⟨node', found', hdesc⟩ := sound _ t' hc (idle ▸ List.not_mem_nil)
    cases found'.symm.trans (node?_eq_some found).2.2
    cases target with
    | primitive p =>
      simp only [recipe, kind, Recipe.Describes] at hdesc
      rw [hdesc]
      rfl
    | node target =>
      simp only [recipe, kind, Recipe.Describes] at hdesc
      exact hdesc

theorem looked_alias (sound : Sound g direction s) (idle : s.building = []) {index target : Int}
    {node : TypeDef} (h : (s.look? g (.node index)).isSome = true)
    (found : g.node? index = some node) (kind : node.kind = .alias (.node target)) :
    (s.look? g (.node target)).isSome = true := by
  obtain ⟨t, looked⟩ := Option.isSome_iff_exists.mp h
  rw [look?_alias sound idle looked found kind]
  rfl

theorem looked_of_steps (sound : Sound g direction s) (idle : s.building = [])
    (h : (s.look? g ref).isSome = true) (steps : g.Steps ref ref') :
    (s.look? g ref').isSome = true := by
  obtain ⟨index, node, rfl, found, href⟩ := steps
  cases hk : node.kind.isAlias with
  | false =>
    obtain ⟨id, t, hd, hc⟩ := look?_eq_some_node h
    cases denoted_plain hd found hk
    exact looked_members sound idle hc (node?_eq_some found).2.2 ref' href
  | true =>
    cases hn : node.kind with
    | «alias» target =>
      cases target with
      | primitive p => simp [hn, Kind.members] at href
      | node target =>
        rw [hn] at href
        cases List.mem_singleton.mp href
        exact looked_alias sound idle h found hn
    | _ => simp [hn, Kind.isAlias] at hk

theorem looked_of_reaches (sound : Sound g direction s) (idle : s.building = [])
    (h : (s.look? g ref).isSome = true) (reached : g.Reaches ref ref') :
    (s.look? g ref').isSome = true := by
  induction reached with
  | refl => exact h
  | tail _ steps ih => exact looked_of_steps sound idle ih steps

theorem resolves_of_looked (sound : Sound g direction s) (idle : s.building = [])
    (h : (s.look? g ref).isSome = true) : g.Resolves ref := by
  cases ref with
  | primitive p => exact ⟨none, rfl, nofun⟩
  | node index =>
    obtain ⟨id, t, hd, hc⟩ := look?_eq_some_node h
    refine ⟨some id, by simp [resolveAlias, hd, Except.map], fun id' hid => ?_⟩
    cases hid
    obtain ⟨node, found⟩ := denoted_found hd
    exact ⟨node, found, recognised_of_cached sound idle hc found⟩

theorem not_faulty_of_looked (sound : Sound g direction s) (idle : s.building = [])
    (layered : Layered g direction s) (h : (s.look? g ref).isSome = true) : ¬ g.Faulty ref := by
  intro faulty
  cases faulty with
  | missing reached missing =>
    obtain ⟨id, t, hd, _⟩ := look?_eq_some_node (looked_of_reaches sound idle h reached)
    obtain ⟨r, hleads⟩ := leads_of_denoted hd
    obtain ⟨node, found⟩ := hleads.found
    rw [missing] at found
    cases found
  | aliasCycle reached cycle =>
    obtain ⟨id, t, hd, _⟩ := look?_eq_some_node (looked_of_reaches sound idle h reached)
    obtain ⟨r, hleads⟩ := leads_of_denoted hd
    exact hleads.not_cycle cycle
  | @wrapperCycle ref' id path reached resolves cycle =>
    have hcached := isSome_cached_of_look resolves (looked_of_reaches sound idle h reached)
    have hlt := layered.place_lt_of_isChain cycle.cycle hcached fun a ha hmakes => by
      obtain ⟨node, found, hw⟩ := cycle.wrappers a ha
      have hagg := hmakes.recipe found
      simp [isAggregate_of_isWrapper hw] at hagg
    exact Nat.lt_irrefl _ hlt
  | @unrecognised index node reached found unknown =>
    obtain ⟨id, t, hd, hc⟩ := look?_eq_some_node (looked_of_reaches sound idle h reached)
    have plain : node.kind.isAlias = false := by
      cases hk : node.kind with
      | «alias» => simp [hk, Kind.isRecognised] at unknown
      | _ => rfl
    cases denoted_plain hd found plain
    simp [recognised_of_cached sound idle hc (node?_eq_some found).2.2] at unknown

end Conversion

end WitSchema

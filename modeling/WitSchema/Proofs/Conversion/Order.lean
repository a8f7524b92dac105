import Mathlib.Data.List.Chain
import Mathlib.Data.List.Perm.Subperm
import WitSchema.Proofs.Conversion.Recipe

/-! The order in which a depth-first walk over members first meets the nodes of
a graph, and cycles in that order. A cycle whose first node is a list, an
option or a tuple closes before that node is complete. -/

namespace WitSchema.Wit.Graph

def members (g : Graph) (id : Nat) : List TypeRef := (g.types[id]?).elim [] (·.kind.members)

def Edge (g : Graph) (a b : Nat) : Prop := ∃ ref ∈ g.members a, g.resolveAlias ref = .ok (some b)

/-- The nodes seen when a reference has been followed to the given depth, in the order in which
they were first met. -/
def visit (g : Graph) : Nat → List Nat → TypeRef → List Nat
  | 0, seen, _ => seen
  | depth + 1, seen, ref =>
    match g.resolveAlias ref with
    | .ok (some id) =>
      if id ∈ seen then seen else (g.members id).foldl (visit g depth) (seen ++ [id])
    | _ => seen

def order (g : Graph) (seen : List Nat) (ref : TypeRef) : List Nat :=
  (g.visit g.size seen ref).drop seen.length

def Meets (g : Graph) (order : List Nat) (ref ref' : TypeRef) : Prop :=
  ref' = ref ∨ ∃ id ∈ order, ref' ∈ g.members id

/-- A cycle of which the walk meets a list, an option or a tuple first. -/
structure WrapperFirst (g : Graph) (order : List Nat) (w : Nat) (path : List Nat) : Prop where
  wrapper : ∃ node, g.types[w]? = some node ∧ node.kind.isWrapper = true
  cycle : (w :: (path ++ [w])).IsChain g.Edge
  first : ∃ before after, order = before ++ w :: after ∧ path ⊆ after

def unseen (g : Graph) (seen : List Nat) : List Nat := g.ids.filter (!seen.contains ·)

theorem resolveAlias_eq_some {g : Graph} {ref : TypeRef} {id : Nat} :
    g.resolveAlias ref = .ok (some id) ↔ ∃ index, ref = .node index ∧ g.denoted index = .ok id := by
  cases ref with
  | primitive p => simp [resolveAlias]
  | node index => cases hd : g.denoted index <;> simp [resolveAlias, hd, Except.map]

theorem resolveAlias_eq_error {g : Graph} {ref : TypeRef} {e : Error} :
    g.resolveAlias ref = .error e ↔ ∃ index, ref = .node index ∧ g.denoted index = .error e := by
  cases ref with
  | primitive p => simp [resolveAlias]
  | node index => cases hd : g.denoted index <;> simp [resolveAlias, hd, Except.map]

theorem mem_unseen {g : Graph} {seen : List Nat} {id : Nat} :
    id ∈ g.unseen seen ↔ id < g.size ∧ id ∉ seen := by
  simp [unseen, mem_ids]

theorem length_unseen_le (g : Graph) (seen : List Nat) : (g.unseen seen).length ≤ g.size := by
  have hle := List.length_filter_le (!seen.contains ·) g.ids
  rwa [ids, List.length_range] at hle

theorem unseen_append_subset (g : Graph) (seen new : List Nat) :
    g.unseen (seen ++ new) ⊆ g.unseen seen := by
  intro id hid
  obtain ⟨hlt, hnot⟩ := mem_unseen.mp hid
  exact mem_unseen.mpr ⟨hlt, fun hmem => hnot (List.mem_append_left _ hmem)⟩

theorem length_unseen_append (g : Graph) (seen new : List Nat) :
    (g.unseen (seen ++ new)).length ≤ (g.unseen seen).length :=
  (((nodup_ids g).filter _).subperm (unseen_append_subset g seen new)).length_le

theorem length_unseen_concat {g : Graph} {seen : List Nat} {id : Nat} (hlt : id < g.size)
    (hid : id ∉ seen) : (g.unseen (seen ++ [id])).length < (g.unseen seen).length := by
  have member : id ∈ g.unseen seen := mem_unseen.mpr ⟨hlt, hid⟩
  have hsub : g.unseen (seen ++ [id]) ⊆ (g.unseen seen).erase id := by
    intro a ha
    have hnot := (mem_unseen.mp ha).2
    rw [List.mem_append, List.mem_singleton, not_or] at hnot
    exact (((nodup_ids g).filter _).mem_erase_iff).mpr
      ⟨hnot.2, unseen_append_subset g seen [id] ha⟩
  have hle := (((nodup_ids g).filter (!(seen ++ [id]).contains ·)).subperm hsub).length_le
  have hlen := List.length_erase_of_mem member
  have hpos := List.length_pos_of_mem member
  change (g.unseen (seen ++ [id])).length ≤ _ at hle
  omega

section Visit

variable {g : Graph} {depth : Nat} {seen : List Nat} {ref : TypeRef}

structure Apart (seen new : List Nat) : Prop where
  nodup : new.Nodup
  unseen : ∀ id ∈ new, id ∉ seen

theorem apart_nil (seen : List Nat) : Apart seen [] := ⟨List.nodup_nil, fun _ h => by cases h⟩

theorem Apart.append {seen new new' : List Nat} (h : Apart seen new)
    (h' : Apart (seen ++ new) new') : Apart seen (new ++ new') := by
  constructor
  · refine h.nodup.append h'.nodup fun id hid hid' => ?_
    exact h'.unseen id hid' (List.mem_append_right _ hid)
  · intro id hid
    rcases List.mem_append.mp hid with hid | hid
    · exact h.unseen id hid
    · exact fun hmem => h'.unseen id hid (List.mem_append_left _ hmem)

theorem apart_singleton {id : Nat} (h : id ∉ seen) : Apart seen [id] :=
  ⟨List.nodup_singleton id, fun _ ha => List.mem_singleton.mp ha ▸ h⟩

theorem foldl_apart {f : List Nat → TypeRef → List Nat}
    (h : ∀ seen ref, ∃ new, f seen ref = seen ++ new ∧ Apart seen new) (refs : List TypeRef)
    (seen : List Nat) : ∃ new, refs.foldl f seen = seen ++ new ∧ Apart seen new := by
  induction refs generalizing seen with
  | nil => exact ⟨[], (List.append_nil seen).symm, apart_nil seen⟩
  | cons ref rest ih =>
    obtain ⟨new, hnew, hapart⟩ := h seen ref
    obtain ⟨new', hnew', hapart'⟩ := ih (seen ++ new)
    refine ⟨new ++ new', ?_, hapart.append hapart'⟩
    rw [List.foldl_cons, hnew, hnew', List.append_assoc]

theorem visit_apart (g : Graph) (depth : Nat) (seen : List Nat) (ref : TypeRef) :
    ∃ new, g.visit depth seen ref = seen ++ new ∧ Apart seen new := by
  induction depth generalizing seen ref with
  | zero => exact ⟨[], (List.append_nil seen).symm, apart_nil seen⟩
  | succ depth ih =>
    unfold visit
    split
    · rename_i id _
      split
      · exact ⟨[], (List.append_nil seen).symm, apart_nil seen⟩
      · rename_i hid
        obtain ⟨new, hnew, hapart⟩ := foldl_apart ih (g.members id) (seen ++ [id])
        refine ⟨id :: new, ?_, (apart_singleton hid).append hapart⟩
        rw [hnew, List.append_assoc, List.singleton_append]
    · exact ⟨[], (List.append_nil seen).symm, apart_nil seen⟩

theorem visit_of_mem {id : Nat} (hr : g.resolveAlias ref = .ok (some id)) (hid : id ∈ seen) :
    g.visit depth seen ref = seen := by
  cases depth with
  | zero => rfl
  | succ depth => simp [visit, hr, hid]

theorem visit_of_none (hr : ∀ id, g.resolveAlias ref ≠ .ok (some id)) :
    g.visit depth seen ref = seen := by
  cases depth with
  | zero => rfl
  | succ depth =>
    unfold visit
    split
    · rename_i id h
      exact (hr id h).elim
    · rfl

theorem visit_of_not_mem {id : Nat} (hr : g.resolveAlias ref = .ok (some id)) (hid : id ∉ seen) :
    g.visit (depth + 1) seen ref = (g.members id).foldl (g.visit depth) (seen ++ [id]) := by
  simp [visit, hr, hid]

theorem order_eq {new : List Nat} (h : g.visit g.size seen ref = seen ++ new) :
    g.order seen ref = new := by
  rw [order, h, List.drop_left]

end Visit

theorem members_eq {g : Graph} {id : Nat} {node : TypeDef} (found : g.types[id]? = some node) :
    g.members id = node.kind.members := by
  simp [members, found]

theorem Leads.acc {g : Graph} {index : Int} (h : g.Leads index none) :
    Acc (fun b a => g.Edge a b) index.toNat := by
  generalize hr : (none : Option Nat) = r at h
  induction h with
  | node => cases hr
  | @primitive index node p found kind =>
    refine ⟨_, fun b ⟨ref, href, _⟩ => ?_⟩
    rw [members_eq (node?_eq_some found).2.2, kind] at href
    cases href
  | @next index node target r found kind rest ih =>
    subst hr
    refine ⟨_, fun b ⟨ref, href, hb⟩ => ?_⟩
    rw [members_eq (node?_eq_some found).2.2, kind] at href
    cases List.mem_singleton.mp href
    obtain ⟨_, ⟨⟩, hd⟩ := resolveAlias_eq_some.mp hb
    rcases denoted_leads hd with hnode | ⟨_, rfl⟩
    · cases rest.unique hnode
    · exact ih rfl

theorem transGen_of_isChain {α : Type} {r : α → α → Prop} {a b : α} {path : List α}
    (h : (a :: (path ++ [b])).IsChain r) : Relation.TransGen r a b := by
  induction path generalizing a with
  | nil => exact .single (List.isChain_cons_cons.mp h).1
  | cons c path ih =>
    obtain ⟨hac, hrest⟩ := List.isChain_cons_cons.mp h
    exact .head hac (ih hrest)

theorem not_rel_self_of_acc {α : Type} {r : α → α → Prop} {a : α} (h : Acc r a) : ¬ r a a := by
  induction h with
  | intro a _ ih => exact fun haa => ih a haa haa

theorem Edge.members {g : Graph} {a b : Nat} (h : g.Edge a b) :
    ∃ node, g.types[a]? = some node ∧ node.kind.members ≠ [] := by
  obtain ⟨ref, href, _⟩ := h
  cases found : g.types[a]? with
  | none => simp [Graph.members, found] at href
  | some node =>
    rw [members_eq found] at href
    exact ⟨node, rfl, List.ne_nil_of_mem href⟩

theorem not_isAlias_of_cycle {g : Graph} {id : Nat} {node : TypeDef}
    (h : Relation.TransGen g.Edge id id) (found : g.types[id]? = some node) :
    node.kind.isAlias = false := by
  cases isAlias : node.kind.isAlias with
  | false => rfl
  | true =>
    have hleads : g.Leads id none := by
      obtain ⟨a, _, ref, _, hr⟩ := Relation.TransGen.tail'_iff.mp h
      obtain ⟨_, _, hd⟩ := resolveAlias_eq_some.mp hr
      exact denoted_alias hd found isAlias
    have hacc : Acc (fun b a => g.Edge a b) id := hleads.acc
    exact (not_rel_self_of_acc hacc.transGen (Relation.transGen_swap.mpr h)).elim

theorem kinds_of_cycle {g : Graph} {w : Nat} {path : List Nat}
    (h : (w :: (path ++ [w])).IsChain g.Edge) :
    ∀ v ∈ w :: path, ∃ node, g.types[v]? = some node ∧
      (node.kind.isWrapper = true ∨ node.kind.isAggregate = true) := by
  intro v hv
  have hcycle : Relation.TransGen g.Edge v v := by
    rcases List.mem_cons.mp hv with rfl | hv
    · exact transGen_of_isChain h
    · obtain ⟨before, after, rfl⟩ := List.append_of_mem hv
      rw [List.append_assoc, List.cons_append, ← List.cons_append, List.isChain_split] at h
      exact (transGen_of_isChain h.2).trans (transGen_of_isChain h.1)
  obtain ⟨b, hvb, _⟩ := Relation.TransGen.head'_iff.mp hcycle
  obtain ⟨node, found, hmembers⟩ := hvb.members
  have hplain := not_isAlias_of_cycle hcycle found
  refine ⟨node, found, ?_⟩
  cases hk : node.kind <;>
    simp [hk, Kind.members, Kind.isAlias, Kind.isWrapper, Kind.isAggregate] at hmembers hplain ⊢

section Known

variable {g : Graph} {known : List Nat}

def EdgeClosed (g : Graph) (known : List Nat) : Prop := ∀ a ∈ known, ∀ b, g.Edge a b → b ∈ known

theorem foldl_inside {f : List Nat → TypeRef → List Nat} {refs : List TypeRef}
    (h : ∀ ref ∈ refs, ∀ seen, ∃ new, f seen ref = seen ++ new ∧ new ⊆ known) (seen : List Nat) :
    ∃ new, refs.foldl f seen = seen ++ new ∧ new ⊆ known := by
  induction refs generalizing seen with
  | nil => exact ⟨[], (List.append_nil seen).symm, List.nil_subset _⟩
  | cons ref rest ih =>
    obtain ⟨new, hnew, hsub⟩ := h ref (List.mem_cons_self ..) seen
    obtain ⟨later, hlater, hsub'⟩ :=
      ih (fun ref href => h ref (List.mem_cons_of_mem _ href)) (seen ++ new)
    refine ⟨new ++ later, ?_, List.append_subset.mpr ⟨hsub, hsub'⟩⟩
    rw [List.foldl_cons, hnew, hlater, List.append_assoc]

theorem visit_inside (inside : g.EdgeClosed known) (depth : Nat) {ref : TypeRef}
    (href : ∀ id, g.resolveAlias ref = .ok (some id) → id ∈ known) (seen : List Nat) :
    ∃ new, g.visit depth seen ref = seen ++ new ∧ new ⊆ known := by
  induction depth generalizing seen ref with
  | zero => exact ⟨[], (List.append_nil seen).symm, List.nil_subset _⟩
  | succ depth ih =>
    unfold visit
    split
    · rename_i id hr
      have hid := href id hr
      split
      · exact ⟨[], (List.append_nil seen).symm, List.nil_subset _⟩
      · obtain ⟨new, hnew, hsub⟩ := @foldl_inside known (g.visit depth) (g.members id)
          (fun ref href => ih fun b hb => inside id hid b ⟨ref, href, hb⟩) (seen ++ [id])
        refine ⟨id :: new, ?_, List.cons_subset.mpr ⟨hid, hsub⟩⟩
        rw [hnew, List.append_assoc, List.singleton_append]
    · exact ⟨[], (List.append_nil seen).symm, List.nil_subset _⟩

/-- The two have seen the same nodes, except that the second has seen all known nodes. -/
structure Agree (known seen seen' : List Nat) : Prop where
  all : known ⊆ seen'
  others : ∀ id, id ∉ known → (id ∈ seen' ↔ id ∈ seen)

theorem Agree.append {seen seen' : List Nat} (h : Agree known seen seen') (new : List Nat) :
    Agree known (seen ++ new) (seen' ++ new.filter (!known.contains ·)) := by
  refine ⟨fun id hid => List.mem_append_left _ (h.all hid), fun id hid => ?_⟩
  rw [List.mem_append, List.mem_append, h.others id hid]
  simp [hid]

theorem foldl_agree {f : List Nat → TypeRef → List Nat}
    (hf : ∀ {seen seen'}, Agree known seen seen' → ∀ ref, ∃ new, f seen ref = seen ++ new ∧
      f seen' ref = seen' ++ new.filter (!known.contains ·))
    (refs : List TypeRef) {seen seen' : List Nat} (h : Agree known seen seen') :
    ∃ new, refs.foldl f seen = seen ++ new ∧
      refs.foldl f seen' = seen' ++ new.filter (!known.contains ·) := by
  induction refs generalizing seen seen' with
  | nil => exact ⟨[], (List.append_nil seen).symm, (List.append_nil seen').symm⟩
  | cons ref rest ih =>
    obtain ⟨new, hnew, hnew'⟩ := hf h ref
    obtain ⟨later, hlater, hlater'⟩ := ih (h.append new)
    refine ⟨new ++ later, ?_, ?_⟩
    · rw [List.foldl_cons, hnew, hlater, List.append_assoc]
    · rw [List.foldl_cons, hnew', hlater', List.filter_append, List.append_assoc]

theorem visit_agree (inside : g.EdgeClosed known) (depth : Nat) {seen seen' : List Nat}
    (h : Agree known seen seen') (ref : TypeRef) :
    ∃ new, g.visit depth seen ref = seen ++ new ∧
      g.visit depth seen' ref = seen' ++ new.filter (!known.contains ·) := by
  induction depth generalizing seen seen' ref with
  | zero => exact ⟨[], (List.append_nil seen).symm, (List.append_nil seen').symm⟩
  | succ depth ih =>
    by_cases htarget : ∃ id, g.resolveAlias ref = .ok (some id)
    · obtain ⟨id, hr⟩ := htarget
      by_cases hk : id ∈ known
      · -- the second walk stops here, the first does not get out of the known nodes
        have href : ∀ a, g.resolveAlias ref = .ok (some a) → a ∈ known := fun a ha => by
          rw [hr] at ha
          cases ha
          exact hk
        obtain ⟨new, hnew, hsub⟩ := visit_inside inside (depth + 1) href seen
        have hempty : new.filter (!known.contains ·) = [] :=
          List.filter_eq_nil_iff.mpr fun a ha => by simpa using hsub ha
        refine ⟨new, hnew, ?_⟩
        rw [visit_of_mem hr (h.all hk), hempty, List.append_nil]
      · by_cases hid : id ∈ seen
        · have hid' : id ∈ seen' := (h.others id hk).mpr hid
          exact ⟨[], by simp [visit_of_mem hr hid], by simp [visit_of_mem hr hid']⟩
        · have hid' : id ∉ seen' := fun hmem => hid ((h.others id hk).mp hmem)
          have hsingle : [id].filter (!known.contains ·) = [id] := by simp [hk]
          have hstart := h.append [id]
          rw [hsingle] at hstart
          obtain ⟨new, hnew, hnew'⟩ := foldl_agree ih (g.members id) hstart
          refine ⟨id :: new, ?_, ?_⟩
          · rw [visit_of_not_mem hr hid, hnew, List.append_assoc, List.singleton_append]
          · rw [visit_of_not_mem hr hid', hnew', List.append_assoc, List.singleton_append,
              List.filter_cons_of_pos (by simpa using hk)]
    · have hnone : ∀ id, g.resolveAlias ref ≠ .ok (some id) := fun id hr => htarget ⟨id, hr⟩
      exact ⟨[], by simp [visit_of_none hnone], by simp [visit_of_none hnone]⟩

theorem order_known (inside : g.EdgeClosed known) (ref : TypeRef) :
    g.order known ref = (g.order [] ref).filter (!known.contains ·) := by
  have hagree : Agree known [] known := ⟨List.Subset.refl _, fun id hid => by simp [hid]⟩
  obtain ⟨new, hnew, hnew'⟩ := visit_agree inside g.size hagree ref
  rw [order_eq hnew, order_eq hnew']

theorem WrapperFirst.of_known (inside : g.EdgeClosed known) {ref : TypeRef} {w : Nat}
    {path : List Nat} (h : g.WrapperFirst (g.order known ref) w path) :
    g.WrapperFirst (g.order [] ref) w path := by
  obtain ⟨before, after, hsplit, hpath⟩ := h.first
  rw [order_known inside] at hsplit
  obtain ⟨before', after', hbefore, _, hrest⟩ := List.filter_eq_append_iff.mp hsplit
  obtain ⟨between, others, hnew, _, _, hlast⟩ := List.filter_eq_cons_iff.mp hrest
  refine { h with first := ⟨before' ++ between, others, ?_, fun v hv => ?_⟩ }
  · rw [hbefore, hnew, List.append_assoc]
  · have hv' := hpath hv
    rw [← hlast] at hv'
    exact (List.mem_filter.mp hv').1

end Known

end WitSchema.Wit.Graph

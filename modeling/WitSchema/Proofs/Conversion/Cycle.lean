import WitSchema.Proofs.Conversion.Traversal

/-! When conversion fails on a cycle. What is met again before it is complete is
a list, an option or a tuple that the walk met first of all the nodes of a
cycle, and every such cycle makes conversion fail. Whether a cycle can be
converted therefore depends on the node at which it is entered. -/

namespace WitSchema.Conversion

open GraphQL Wit Wit.Graph

theorem sublist_after {α : Type} {w : α} {before path after : List α} (hw : w ∉ before)
    (h : (w :: path).Sublist (before ++ w :: after)) : path.Sublist after := by
  induction before with
  | nil => exact List.cons_sublist_cons.mp h
  | cons a before ih =>
    rw [List.mem_cons, not_or] at hw
    rw [List.cons_append] at h
    cases h with
    | cons _ h => exact ih hw.2 h
    | cons_cons => exact (hw.1 rfl).elim

theorem dropWhile_of_nodup {w : Nat} {stack : List Nat} (nodup : stack.Nodup) (busy : w ∈ stack) :
    ∃ above rest, stack = above ++ w :: rest ∧ stack.dropWhile (· != w) = w :: rest := by
  obtain ⟨above, rest, rfl⟩ := List.append_of_mem busy
  have habove : w ∉ above :=
    fun h => (List.disjoint_of_nodup_append nodup) h (List.mem_cons_self ..)
  refine ⟨above, rest, rfl, ?_⟩
  rw [List.dropWhile_append_of_pos fun a ha => bne_iff_ne.mpr (ne_of_mem_of_not_mem ha habove)]
  simp

theorem wrapperFirst_of_reentry {g : Graph} {direction : Direction} {w : Nat}
    {stack order : List Nat} (nodup : order.Nodup) (entered : stack.Sublist order)
    (busy : w ∈ stack) (path : (stack ++ [w]).IsChain g.Edge) (late : Late g direction w) :
    ∃ path, stack.dropWhile (· != w) = w :: path ∧ g.WrapperFirst order w path := by
  obtain ⟨above, rest, rfl, hdrop⟩ := dropWhile_of_nodup (nodup.sublist entered) busy
  have hcycle : (w :: (rest ++ [w])).IsChain g.Edge := by
    rw [List.append_assoc] at path
    exact path.right_of_append
  refine ⟨rest, hdrop, ?_, hcycle, ?_⟩
  · obtain ⟨node, found, hkind⟩ := kinds_of_cycle hcycle w (List.mem_cons_self ..)
    obtain ⟨node', found', hr, ha⟩ := late
    cases found.symm.trans found'
    refine ⟨node, found, hkind.resolve_right ?_⟩
    simp [isAggregate_of_recipe hr ha]
  · obtain ⟨before, after, rfl⟩ := List.append_of_mem (entered.subset busy)
    have hbefore : w ∉ before :=
      fun h => (List.disjoint_of_nodup_append nodup) h (List.mem_cons_self ..)
    have hsub : (w :: rest).Sublist (before ++ w :: after) :=
      (List.sublist_append_right above _).trans entered
    exact ⟨before, after, rfl, (sublist_after hbefore hsub).subset⟩

/-- Nothing stands in the way of a conversion: all references that it meets denote something, no
node that it enters is refused, and it enters no cycle at a list, an option or a tuple. -/
structure Convertible (g : Graph) (direction : Direction) (cached : List Nat) (ref : TypeRef) :
    Prop where
  denotes : ∀ ref', g.Meets (g.order cached ref) ref ref' → ∃ r, g.resolveAlias ref' = .ok r
  accepted : ∀ id ∈ g.order cached ref, ∀ node, g.types[id]? = some node →
    (recipe direction id node).isRefusal = false
  forward : ∀ w path, ¬ g.WrapperFirst (g.order cached ref) w path

section Order

variable {g : Graph} {direction : Direction} {s : Side} {ref : TypeRef}

theorem seen_keys (hb : s.building = []) : Seen s s.cache.keys := by
  intro id
  have hkeys : (s.cached? id).isSome ↔ id ∈ s.cache.keys := lookup_isSome_iff_mem_keys
  simp [hb, hkeys]

theorem convert_follows_order (hb : s.building = []) :
    Follows g direction g.size s s.cache.keys [ref] (s.convert g direction ref).1
      (errorOf (s.convert g direction ref).2) :=
  convert_follows g direction s ref g.size s.cache.keys (seen_keys hb)
    (fun id hid => by simp [hb] at hid) (length_unseen_le g _)

theorem resolves_of_isSome_look (h : (s.look? g ref).isSome = true) :
    ∃ r, g.resolveAlias ref = .ok r := by
  cases hr : g.resolveAlias ref with
  | ok r => exact ⟨r, rfl⟩
  | error e =>
    obtain ⟨index, rfl, hd⟩ := resolveAlias_eq_error.mp hr
    simp [Side.look?, hd] at h

theorem convertible_of_ok (hb : s.building = []) {t : Ty}
    (ok : (s.convert g direction ref).2 = .ok t) : Convertible g direction s.cache.keys ref := by
  have hfollows := @convert_follows_order g direction s ref hb
  rw [ok] at hfollows
  obtain ⟨new, hnew, hentered⟩ := hfollows
  have horder : g.order s.cache.keys ref = new := order_eq hnew
  have hlook := look?_of_convert (Prod.ext rfl ok)
  constructor
  · rw [horder]
    rintro ref' (rfl | ⟨id, hid, href⟩)
    · exact resolves_of_isSome_look (Option.isSome_iff_exists.mpr ⟨t, hlook⟩)
    · obtain ⟨_, _, _, hmembers⟩ := hentered.closed id hid
      exact resolves_of_isSome_look (hmembers ref' href)
  · rw [horder]
    intro id hid node found
    obtain ⟨node', found', hr, _⟩ := hentered.closed id hid
    cases found.symm.trans found'
    exact hr
  · rw [horder]
    exact hentered.forward

/-- A conversion that fails is stopped by a reference, by a refusal, or by the first node of a
cycle. -/
theorem blame_of_error (hb : s.building = []) {e : Error}
    (error : (s.convert g direction ref).2 = .error e) :
    (∃ ref', g.Meets (g.order s.cache.keys ref) ref ref' ∧ g.resolveAlias ref' = .error e) ∨
    (∃ id node notices, id ∈ g.order s.cache.keys ref ∧ g.types[id]? = some node ∧
      recipe direction id node = .refuse notices e) ∨
    ∃ w path, e = .typeCycle (w :: (path ++ [w])) ∧
      g.WrapperFirst (g.order s.cache.keys ref) w path := by
  have hfollows := @convert_follows_order g direction s ref hb
  rw [error] at hfollows
  obtain ⟨new, rest, hnew, hblame⟩ := hfollows
  have horder : g.order s.cache.keys ref = new ++ rest := order_eq hnew
  rw [horder]
  cases hblame with
  | @reference ref' e met dangling =>
    refine .inl ⟨ref', met.imp List.mem_singleton.mp fun ⟨id, hid, href⟩ => ?_, dangling⟩
    exact ⟨id, List.mem_append_left _ hid, href⟩
  | @refusal id node notices e met found refused =>
    exact .inr (.inl ⟨id, node, notices, List.mem_append_left _ met, found, refused⟩)
  | @reentry w stack entered busy path start late =>
    rw [hb, List.nil_append] at busy ⊢
    obtain ⟨path, hdrop, hfirst⟩ := wrapperFirst_of_reentry (foldl_visit_eq hnew).nodup
      (entered.trans (List.sublist_append_left new rest)) busy path late
    exact .inr (.inr ⟨w, path, by rw [hdrop]; rfl, hfirst⟩)

theorem ok_of_convertible (hb : s.building = [])
    (h : Convertible g direction s.cache.keys ref) :
    ∃ t, (s.convert g direction ref).2 = .ok t := by
  cases hres : (s.convert g direction ref).2 with
  | ok t => exact ⟨t, rfl⟩
  | error e =>
    rcases blame_of_error hb hres with ⟨ref', met, dangling⟩ | ⟨id, node, notices, met, found, hr⟩ |
      ⟨w, path, _, hfirst⟩
    · obtain ⟨r, hr⟩ := h.denotes ref' met
      rw [dangling] at hr
      cases hr
    · have haccepted := h.accepted id met node found
      rw [hr] at haccepted
      cases haccepted
    · exact (h.forward w path hfirst).elim

end Order

/-- On a converter whose calls all succeeded, a conversion succeeds exactly if nothing stands in
its way. Where it reports a cycle, either aliases go round, or a list, an option or a tuple was
entered first of all the nodes of the cycle, whatever these are. -/
theorem convert_ok_iff_convertible {g : Graph} {c : Converter} (clean : c.Clean g)
    (direction : Direction) (ref : TypeRef) :
    ((∃ t, (c.convert g direction ref).2.2 = .ok t) ↔
      Convertible g direction (c.side direction).cache.keys ref) ∧
    ∀ chain, (c.convert g direction ref).2.2 = .error (.typeCycle chain) →
      (∃ ref', g.Meets (g.order (c.side direction).cache.keys ref) ref ref' ∧
        g.resolveAlias ref' = .error (.typeCycle chain)) ∨
      ∃ w path, chain = w :: (path ++ [w]) ∧
        g.WrapperFirst (g.order (c.side direction).cache.keys ref) w path ∧
        ∀ v ∈ path, ∃ node, g.types[v]? = some node ∧
          (node.kind.isWrapper = true ∨ node.kind.isAggregate = true) := by
  have hb := clean.settled.idle direction
  rw [Converter.convert_result]
  refine ⟨⟨fun ⟨t, ok⟩ => convertible_of_ok hb ok, ok_of_convertible hb⟩, fun chain error => ?_⟩
  · rcases blame_of_error hb error with hdangling | ⟨id, node, notices, _, _, hr⟩ |
      ⟨w, path, hchain, hfirst⟩
    · exact .inl hdangling
    · exact (recipe_refuse_ne_cycle hr chain rfl).elim
    · refine .inr ⟨w, path, Error.typeCycle.inj hchain, hfirst, fun v hv => ?_⟩
      exact kinds_of_cycle hfirst.cycle v (List.mem_cons_of_mem _ hv)

/-- A forest is not converted from its list, though its cycle passes a record. -/
theorem forest_fails_from_list :
    (Converter.empty.convert forest .output (.node 0)).2.2 = .error (.typeCycle [0, 1, 0]) ∧
      (∃ node, forest.types[1]? = some node ∧ node.kind.isAggregate = true) ∧
      (Converter.empty.convert forest .output (.node 1)).2.2 = .ok (.aggregate .output 0) := by
  simp only [Converter.convert, convert_eq_evaluated]
  exact ⟨rfl, ⟨_, rfl, rfl⟩, rfl⟩

theorem forest_not_convertible :
    Converter.empty.Clean forest ∧ ¬ Convertible forest .output [] (.node 0) := by
  refine ⟨Converter.clean_empty forest, fun h => ?_⟩
  obtain ⟨t, ok⟩ := (convert_ok_iff_convertible (Converter.clean_empty forest) .output
    (.node 0)).1.mpr h
  have hfails : (Converter.empty.convert forest .output (.node 0)).2.2 =
      .error (.typeCycle [0, 1, 0]) := by
    simp only [Converter.convert, convert_eq_evaluated]
    rfl
  rw [hfails] at ok
  cases ok

end WitSchema.Conversion

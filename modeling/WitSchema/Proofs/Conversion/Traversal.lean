import WitSchema.Proofs.Conversion.Order
import WitSchema.Proofs.Conversion.Run

/-! Conversion as a depth-first walk. A conversion that succeeds enters the new
nodes in the order of the walk. One that fails does so at a reference that
denotes nothing, at a node that is refused, or at one that is met again before
it is complete. -/

namespace WitSchema.Conversion

open GraphQL Wit Wit.Graph

def Seen (s : Side) (seen : List Nat) : Prop :=
  ∀ id, id ∈ seen ↔ (s.cached? id).isSome = true ∨ id ∈ s.building

def Late (g : Graph) (direction : Direction) (id : Nat) : Prop :=
  ∃ node, g.types[id]? = some node ∧ (recipe direction id node).isRefusal = false ∧
    (recipe direction id node).isAggregate = false

def Placed (g : Graph) (direction : Direction) (s : Side) : Prop :=
  ∀ id ∈ s.building, s.cached? id = none → Late g direction id

def Closed (g : Graph) (direction : Direction) (new : List Nat) (s : Side) : Prop :=
  ∀ id ∈ new, ∃ node, g.types[id]? = some node ∧ (recipe direction id node).isRefusal = false ∧
    ∀ ref ∈ g.members id, (s.look? g ref).isSome = true

structure Entered (g : Graph) (direction : Direction) (seen new : List Nat) (s : Side) : Prop where
  seen : Seen s (seen ++ new)
  closed : Closed g direction new s
  forward : ∀ w path, ¬ g.WrapperFirst new w path

/-- Why conversion fails, in terms of the graph and of the nodes entered so far. -/
inductive Blame (g : Graph) (direction : Direction) (building new : List Nat)
    (refs : List TypeRef) : Error → Prop
  | reference {ref e} (met : ref ∈ refs ∨ ∃ id ∈ new, ref ∈ g.members id)
      (dangling : g.resolveAlias ref = .error e) : Blame g direction building new refs e
  | refusal {id node notices e} (met : id ∈ new) (found : g.types[id]? = some node)
      (refused : recipe direction id node = .refuse notices e) :
      Blame g direction building new refs e
  | reentry {w stack} (entered : stack.Sublist new) (busy : w ∈ building ++ stack)
      (path : (stack ++ [w]).IsChain g.Edge)
      (start : ∃ ref ∈ refs, g.resolveAlias ref = .ok (stack ++ [w]).head?)
      (late : Late g direction w) :
      Blame g direction building new refs
        (.typeCycle ((building ++ stack).dropWhile (· != w) ++ [w]))

section Entered

variable {g : Graph} {direction : Direction} {s s' : Side} {seen new new' : List Nat}

theorem Seen.of_cached (h : Seen s seen) (hc : ∀ id, s'.cached? id = s.cached? id)
    (hb : s'.building = s.building) : Seen s' seen := by
  intro id
  rw [hc, hb]
  exact h id

theorem Tidy.cached? {n : Nat} (h : Tidy n s s') (id : Nat) : s'.cached? id = s.cached? id := by
  rw [Side.cached?, h.cache]
  rfl

theorem Seen.tidy {n : Nat} (h : Seen s seen) (ht : Tidy n s s') : Seen s' seen :=
  h.of_cached ht.cached? ht.building

theorem Placed.of_kept (h : Placed g direction s) (hb : s'.building = s.building)
    (hk : ∀ id ∈ s.building, s'.cached? id = s.cached? id) : Placed g direction s' := by
  intro id hid hc
  rw [hb] at hid
  exact h id hid (hk id hid ▸ hc)

theorem Closed.mono (h : Closed g direction new s)
    (he : s.cache.entries <+: s'.cache.entries) : Closed g direction new s' := by
  intro id hid
  obtain ⟨node, found, hr, hl⟩ := h id hid
  exact ⟨node, found, hr, fun ref href => isSome_look?_of_isPrefix he (hl ref href)⟩

theorem isSome_cached_of_look {ref : TypeRef} {id : Nat}
    (hr : g.resolveAlias ref = .ok (some id)) (hl : (s.look? g ref).isSome = true) :
    (s.cached? id).isSome = true := by
  obtain ⟨index, rfl, hd⟩ := resolveAlias_eq_some.mp hr
  simpa [Side.look?, hd] using hl

theorem Closed.edge (h : Closed g direction new s) {a b : Nat} (ha : a ∈ new)
    (hab : g.Edge a b) : (s.cached? b).isSome = true := by
  obtain ⟨ref, href, hr⟩ := hab
  obtain ⟨_, _, _, hl⟩ := h a ha
  exact isSome_cached_of_look hr (hl ref href)

theorem entered_nil (h : Seen s seen) : Entered g direction seen [] s :=
  { seen := by rwa [List.append_nil]
    closed := fun _ hid => by cases hid
    forward := fun w path hw => by
      obtain ⟨before, after, hsplit, _⟩ := hw.first
      simp at hsplit }

theorem path_subset_of_closed {a : Nat} {path : List Nat} {b : Nat}
    (closed : ∀ x ∈ new, ∀ y, g.Edge x y → y ∈ seen ++ new)
    (apart : Apart seen (new ++ new')) (ha : a ∈ new)
    (hpath : path ⊆ new ++ new') (cycle : (a :: (path ++ [b])).IsChain g.Edge) : path ⊆ new := by
  induction path generalizing a with
  | nil => exact List.nil_subset _
  | cons c path ih =>
    obtain ⟨hac, hrest⟩ := List.isChain_cons_cons.mp cycle
    have hc : c ∈ new := by
      have hnew := closed a ha c hac
      have hunseen := apart.unseen c (hpath (List.mem_cons_self ..))
      exact (List.mem_append.mp hnew).resolve_left hunseen
    refine List.cons_subset.mpr ⟨hc, ih hc (fun x hx => hpath (List.mem_cons_of_mem _ hx)) hrest⟩

theorem Entered.append (h : Entered g direction seen new s)
    (h' : Entered g direction (seen ++ new) new' s')
    (he : s.cache.entries <+: s'.cache.entries) (apart : Apart seen (new ++ new')) :
    Entered g direction seen (new ++ new') s' := by
  have hclosed : ∀ x ∈ new, ∀ y, g.Edge x y → y ∈ seen ++ new :=
    fun x hx y hxy => (h.seen y).mpr (.inl (h.closed.edge hx hxy))
  refine ⟨?_, ?_, fun w path hw => ?_⟩
  · have hseen := h'.seen
    rwa [List.append_assoc] at hseen
  · intro id hid
    rcases List.mem_append.mp hid with hid | hid
    · exact h.closed.mono he id hid
    · exact h'.closed id hid
  · obtain ⟨before, after, hsplit, hpath⟩ := hw.first
    rcases List.append_eq_append_iff.mp hsplit with ⟨between, rfl, hnew'⟩ | ⟨rest, rfl, hrest⟩
    · exact h'.forward w path { hw with first := ⟨between, after, hnew', hpath⟩ }
    · cases rest with
      | nil => exact h'.forward w path { hw with first := ⟨[], after, hrest.symm, hpath⟩ }
      | cons a rest =>
        rw [List.cons_append, List.cons.injEq] at hrest
        obtain ⟨rfl, rfl⟩ := hrest
        -- the cycle stays in the nodes that are complete before the later ones are met
        have hsub : path ⊆ before ++ w :: rest := by
          refine path_subset_of_closed hclosed apart (by simp) (fun x hx => ?_) hw.cycle
          have hx' := List.mem_append.mp (hpath hx)
          rw [List.mem_append]
          exact hx'.imp_left fun h => List.mem_append_right _ (List.mem_cons_of_mem _ h)
        refine h.forward w path { hw with first := ⟨before, rest, rfl, fun x hx => ?_⟩ }
        rcases List.mem_append.mp (hpath hx) with hx' | hx'
        · exact hx'
        · exact ((List.disjoint_of_nodup_append apart.nodup) (hsub hx) hx').elim

theorem cached_of_isChain {a b : Nat} {path : List Nat}
    (h : ∀ x ∈ a :: path, ∀ y, g.Edge x y → (s.cached? y).isSome = true)
    (chain : (a :: (path ++ [b])).IsChain g.Edge) : (s.cached? b).isSome = true := by
  induction path generalizing a with
  | nil => exact h a (List.mem_cons_self ..) b (List.isChain_cons_cons.mp chain).1
  | cons c path ih =>
    exact ih (fun x hx => h x (List.mem_cons_of_mem _ hx)) (List.isChain_cons_cons.mp chain).2

theorem forward_cons {id : Nat} (h : Entered g direction (seen ++ [id]) new s)
    (hl : ∀ ref ∈ g.members id, (s.look? g ref).isSome = true)
    (hc : (∃ node, g.types[id]? = some node ∧ node.kind.isWrapper = true) →
      s.cached? id = none) (w : Nat) (path : List Nat) : ¬ g.WrapperFirst (id :: new) w path := by
  intro hw
  obtain ⟨before, after, hsplit, hpath⟩ := hw.first
  cases before with
  | nil =>
    rw [List.nil_append, List.cons.injEq] at hsplit
    obtain ⟨rfl, rfl⟩ := hsplit
    have hcached : (s.cached? id).isSome = true := by
      refine cached_of_isChain (fun x hx y hxy => ?_) hw.cycle
      rcases List.mem_cons.mp hx with rfl | hx
      · obtain ⟨ref, href, hr⟩ := hxy
        exact isSome_cached_of_look hr (hl ref href)
      · exact h.closed.edge (hpath hx) hxy
    rw [hc hw.wrapper] at hcached
    cases hcached
  | cons a before =>
    rw [List.cons_append, List.cons.injEq] at hsplit
    exact h.forward w path { hw with first := ⟨before, after, hsplit.2, hpath⟩ }

end Entered

/-- How a conversion of references compares with a walk over them: on success the walk meets the
nodes that were entered, on failure it meets the ones to blame and maybe more. -/
def Follows (g : Graph) (direction : Direction) (depth : Nat) (s : Side) (seen : List Nat)
    (refs : List TypeRef) (s' : Side) : Option Error → Prop
  | none => ∃ new, refs.foldl (g.visit depth) seen = seen ++ new ∧ Entered g direction seen new s'
  | some e => ∃ new rest, refs.foldl (g.visit depth) seen = seen ++ (new ++ rest) ∧
      Blame g direction s.building new refs e

def FollowsVisit (g : Graph) (direction : Direction) (s : Side) (ref : TypeRef)
    (res : Side × Except Error Ty) : Prop :=
  ∀ depth seen, Seen s seen → Placed g direction s → (g.unseen seen).length ≤ depth →
    Follows g direction depth s seen [ref] res.1 (errorOf res.2)

section Follows

variable {g : Graph} {direction : Direction} {depth : Nat} {s s' : Side} {seen : List Nat}

theorem Blame.mono {building new new' : List Nat} {refs refs' : List TypeRef} {e : Error}
    (h : Blame g direction building new refs e) (hnew : new.Sublist new') (hrefs : refs ⊆ refs') :
    Blame g direction building new' refs' e := by
  cases h with
  | reference met dangling =>
    refine .reference (met.imp (fun h => hrefs h) fun ⟨id, hid, href⟩ => ?_) dangling
    exact ⟨id, hnew.subset hid, href⟩
  | refusal met found refused => exact .refusal (hnew.subset met) found refused
  | reentry entered busy path start late =>
    obtain ⟨ref, href, hr⟩ := start
    exact .reentry (entered.trans hnew) busy path ⟨ref, hrefs href, hr⟩ late

theorem foldl_visit_apart (refs : List TypeRef) (seen : List Nat) :
    ∃ new, refs.foldl (g.visit depth) seen = seen ++ new ∧ Apart seen new :=
  foldl_apart (visit_apart g depth) refs seen

theorem foldl_visit_eq {refs : List TypeRef} {new : List Nat}
    (h : refs.foldl (g.visit depth) seen = seen ++ new) : Apart seen new := by
  obtain ⟨new', hnew', apart⟩ := @foldl_visit_apart g depth refs seen
  rwa [List.append_cancel_left (h.symm.trans hnew')]

theorem foldl_visit_cons {ref : TypeRef} {met : List Nat} (rest : List TypeRef)
    (h : [ref].foldl (g.visit depth) seen = met) :
    (ref :: rest).foldl (g.visit depth) seen = rest.foldl (g.visit depth) met := by
  rw [← h]
  rfl

theorem Pass.follows {b : List Nat}
    (ih : ∀ s ref, s.building = b → FollowsVisit g direction s ref (s.convert g direction ref))
    {n : Nat} {refs : List TypeRef} {e : Option Error}
    (h : Pass (Side.convert g direction) n s refs s' e) (hb : s.building = b)
    (hseen : Seen s seen) (placed : Placed g direction s)
    (hdepth : (g.unseen seen).length ≤ depth) :
    Follows g direction depth s seen refs s' e := by
  induction h generalizing seen with
  | done tidy =>
    exact ⟨[], (List.append_nil seen).symm, entered_nil (hseen.tidy tidy)⟩
  | @next s s₁ s₂ s' ref t rest e tidy call tail rec =>
    have hplaced₁ := placed.of_kept tidy.building fun id _ => tidy.cached? id
    have hcall := ih s₁ ref (tidy.building.trans hb) depth seen (hseen.tidy tidy) hplaced₁ hdepth
    have hext := convert_extends g direction s₁ ref
    rw [call] at hcall hext
    obtain ⟨new, hnew, hentered⟩ := hcall
    have hb₂ := hext.building.trans tidy.building
    have hrest := rec (hb₂.trans hb) hentered.seen (hplaced₁.of_kept hext.building hext.kept)
      (Nat.le_trans (length_unseen_append g seen new) hdepth)
    have hgrows := tail.grows (fun s ref _ => convert_extends g direction s ref) rfl
    have hfold := foldl_visit_cons rest hnew
    cases e with
    | none =>
      obtain ⟨new', hnew', hentered'⟩ := hrest
      have hsplit := hfold.trans hnew'
      rw [List.append_assoc] at hsplit
      have apart := foldl_visit_eq hsplit
      exact ⟨new ++ new', hsplit, hentered.append hentered' hgrows.entries apart⟩
    | some e =>
      obtain ⟨new', others, hnew', hblame⟩ := hrest
      rw [hb₂] at hblame
      refine ⟨new ++ new', others, by rw [hfold, hnew']; simp, ?_⟩
      exact hblame.mono (List.sublist_append_right ..) (List.subset_cons_self ..)
  | @stop s s₁ s₂ ref rest e tidy call =>
    have hplaced₁ := placed.of_kept tidy.building fun id _ => tidy.cached? id
    have hcall := ih s₁ ref (tidy.building.trans hb) depth seen (hseen.tidy tidy) hplaced₁ hdepth
    rw [call] at hcall
    obtain ⟨new, others, hnew, hblame⟩ := hcall
    rw [tidy.building] at hblame
    obtain ⟨later, hlater, _⟩ := @foldl_visit_apart g depth rest (seen ++ (new ++ others))
    refine ⟨new, others ++ later, ?_, hblame.mono (List.Sublist.refl new) (by simp)⟩
    rw [foldl_visit_cons rest hnew, hlater]
    simp

variable {index : Int} {id : Nat} {node : TypeDef}

theorem Seen.begun (h : Seen s seen) : Seen (begun direction s id node) (seen ++ [id]) := by
  intro a
  rw [begun_building, List.mem_append, List.mem_append, List.mem_singleton]
  by_cases ha : a = id
  · simp [ha]
  · have hc : (Conversion.begun direction s id node).cached? a = s.cached? a :=
      Recipe.cached?_begin_of_ne ha ..
    rw [hc, h a]
    simp [ha]

theorem Placed.begun (h : Placed g direction s) (found : g.types[id]? = some node)
    (hr : (recipe direction id node).isRefusal = false) :
    Placed g direction (begun direction s id node) := by
  intro a ha hc
  rw [begun_building, List.mem_append, List.mem_singleton] at ha
  by_cases heq : a = id
  · subst heq
    refine ⟨node, found, hr, ?_⟩
    rw [Conversion.begun, Recipe.cached?_begin] at hc
    by_contra hagg
    rw [if_pos (by simpa using hagg)] at hc
    cases hc
  · rw [Conversion.begun, Recipe.cached?_begin_of_ne heq] at hc
    exact h a (ha.resolve_right heq) hc

theorem isAggregate_of_isWrapper (h : node.kind.isWrapper = true) :
    (recipe direction id node).isAggregate = false := by
  unfold recipe
  cases hk : node.kind <;> simp [hk, Kind.isWrapper] at h ⊢ <;> rfl

theorem Blame.outer {building new : List Nat} {e : Error}
    (h : Blame g direction (building ++ [id]) new (g.members id) e)
    (hd : g.denoted index = .ok id) :
    Blame g direction building (id :: new) [.node index] e := by
  cases h with
  | reference met dangling =>
    refine .reference (.inr ?_) dangling
    rcases met with href | ⟨a, ha, href⟩
    · exact ⟨id, List.mem_cons_self .., href⟩
    · exact ⟨a, List.mem_cons_of_mem _ ha, href⟩
  | refusal met found refused => exact .refusal (List.mem_cons_of_mem _ met) found refused
  | @reentry w stack entered busy path start late =>
    rw [List.append_assoc, List.singleton_append] at busy ⊢
    obtain ⟨ref, href, hr⟩ := start
    refine .reentry (entered.cons_cons id) busy ?_ ?_ late
    · refine path.cons fun y hy => ?_
      rw [hy] at hr
      exact ⟨ref, href, hr⟩
    · exact ⟨_, List.mem_singleton_self _, resolveAlias_eq_some.mpr ⟨index, rfl, hd⟩⟩

theorem Starts.entered {new : List Nat} {t : Ty} (start : Starts g s index id node)
    (hr : (recipe direction id node).isRefusal = false)
    (hres : constructed g direction s id node = (s', .ok t))
    (h : Entered g direction (seen ++ [id]) new s')
    (hl : ∀ ref ∈ g.members id, (s'.look? g ref).isSome = true) :
    Entered g direction seen (id :: new) (s'.leave.put id t) := by
  have hentries := start.entries_finish hres
  have hbuilding : s'.building = s.building ++ [id] := by
    rw [← @constructed_building g direction s id node, hres]
  have hleft : (s'.leave.put id t).building = s.building := leave_constructed hres
  constructor
  · intro a
    rw [List.append_cons, h.seen a, hbuilding, hleft, List.mem_append, List.mem_singleton]
    by_cases ha : a = id
    · subst ha
      simp [cached?_put_self]
    · have hc : (s'.leave.put id t).cached? a = s'.cached? a := cached?_put_of_ne ha ..
      simp [ha, hc]
  · intro a ha
    rcases List.mem_cons.mp ha with rfl | ha
    · exact ⟨node, start.found, hr, fun ref href => isSome_look?_of_isPrefix hentries (hl ref href)⟩
    · exact h.closed.mono hentries a ha
  · refine forward_cons h hl fun ⟨node', found, hw⟩ => ?_
    cases start.found.symm.trans found
    exact start.uncached_constructed (isAggregate_of_isWrapper hw) hres

theorem Starts.follows (start : Starts g s index id node)
    (ih : ∀ s' ref, s'.building = s.building ++ [id] →
      FollowsVisit g direction s' ref (s'.convert g direction ref)) :
    FollowsVisit g direction s (.node index) (finish id (constructed g direction s id node)) := by
  intro depth seen hseen placed hdepth
  have hlt := denoted_lt start.denoted
  have hid : id ∉ seen := by
    rw [hseen id, start.uncached]
    simpa using start.idle
  have hless := length_unseen_concat hlt hid
  have hresolve : g.resolveAlias (.node index) = .ok (some id) :=
    resolveAlias_eq_some.mpr ⟨index, rfl, start.denoted⟩
  obtain ⟨depth, rfl⟩ : ∃ d, depth = d + 1 := ⟨depth - 1, by omega⟩
  have hvisit : [TypeRef.node index].foldl (g.visit (depth + 1)) seen =
      (g.members id).foldl (g.visit depth) (seen ++ [id]) := visit_of_not_mem hresolve hid
  by_cases hr : (recipe direction id node).isRefusal = false
  · have hpass := @constructed_pass g direction s id node hr
    rw [← members_eq start.found] at hpass
    have hinner := hpass.follows ih (begun_building direction s id node) hseen.begun
      (placed.begun start.found hr) (Nat.le_of_lt_succ (Nat.lt_of_lt_of_le hless hdepth))
    rcases hres : constructed g direction s id node with ⟨s', e | t⟩
    · rw [hres] at hinner
      obtain ⟨new, rest, hnew, hblame⟩ := hinner
      rw [begun_building] at hblame
      refine ⟨id :: new, rest, ?_, hblame.outer start.denoted⟩
      rw [hvisit, hnew]
      simp
    · rw [hres] at hinner hpass
      obtain ⟨new, hnew, hentered⟩ := hinner
      refine ⟨id :: new, ?_, start.entered hr hres hentered hpass.looked⟩
      rw [hvisit, hnew]
      simp
  · cases hrec : recipe direction id node with
    | refuse notices e =>
      obtain ⟨later, hlater, _⟩ := @foldl_visit_apart g depth (g.members id) (seen ++ [id])
      have hblame : Blame g direction s.building [id] [.node index] e :=
        .refusal (List.mem_singleton_self id) start.found hrec
      have hres : errorOf (finish id (constructed g direction s id node)).2 = some e := by
        rw [constructed, hrec]
        rfl
      rw [hres]
      exact ⟨[id], later, by rw [hvisit, hlater]; simp, hblame⟩
    | _ => simp [hrec, Recipe.isRefusal] at hr

end Follows

/-- Conversion meets the nodes that the walk meets, in the same order. -/
theorem convert_follows (g : Graph) (direction : Direction) (s : Side) (ref : TypeRef) :
    FollowsVisit g direction s ref (s.convert g direction ref) := by
  refine convert_induction (P := FollowsVisit g direction) ?_ ?_ ?_ ?_ ?_ s ref
  · intro s p depth seen hseen _ _
    have hvisit : g.visit depth seen (.primitive p) = seen := visit_of_none fun id h => by cases h
    exact ⟨[], by simpa using hvisit, entered_nil hseen⟩
  · intro s index e hd depth seen hseen _ _
    have hresolve : g.resolveAlias (.node index) = .error e :=
      resolveAlias_eq_error.mpr ⟨index, rfl, hd⟩
    have hvisit : g.visit depth seen (.node index) = seen :=
      visit_of_none fun id h => by rw [hresolve] at h; cases h
    exact ⟨[], [], by simpa using hvisit, .reference (.inl (List.mem_singleton_self _)) hresolve⟩
  · intro s index id t hd hc depth seen hseen _ _
    have hresolve : g.resolveAlias (.node index) = .ok (some id) :=
      resolveAlias_eq_some.mpr ⟨index, rfl, hd⟩
    have hid : id ∈ seen := (hseen id).mpr (.inl (by simp [hc]))
    exact ⟨[], by simpa using visit_of_mem hresolve hid, entered_nil hseen⟩
  · intro s index id hd hc hb depth seen hseen placed _
    have hresolve : g.resolveAlias (.node index) = .ok (some id) :=
      resolveAlias_eq_some.mpr ⟨index, rfl, hd⟩
    have hid : id ∈ seen := (hseen id).mpr (.inr hb)
    have hblame := @Blame.reentry g direction s.building [] [.node index] id []
      (List.Sublist.refl _) (by simpa using hb) (List.isChain_singleton id)
      ⟨_, List.mem_singleton_self _, hresolve⟩ (placed id hb hc)
    rw [List.append_nil] at hblame
    exact ⟨[], [], by simpa using visit_of_mem hresolve hid, hblame⟩
  · exact fun s index id node start ih => start.follows ih

end WitSchema.Conversion

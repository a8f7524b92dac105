import WitSchema.Proofs.Conversion.Independence
import WitSchema.Proofs.Conversion.Simulation

/-! What a call leaves as it was. A conversion adds to the side of its own
direction, changes nothing that is there, and does not touch the other side.
The calls in one direction can therefore be left out of a run without a trace
in the other. Their types unfold to the same trees too, since the types of a
direction lead to aggregates of that direction only. -/

namespace WitSchema

namespace GraphQL

def Ty.toward (direction : Direction) : Ty → Ty
  | .scalar x => .scalar x
  | .list _ serial item => .list direction serial (item.toward direction)
  | .aggregate _ index => .aggregate direction index
  | .nonNull inner => .nonNull (inner.toward direction)

def Member.toward (direction : Direction) (m : Member) : Member :=
  ⟨m.type.toward direction, m.description⟩

def Aggregate.toward (direction : Direction) (a : Aggregate) : Aggregate :=
  ⟨direction, a.name, a.description, a.fields.map fun f => (f.1, f.2.toward direction)⟩

end GraphQL

namespace Conversion

open GraphQL Wit

def Side.toward (direction : Direction) (s : Side) : Side :=
  { s with
    cache := ⟨s.cache.entries.map fun e => (e.1, e.2.toward direction)⟩
    aggregates := s.aggregates.map (·.toward direction) }

section Toward

variable {direction : Direction}

theorem cached?_toward (s : Side) (id : Nat) :
    (s.toward direction).cached? id = (s.cached? id).map (Ty.toward direction) :=
  lookup_map_values (Ty.toward direction) id s.cache.entries

theorem toward_put (s : Side) (id : Nat) (t : Ty) :
    (s.put id t).toward direction = (s.toward direction).put id (t.toward direction) := by
  simp only [Side.put, Side.toward, Cache.put, map_insertPair]

theorem toward_addField (s : Side) (index : Nat) (name : String) (t : Ty) (docs : Json) :
    (s.addField index name ⟨t, docs⟩).toward direction =
      (s.toward direction).addField index name ⟨t.toward direction, docs⟩ := by
  have hmodify : ((s.aggregates.modify index fun a =>
        { a with fields := insertPair name ⟨t, docs⟩ a.fields }).map (·.toward direction)) =
      (s.aggregates.map (·.toward direction)).modify index fun a =>
        { a with fields := insertPair name ⟨t.toward direction, docs⟩ a.fields } := by
    apply List.ext_getElem?
    intro i
    simp only [List.getElem?_map, List.getElem?_modify]
    by_cases hi : index = i
    · cases s.aggregates[i]? with
      | none => rfl
      | some a =>
        have hinsert := map_insertPair (Member.toward direction) name ⟨t, docs⟩ a.fields
        simp only [hi, if_true, Option.map_eq_map, Option.map_some, Aggregate.toward, hinsert]
        rfl
    · simp [hi]
  simp only [Side.addField, Side.toward, hmodify]

theorem toward_begin (s : Side) (id : Nat) (r : Recipe) :
    (r.begin direction id s).toward direction = r.begin direction id (s.toward direction) := by
  cases r with
  | aggregate notices name docs slots =>
    simp only [Recipe.begin, toward_put]
    simp [Side.toward, Side.allocate, Side.report, Aggregate.toward, Ty.toward]
  | _ => rfl

theorem toward_simulation (g : Graph) (direction : Direction) :
    Simulation g direction direction (Ty.toward direction)
      (fun s s' => s' = s.toward direction) where
  scalar _ := rfl
  aggregate _ := rfl
  cached id h := h ▸ cached?_toward _ id
  busy _ h _ := by rw [h, Side.toward]
  chain _ h _ _ := by rw [h, Side.toward]
  size h := by simp [h, Side.toward]
  enter _ _ h := by rw [h]; rfl
  leave h _ := by rw [h]; rfl
  report _ h := by rw [h]; rfl
  put id t h := h ▸ (toward_put _ id t).symm
  addField index name t docs h := h ▸ (toward_addField _ index name t docs).symm
  newList t h := by
    subst h
    exact ⟨rfl, rfl⟩
  alike _ := .refl _
  begin {s s' id node} _ h := h ▸ (toward_begin s id _).symm

def Side.Directed (direction : Direction) (s : Side) : Prop := s.toward direction = s

theorem convert_directed {g : Graph} {s : Side} (h : s.Directed direction) (ref : TypeRef) :
    (s.convert g direction ref).1.Directed direction ∧
      ∀ t, (s.convert g direction ref).2 = .ok t → t.toward direction = t := by
  obtain ⟨hstate, houtcome⟩ := (toward_simulation g direction).convert_inStep ref h.symm
  refine ⟨hstate.symm, ?_⟩
  intro t ht
  rw [ht] at houtcome
  exact (Except.ok.inj houtcome).symm

theorem Side.Directed.member {s : Side} (h : s.Directed direction) {index : Nat} {a : Aggregate}
    (found : s.aggregates[index]? = some a) {m : String × Member} (field : m ∈ a.fields) :
    m.2.type.toward direction = m.2.type := by
  have haggregates : s.aggregates.map (·.toward direction) = s.aggregates :=
    congrArg Side.aggregates h
  have ha : a.toward direction = a := by
    have hget := congrArg (·[index]?) haggregates
    simpa [found] using hget
  have hfields : a.fields.map (fun f => (f.1, f.2.toward direction)) = a.fields :=
    congrArg Aggregate.fields ha
  obtain ⟨i, hi⟩ := List.mem_iff_getElem?.mp field
  have hsame := congrArg (·[i]?) hfields
  simp only [List.getElem?_map, hi, Option.map_some, Option.some.injEq] at hsame
  exact congrArg (·.2.type) hsame

theorem unfold_of_directed {store store' : Store} {s : Side} (h : s.Directed direction)
    (holds : Holds store direction s) (holds' : Holds store' direction s) (depth : Nat) {t : Ty}
    (directed : t.toward direction = t) : unfold store depth t = unfold store' depth t := by
  induction depth generalizing t with
  | zero => rfl
  | succ depth ih =>
    cases t with
    | scalar x => rfl
    | list d serial item =>
      simp only [Ty.toward, Ty.list.injEq] at directed
      exact congrArg Tree.list (ih directed.2.2)
    | nonNull inner =>
      simp only [Ty.toward, Ty.nonNull.injEq] at directed
      exact congrArg Tree.nonNull (ih directed)
    | aggregate d index =>
      simp only [Ty.toward, Ty.aggregate.injEq] at directed
      obtain ⟨rfl, -⟩ := directed
      simp only [unfold, holds index, holds' index]
      cases ha : s.aggregates[index]? with
      | none => rfl
      | some a =>
        have hfields : a.fields.map (fun f => (f.1, unfold store depth f.2.type, f.2.description)) =
            a.fields.map fun f => (f.1, unfold store' depth f.2.type, f.2.description) := by
          apply List.map_congr_left
          intro m hm
          rw [ih (h.member ha hm)]
        simp only [hfields]

end Toward

structure Undisturbed (s s' : Side) : Prop where
  entries : ∀ id t, s.cached? id = some t → s'.cached? id = some t
  order : s.cache.keys <+: s'.cache.keys
  aggregates : ∀ (index : Nat) (a : Aggregate), s.aggregates[index]? = some a →
    s'.aggregates[index]? = some a
  stack : s'.building = s.building

theorem Extends.undisturbed {s s' : Side} (h : Extends s s') : Undisturbed s s' where
  entries _ _ hc := h.cached hc
  order := h.entries.map _
  aggregates _ _ ha := h.aggregate ha
  stack := h.building

theorem Undisturbed.refl (s : Side) : Undisturbed s s := (Extends.refl s).undisturbed

namespace Converter

section Calls

variable {g : Graph} {c c' : Converter} {direction : Direction}

theorem convert_undisturbed (g : Graph) (c : Converter) (direction : Direction) (ref : TypeRef)
    (other : Direction) :
    Undisturbed (c.side other) ((c.convert g direction ref).1.side other) := by
  by_cases h : other = direction
  · subst h
    rw [convert_side]
    obtain ⟨hentries, horder, haggregates, hstack⟩ :=
      (convert_extends g other (c.side other) ref).undisturbed
    exact ⟨hentries, horder, haggregates, hstack⟩
  · rw [convert_side_of_ne h]
    exact .refl _

def resultsIn (direction : Direction) (calls : List (Direction × TypeRef))
    (results : List (Except Error Ty)) : List (Except Error Ty) :=
  ((calls.zip results).filter (·.1.1 = direction)).map (·.2)

theorem run_filter (calls : List (Direction × TypeRef))
    (same : c'.side direction = c.side direction) :
    (c'.run g (calls.filter (·.1 = direction))).1.side direction =
        (c.run g calls).1.side direction ∧
      (c'.run g (calls.filter (·.1 = direction))).2 =
        resultsIn direction calls (c.run g calls).2 := by
  induction calls generalizing c c' with
  | nil => exact ⟨same, rfl⟩
  | cons call rest ih =>
    obtain ⟨d, ref⟩ := call
    by_cases hd : d = direction
    · subst hd
      have hside : (c'.convert g d ref).1.side d = (c.convert g d ref).1.side d := by
        rw [convert_side, convert_side, same]
      obtain ⟨hrest, hresults⟩ := ih hside
      simp only [List.filter_cons, decide_true, if_true, run]
      refine ⟨hrest, ?_⟩
      rw [hresults, convert_result, same, ← convert_result g c d ref]
      simp [resultsIn]
    · have hside : c'.side direction = (c.convert g d ref).1.side direction := by
        rw [same, convert_side_of_ne (Ne.symm hd)]
      obtain ⟨hrest, hresults⟩ := ih hside
      simp only [List.filter_cons, hd, decide_false, Bool.false_eq_true, if_false, run]
      refine ⟨hrest, ?_⟩
      rw [hresults]
      simp [resultsIn, hd]

theorem run_directed (h : ∀ d, (c.side d).Directed d) (calls : List (Direction × TypeRef)) :
    (∀ d, ((c.run g calls).1.side d).Directed d) ∧
      ∀ r ∈ resultsIn direction calls (c.run g calls).2, ∀ t, r = .ok t →
        t.toward direction = t := by
  induction calls generalizing c with
  | nil => exact ⟨h, fun r hr => by cases hr⟩
  | cons call rest ih =>
    obtain ⟨d, ref⟩ := call
    obtain ⟨hstate, hresult⟩ := convert_directed (g := g) (h d) ref
    have hnext : ∀ other, ((c.convert g d ref).1.side other).Directed other := by
      intro other
      by_cases ho : other = d
      · subst ho
        rw [convert_side]
        exact congrArg (fun s : Side => { s with notices := [] }) hstate
      · rw [convert_side_of_ne ho]
        exact h other
    obtain ⟨hrest, hresults⟩ := ih hnext
    refine ⟨hrest, ?_⟩
    intro r hr t ht
    by_cases hd : d = direction
    · subst hd
      simp only [resultsIn, run, List.zip_cons_cons, List.filter_cons, decide_true, if_true,
        List.map_cons, List.mem_cons] at hr
      rcases hr with rfl | hr
      · exact hresult t ht
      · exact hresults r hr t ht
    · simp only [resultsIn, run, List.zip_cons_cons, List.filter_cons, hd, decide_false,
        Bool.false_eq_true, if_false] at hr
      exact hresults r hr t ht

theorem directed_empty (d : Direction) : (empty.side d).Directed d := by
  cases d <;> rfl

end Calls

end Converter

/-- A call, whether it succeeds or fails and whatever the state, leaves every cached type, the
order of the cache and every aggregate with its fields as they were, and does not touch the other
direction at all. The calls of a run in one direction give what they give without the others: the
same types or errors, the same side, and types that unfold to the same trees. -/
theorem calls_undisturbed (g : Graph) :
    (∀ (c : Converter) (direction : Direction) (ref : TypeRef),
      (∀ d, Undisturbed (c.side d) ((c.convert g direction ref).1.side d)) ∧
      ∀ other, other ≠ direction → (c.convert g direction ref).1.side other = c.side other) ∧
    ∀ calls direction,
      let whole := Converter.empty.run g calls
      let alone := Converter.empty.run g (calls.filter (·.1 = direction))
      alone.1.side direction = whole.1.side direction ∧
      alone.2 = Converter.resultsIn direction calls whole.2 ∧
      ∀ t, Except.ok t ∈ alone.2 → ∀ depth,
        unfold alone.1.store depth t = unfold whole.1.store depth t := by
  refine ⟨fun c direction ref => ⟨Converter.convert_undisturbed g c direction ref,
    fun other h => Converter.convert_side_of_ne h g c ref⟩, ?_⟩
  intro calls direction whole alone
  have hfilter : alone.1.side direction = whole.1.side direction ∧
      alone.2 = Converter.resultsIn direction calls whole.2 := Converter.run_filter calls rfl
  obtain ⟨hside, hresults⟩ := hfilter
  have hdirected : ∀ d, (whole.1.side d).Directed d :=
    (@Converter.run_directed g .empty direction Converter.directed_empty calls).1
  have htypes : ∀ r ∈ Converter.resultsIn direction calls whole.2, ∀ t, r = .ok t →
      t.toward direction = t := (Converter.run_directed Converter.directed_empty calls).2
  refine ⟨hside, hresults, ?_⟩
  intro t ht depth
  have hholds : Holds alone.1.store direction (whole.1.side direction) :=
    hside ▸ alone.1.holds_store direction
  exact unfold_of_directed (hdirected direction) hholds (whole.1.holds_store direction) depth
    (htypes _ (hresults ▸ ht) t rfl)

end Conversion

end WitSchema

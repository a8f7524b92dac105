import WitSchema.Proofs.Conversion.Cycle
import WitSchema.Proofs.Conversion.Unfolding

/-! Earlier calls do not show. What a converter has cached is closed under
members, so that nothing stands in the way of a conversion on it that does not
stand in the way of the same conversion on a fresh one, and the two types
unfold to the same tree. -/

namespace WitSchema.Conversion

open GraphQL Wit Wit.Graph

section Known

variable {g : Graph} {direction : Direction} {s : Side}

theorem keys_inside (sound : Sound g direction s) (idle : s.building = []) :
    g.EdgeClosed s.cache.keys := by
  intro a ha b hab
  have hseen := seen_keys idle
  have hcached := ((hseen a).mp ha).resolve_right (idle ▸ List.not_mem_nil)
  obtain ⟨t, hc⟩ := Option.isSome_iff_exists.mp hcached
  obtain ⟨node, found, hdesc⟩ := sound a t hc (idle ▸ List.not_mem_nil)
  have hrefusal : (recipe direction a node).isRefusal = false := by
    cases hr : recipe direction a node with
    | refuse notices e =>
      rw [hr] at hdesc
      exact hdesc.elim
    | _ => rfl
  obtain ⟨ref, href, hresolve⟩ := hab
  rw [members_eq found, ← recipe_refs hrefusal] at href
  exact (hseen b).mpr (.inl (isSome_cached_of_look hresolve (hdesc.looked ref href)))

theorem Convertible.of_fresh {known : List Nat} {ref : TypeRef} (inside : g.EdgeClosed known)
    (h : Convertible g direction [] ref) : Convertible g direction known ref := by
  have hsub : g.order known ref ⊆ g.order [] ref := by
    rw [order_known inside]
    exact List.filter_sublist.subset
  constructor
  · intro ref' met
    refine h.denotes ref' (met.imp_right fun ⟨id, hid, href⟩ => ?_)
    exact ⟨id, hsub hid, href⟩
  · exact fun id hid => h.accepted id (hsub hid)
  · exact fun w path hw => h.forward w path (hw.of_known inside)

end Known

namespace Converter

variable {g : Graph}

theorem holds_store (c : Converter) (direction : Direction) :
    Holds c.store direction (c.side direction) := by
  intro index
  cases direction <;> rfl

theorem Settled.complete {c : Converter} (h : Settled g c) (direction : Direction) :
    Complete g direction (c.side direction) c.store :=
  ⟨h.sound direction, h.idle direction, c.holds_store direction⟩

theorem allGrounded_fresh (g : Graph) (direction : Direction) (ref : TypeRef) :
    AllGrounded g direction ((empty.convert g direction ref).1.side direction) := by
  have hempty : AllGrounded g direction (empty.side direction) := by
    cases direction <;> exact fun id h => by cases h
  rw [convert_side]
  exact convert_allGrounded (empty.side direction) ref hempty

end Converter

/-- A conversion that succeeds on a fresh converter succeeds after any calls that succeeded, and
gives a type that unfolds to the same tree to every depth. -/
theorem convert_independent_of_earlier {g : Graph} {c : Converter} (clean : c.Clean g)
    (direction : Direction) (ref : TypeRef) {t : Ty}
    (fresh : (Converter.empty.convert g direction ref).2.2 = .ok t) :
    ∃ t', (c.convert g direction ref).2.2 = .ok t' ∧
      ∀ depth, unfold (c.convert g direction ref).1.store depth t' =
        unfold (Converter.empty.convert g direction ref).1.store depth t := by
  have hsettled := clean.settled
  have hidle := hsettled.idle direction
  have hconvertible : Convertible g direction [] ref := by
    have hempty := (Converter.settled_empty g).idle direction
    have hfresh := convertible_of_ok hempty fresh
    cases direction <;> exact hfresh
  obtain ⟨t', ok⟩ := ok_of_convertible hidle
    (hconvertible.of_fresh (keys_inside (hsettled.sound direction) hidle))
  refine ⟨t', ok, fun depth => ?_⟩
  obtain ⟨hfinal, hlook⟩ := (Converter.settled_empty g).convert fresh
  obtain ⟨hfinal', hlook'⟩ := hsettled.convert ok
  exact (sameTrees (hfinal.complete direction) (hfinal'.complete direction)
    (Converter.allGrounded_fresh g direction ref) depth ref t t' hlook hlook').symm

theorem forest_independent :
    Converter.Clean forest (Converter.empty.run forest Converter.forestCalls).1 ∧
      (Converter.empty.convert forest .output (.node 1)).2.2 = .ok (.aggregate .output 0) ∧
      ∃ t', ((Converter.empty.run forest Converter.forestCalls).1.convert forest .output
          (.node 1)).2.2 = .ok t' ∧
        ∀ depth, unfold ((Converter.empty.run forest Converter.forestCalls).1.convert forest
            .output (.node 1)).1.store depth t' =
          unfold (Converter.empty.convert forest .output (.node 1)).1.store depth
            (.aggregate .output 0) := by
  have hfresh : (Converter.empty.convert forest .output (.node 1)).2.2 =
      .ok (.aggregate .output 0) := by
    simp only [Converter.convert, convert_eq_evaluated]
    rfl
  exact ⟨Converter.clean_forest, hfresh,
    convert_independent_of_earlier Converter.clean_forest .output (.node 1) hfresh⟩

end WitSchema.Conversion

import WitSchema.Proofs.Binding.Exports
import WitSchema.Proofs.Conversion.Failure
import WitSchema.Proofs.Conversion.Naming
import WitSchema.Proofs.GraphQL.Assembly

/-! What a build is refused for, whatever the graph and the settings are: for a
reason that is announced, or for a name. -/

namespace WitSchema

open GraphQL Wit

inductive Error.IsNaming : Error → Prop
  | notText : IsNaming (.shape .notText)
  | illegal (fault) : IsNaming (.illegalName fault)
  | reserved (name) : IsNaming (.reservedType name)
  | duplicate (name) : IsNaming (.duplicateType name)

def Error.IsKnown (e : Error) : Prop := e.IsDocumented ∨ e.IsNaming

def Error.IsBinding (e : Error) : Prop := e.IsOfGraph ∨ e.IsNaming

theorem Error.IsBinding.isKnown {e : Error} (h : e.IsBinding) : e.IsKnown :=
  h.imp_left Error.IsOfGraph.isDocumented

namespace Conversion

variable {direction : Direction} {id : Nat} {node : TypeDef} {notices : List Notice} {e : Error}

theorem checkTypeName_naming {name : String} (h : checkTypeName name = .error e) : e.IsNaming := by
  unfold checkTypeName at h
  split at h
  · cases h
    exact .reserved name
  · split at h
    · cases h
    · cases h
      exact .illegal _

theorem named_naming {notices' : List Notice} {name : String} {docs : Json} {slots : List Slot}
    (h : Recipe.named notices name docs slots = .refuse notices' e) : e.IsNaming := by
  unfold Recipe.named at h
  cases checked : checkTypeName name with
  | error e' =>
    rw [checked] at h
    cases h
    exact checkTypeName_naming checked
  | ok _ =>
    rw [checked] at h
    cases h

theorem recordRecipe_naming {fields : List Field}
    (h : recordRecipe direction id node fields = .refuse notices e) : e.IsNaming := by
  unfold recordRecipe at h
  split at h
  · rename_i refused
    cases h
    rw [recordParts_error refused]
    exact .notText
  · exact named_naming h

theorem variantRecipe_naming {cases : List Case}
    (h : variantRecipe direction id node cases = .refuse notices e) : e.IsNaming := by
  unfold variantRecipe at h
  split at h
  · rename_i refused
    cases h
    rw [aggregateName_error refused]
    exact .notText
  · rename_i refused
    cases h
    rw [caseSlots_error refused]
    exact .notText
  · exact named_naming h

theorem recipe_binding (h : recipe direction id node = .refuse notices e) : e.IsBinding := by
  unfold recipe at h
  split at h
  case h_3 => exact .inr (recordRecipe_naming h)
  case h_4 => exact .inr (variantRecipe_naming h)
  case h_5 => exact .inr (named_naming h)
  all_goals cases h
  exact .inl (.unsupportedKind _)

theorem raises_binding {g : Graph} {s s' : Side} {ref : TypeRef}
    (h : Raises g direction s ref s' e) : e.IsBinding := by
  induction h with
  | dangling denoted => exact .inl (walk_error denoted)
  | reentry => exact .inl (.typeCycle _)
  | refusal _ refused => exact recipe_binding refused
  | member _ _ _ ih => exact ih

theorem convert_binding {g : Graph} {c : Converter} {ref : TypeRef}
    (h : (c.convert g direction ref).2.2 = .error e) : e.IsBinding := by
  obtain ⟨s', raises⟩ := raises_of_error h
  exact raises_binding raises

end Conversion

namespace Binding

open Conversion

def Step.IsExplained {α : Type} (step : Step α) : Prop := ∀ e, step.result = .error e → e.IsBinding

namespace Step.IsExplained

variable {α : Type} {c : Converter} {notices : List Notice}

theorem ok (a : α) : Step.IsExplained ⟨c, notices, .ok a⟩ := by
  intro e failed
  cases failed

theorem error {e : Error} (cause : e.IsBinding) : @Step.IsExplained α ⟨c, notices, .error e⟩ := by
  intro e' failed
  cases failed
  exact cause

end Step.IsExplained

theorem error_of_bind {ε α β : Type} {x : Except ε α} {f : α → Except ε β} {e : ε}
    (h : x >>= f = .error e) : x = .error e ∨ ∃ a, x = .ok a ∧ f a = .error e := by
  cases x with
  | error e' =>
    cases h
    exact .inl rfl
  | ok a => exact .inr ⟨a, rfl, h⟩

theorem exists_of_mapError {ε ε' α : Type} {f : ε → ε'} {x : Except ε α} {e : ε'}
    (h : x.mapError f = .error e) : ∃ cause, x = .error cause ∧ e = f cause := by
  cases x with
  | error cause =>
    cases h
    exact ⟨cause, rfl, rfl⟩
  | ok a => cases h

theorem exists_of_mapM_error {ε α β : Type} {f : α → Except ε β} {xs : List α} {e : ε}
    (h : xs.mapM f = .error e) : ∃ x ∈ xs, f x = .error e := by
  induction xs with
  | nil => cases h
  | cons x rest ih =>
    rw [List.mapM_cons] at h
    obtain first | ⟨b, -, h⟩ := error_of_bind h
    · exact ⟨x, List.mem_cons_self, first⟩
    obtain later | ⟨bs, -, h⟩ := error_of_bind h
    · obtain ⟨y, there, failed⟩ := ih later
      exact ⟨y, List.mem_cons_of_mem _ there, failed⟩
    · cases h

section Steps

variable {g : Graph} {settings : Settings} {c : Converter} {notices : List Notice} {e : Error}

theorem camelOf_binding {name : Json} (h : camelOf name = .error e) : e.IsBinding := by
  rw [camelOf_error h]
  exact .inr .notText

theorem legalName_binding {name : String} (h : legalName name = .error e) : e.IsBinding := by
  obtain ⟨fault, -, rfl⟩ := exists_of_mapError h
  exact .inr (.illegal fault)

theorem bindParams_explained (nullable : Bool) (fields : List (String × Member))
    (params : List Param) : (bindParams g nullable c notices fields params).IsExplained := by
  induction params generalizing c notices fields with
  | nil => exact .ok fields
  | cons p rest ih =>
    unfold bindParams
    rcases converted : c.convert g .input p.type with ⟨c₁, new, e | t⟩
    · exact .error (convert_binding (congrArg (·.2.2) converted))
    · dsimp only
      cases named : camelOf p.name with
      | error e => exact .error (camelOf_binding named)
      | ok name => exact ih _

theorem bindArgument_explained (exportName : String) (params : List Param) :
    (bindArgument g settings c exportName params).IsExplained := by
  unfold bindArgument
  split
  · exact .ok none
  · have explained := @bindParams_explained g c [] settings.nullableOptions [] params
    dsimp only
    split
    · rename_i e failed
      exact .error (explained e failed)
    · split
      · rename_i refused
        exact .error (.inr (checkTypeName_naming refused))
      · exact .ok _

theorem bindResult_explained (result : Option TypeRef) : (bindResult g c result).IsExplained := by
  cases result with
  | none => exact .ok _
  | some ref => exact fun e failed => convert_binding failed

theorem bindField_binding {exportName : String} {f : Function} {type : Ty}
    {argument : Option (String × Ty)}
    (h : bindField settings exportName f type argument = .error e) : e.IsBinding := by
  obtain refused | ⟨r, -, refused⟩ := error_of_bind h
  · obtain refused | ⟨_, -, refused⟩ := error_of_bind refused
    · obtain ⟨p, -, unnamed⟩ := exists_of_mapM_error refused
      exact camelOf_binding unnamed
    · cases refused
  · obtain refused | ⟨_, -, refused⟩ := error_of_bind refused
    · cases argument with
      | none => cases refused
      | some a => exact legalName_binding refused
    · cases refused

theorem bind_explained (exportName : String) (f : Function) :
    (bind g settings c exportName f).IsExplained := by
  unfold bind
  dsimp only
  split
  · rename_i e failed
    exact .error (bindArgument_explained exportName f.params e failed)
  · split
    · rename_i e failed
      exact .error (bindResult_explained f.result e failed)
    · exact fun e failed => bindField_binding failed

theorem bindExports_explained (world : World) (fields : List (String × QueryField))
    (exports : List (String × WorldItem)) :
    (bindExports g settings world c notices fields exports).IsExplained := by
  induction exports generalizing c notices fields with
  | nil => exact .ok fields
  | cons entry rest ih =>
    unfold bindExports
    split
    · exact ih _
    · rename_i f function
      dsimp only
      split
      · rename_i e failed
        exact .error (bind_explained _ f e failed)
      · exact ih _

end Steps

theorem assemble_binding {queryType : String} {fields : List (String × QueryField)} {store : Store}
    {e : Error} (h : Schema.assemble queryType fields store = .error e) : e.IsBinding := by
  have closed : store.Closed fun _ _ => True := fun _ _ _ _ _ _ _ _ _ _ => trivial
  obtain ⟨f, -, illegal⟩ | ⟨_, _, a, -, -, illegal⟩ | ⟨name, rfl, -⟩ :=
    assemble_error closed (fun _ _ _ _ _ _ _ => trivial) h
  · exact legalName_binding illegal
  · obtain ⟨m, -, illegal⟩ := legalFields_error illegal
    exact legalName_binding illegal
  · exact .inr (.duplicate name)

/-- A build is refused for a reason that is announced, or for a name. -/
theorem createSchema_known {g : Graph} {settings : Settings} {e : Error}
    (h : (createSchema g settings).2 = .error e) : e.IsKnown := by
  have ends := createSchema_ends g settings
  rw [h] at ends
  cases ends with
  | noWorld => exact .inl (.noWorld _)
  | unbound _ refused => exact (bindExports_explained _ _ _ _ refused).isKnown
  | noFunctions => exact .inl (.noFunctions _)
  | misnamed refused => exact .inr (checkTypeName_naming refused)
  | assembled _ _ _ _ same => exact (assemble_binding same).isKnown

end Binding

end WitSchema

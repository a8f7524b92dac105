import WitSchema.Command.Run
import WitSchema.Proofs.Binding.Refusal
import WitSchema.Proofs.Wit.Acceptance

/-! The stages of an invocation: its graph is read, then its functions are found,
its settings read and its schema built. The first stage that fails decides what
becomes of the invocation; where none does, there is a schema or a result to
print. -/

namespace WitSchema.Command

open Binding GraphQL Wit

namespace Invocation

def Loads (i : Invocation) (s : Surroundings) (g : Graph) : Prop :=
  ∃ path, i.graph = some path ∧ loadGraph s path = .ok g

def Equipped (i : Invocation) (s : Surroundings) : Prop :=
  ∀ module document, i.action = .query module document → ∃ table, functionsOf s module = .ok table

structure Builds (i : Invocation) (s : Surroundings) (settings : Settings) (schema : Schema) :
    Prop where
  loaded : ∃ g, i.Loads s g ∧ (createSchema g settings).2 = .ok schema
  equipped : i.Equipped s
  accepted : i.settings s = .ok settings

def Describes (i : Invocation) (s : Surroundings) (text : String) : Prop :=
  i.action = .schema ∧ ∃ settings schema, i.Builds s settings schema ∧ text = schema.sdl

def Responds (i : Invocation) (s : Surroundings) (result : Json) : Prop :=
  ∃ module document table settings schema r, i.action = .query module (some document) ∧
    functionsOf s module = .ok table ∧ i.Builds s settings schema ∧
    result? s table settings schema document = some r ∧ result = r.json

/-- The text that is there to be printed when all stages have passed. -/
def Yields (i : Invocation) (s : Surroundings) (text : String) : Prop :=
  (∃ sdl, i.Describes s sdl ∧ text = sdl ++ "\n") ∨
    ∃ result, i.Responds s result ∧ text = result.pretty ++ "\n"

/-- The first stage that fails does so with this fault. Printing is the last one. -/
inductive Fails (i : Invocation) (s : Surroundings) : Fault → Prop
  | unnamed (unnamed : i.graph = none) : Fails i s .unnamedGraph
  | graph {path fault} (named : i.graph = some path) (unread : loadGraph s path = .error fault) :
      Fails i s fault
  | component {g module document fault} (loaded : i.Loads s g)
      (query : i.action = .query module document) (missing : functionsOf s module = .error fault) :
      Fails i s (.component fault)
  | settings {g fault} (loaded : i.Loads s g) (equipped : i.Equipped s)
      (rejected : i.settings s = .error fault) : Fails i s fault
  | schema {g settings e} (loaded : i.Loads s g) (equipped : i.Equipped s)
      (accepted : i.settings s = .ok settings) (unbuilt : (createSchema g settings).2 = .error e) :
      Fails i s (.graph e)
  | document {settings schema module} (built : i.Builds s settings schema)
      (query : i.action = .query module none) : Fails i s .noDocument
  | depth {settings schema module document} (built : i.Builds s settings schema)
      (query : i.action = .query module (some document))
      (deep : s.frontEnd schema document [] = .tooDeep) : Fails i s .deepDocument
  | output {text reason} (yields : i.Yields s text) (refused : s.unprintable text = some reason) :
      Fails i s (.output reason)

/-- What an invocation is given that leads to a fault that the program does not expect. -/
inductive Provokes (i : Invocation) (s : Surroundings) : Fault → Prop
  | unnamed (unnamed : i.graph = none) : Provokes i s .unnamedGraph
  | noDocument {module} (query : i.action = .query module none) : Provokes i s .noDocument
  | relative {name document} (query : i.action = .query (some name) document)
      (relative : name.toList.head? = some '.') : Provokes i s (.component .relative)
  | depth {schema module document} (query : i.action = .query module (some document))
      (deep : s.frontEnd schema document [] = .tooDeep) : Provokes i s .deepDocument
  | breakdown {name document b} (query : i.action = .query (some name) document)
      (broken : s.components.find name = .error (.broken b)) (unreported : b.isReported = false) :
      Provokes i s (.component (.broken b))
  | document {path text raw e} (named : i.graph = some path) (there : s.file path = .ok text)
      (read : Json.read (String.ofList (unifyLines text.toList)) = .ok raw)
      (misshapen : ¬ Graph.WellShaped raw) : Provokes i s (.graph e)
  | schema {g settings e} (loaded : i.Loads s g) (accepted : i.settings s = .ok settings)
      (unbuilt : (createSchema g settings).2 = .error e) (naming : e.IsNaming) :
      Provokes i s (.graph e)

end Invocation

def HasErrors (result : Json) : Prop := ∃ e rest, result.member? "errors" = some (.arr (e :: rest))

inductive Foreseen : Fault → Prop
  | file (fault) : Foreseen (.file fault)
  | json (e) : Foreseen (.json e)
  | settings (violations manual) : Foreseen (.settings violations manual)
  | component {fault} (absolute : fault ≠ .relative) (intact : ∀ b, fault ≠ .broken b) :
      Foreseen (.component fault)
  | breakdown {b : Breakdown} (reported : b.isReported = true) : Foreseen (.component (.broken b))
  | documented {e} (documented : e.IsDocumented) : Foreseen (.graph e)
  | functionKind (raw) : Foreseen (.graph (.unknownFunctionKind raw))
  | size {fault : ShapeFault} (size : fault.isSize = true) : Foreseen (.graph (.shape fault))
  | output (text) : Foreseen (.output text)

theorem foreseen_iff {fault : Fault} : Foreseen fault ↔ fault.isReported = true := by
  constructor
  · intro foreseen
    cases foreseen with
    | file | json | settings | functionKind | output => rfl
    | @component fault absolute intact =>
      cases fault with
      | relative => exact absurd rfl absolute
      | broken b => exact absurd rfl (intact b)
      | _ => rfl
    | breakdown reported => exact reported
    | documented documented => cases documented <;> rfl
    | size size => exact size
  · intro reported
    cases fault with
    | file fault => exact .file fault
    | json e => exact .json e
    | settings violations manual => exact .settings violations manual
    | output text => exact .output text
    | unnamedGraph | noDocument | deepDocument => cases reported
    | component fault =>
      cases fault with
      | relative => cases reported
      | broken b => exact .breakdown reported
      | _ => exact .component nofun nofun
    | graph e =>
      cases e with
      | shape fault => exact .size reported
      | illegalName | reservedType | duplicateType => cases reported
      | unknownFunctionKind raw => exact .functionKind raw
      | unsupportedPrimitive raw => exact .documented (.unsupportedPrimitive raw)
      | unsupportedKind raw => exact .documented (.unsupportedKind raw)
      | unresolvedType index available => exact .documented (.unresolvedType index available)
      | typeCycle chain => exact .documented (.typeCycle chain)
      | noWorld name => exact .documented (.noWorld name)
      | noFunctions world => exact .documented (.noFunctions world)

def Fault.ending (fault : Fault) : Ending :=
  if fault.isReported then .reported fault else .escaped fault

section Stages

variable {i : Invocation} {s : Surroundings} {g : Graph} {settings : Settings} {schema : Schema}
  {finish : Settings → Schema → List Notice × Ending}

theorem withSchema_rejected {fault : Fault} (rejected : i.settings s = .error fault) :
    (withSchema i s g finish).ending = fault.ending := by
  simp only [withSchema, readSettings, rejected]
  rfl

theorem withSchema_unbuilt {e : WitSchema.Error} (accepted : i.settings s = .ok settings)
    (unbuilt : (createSchema g settings).2 = .error e) :
    (withSchema i s g finish).ending = (Fault.graph e).ending := by
  rcases h : createSchema g settings with ⟨notices, r⟩
  rw [h] at unbuilt
  cases unbuilt
  simp only [withSchema, readSettings, accepted, h]
  rfl

theorem withSchema_built (accepted : i.settings s = .ok settings)
    (built : (createSchema g settings).2 = .ok schema) :
    (withSchema i s g finish).ending = (finish settings schema).2 := by
  rcases h : createSchema g settings with ⟨notices, r⟩
  rw [h] at built
  cases built
  simp only [withSchema, readSettings, accepted, h]

theorem run_schema (loaded : i.Loads s g) (wanted : i.action = .schema) :
    i.run s = withSchema i s g fun _ schema => ([], s.print 0 (schema.sdl ++ "\n")) := by
  obtain ⟨path, named, read⟩ := loaded
  simp only [Invocation.run, named, read, wanted]

theorem run_query {module document : Word} {table : NativeTable} (loaded : i.Loads s g)
    (query : i.action = .query module document) (found : functionsOf s module = .ok table) :
    i.run s = withSchema i s g fun settings schema =>
      ([.running], respond s table settings schema document) := by
  obtain ⟨path, named, read⟩ := loaded
  simp only [Invocation.run, named, read, query, found]

theorem respond_ending {module document : Word} {table : NativeTable}
    (built : i.Builds s settings schema) (query : i.action = .query module document)
    (found : functionsOf s module = .ok table) :
    (i.run s).ending = respond s table settings schema document := by
  obtain ⟨⟨g, loaded, made⟩, -, accepted⟩ := built
  rw [run_query loaded query found, withSchema_built accepted made]

theorem run_equipped (loaded : i.Loads s g) (equipped : i.Equipped s) :
    ∃ finish, i.run s = withSchema i s g finish := by
  cases action : i.action with
  | schema => exact ⟨_, run_schema loaded action⟩
  | query module document =>
    obtain ⟨table, found⟩ := equipped module document action
    exact ⟨_, run_query loaded action found⟩

theorem describes_ending {text : String} (describes : i.Describes s text) :
    (i.run s).ending = s.print 0 (text ++ "\n") := by
  obtain ⟨wanted, settings, schema, ⟨⟨g, loaded, built⟩, -, accepted⟩, rfl⟩ := describes
  rw [run_schema loaded wanted, withSchema_built accepted built]

theorem hasErrors_iff {r : Result} : HasErrors r.json ↔ r.code = 1 := by
  obtain ⟨data, errors⟩ := r
  cases errors with
  | nil =>
    refine ⟨?_, nofun⟩
    rintro ⟨e, rest, listed⟩
    cases listed
  | cons e rest => exact ⟨fun _ => rfl, fun _ => ⟨_, _, rfl⟩⟩

theorem code_zero_or_one (r : Result) : r.code = 0 ∨ r.code = 1 := by
  unfold Result.code
  split
  · exact .inl rfl
  · exact .inr rfl

theorem responds_ending {result : Json} (responds : i.Responds s result) :
    (HasErrors result → (i.run s).ending = s.print 1 (result.pretty ++ "\n")) ∧
      (¬ HasErrors result → (i.run s).ending = s.print 0 (result.pretty ++ "\n")) := by
  obtain ⟨module, document, table, settings, schema, r, query, found, built, answered, rfl⟩ :=
    responds
  rw [respond_ending built query found, hasErrors_iff]
  simp only [respond, answered]
  refine ⟨fun failed => by rw [failed], fun flawless => ?_⟩
  rw [(code_zero_or_one r).resolve_right flawless]

theorem yields_ending {text : String} (yields : i.Yields s text) :
    ∃ code, (i.run s).ending = s.print code text := by
  obtain ⟨sdl, describes, rfl⟩ | ⟨result, responds, rfl⟩ := yields
  · exact ⟨0, describes_ending describes⟩
  · by_cases failed : HasErrors result
    · exact ⟨1, (responds_ending responds).1 failed⟩
    · exact ⟨0, (responds_ending responds).2 failed⟩

theorem fails_ending {fault : Fault} (fails : i.Fails s fault) :
    (i.run s).ending = fault.ending := by
  cases fails with
  | unnamed unnamed =>
    simp only [Invocation.run, unnamed]
    rfl
  | graph named unread =>
    simp only [Invocation.run, named, unread]
    rfl
  | component loaded query missing =>
    obtain ⟨path, named, read⟩ := loaded
    simp only [Invocation.run, named, read, query, missing]
    rfl
  | settings loaded equipped rejected =>
    obtain ⟨finish, same⟩ := run_equipped loaded equipped
    rw [same, withSchema_rejected rejected]
  | schema loaded equipped accepted unbuilt =>
    obtain ⟨finish, same⟩ := run_equipped loaded equipped
    rw [same, withSchema_unbuilt accepted unbuilt]
  | document built query =>
    obtain ⟨table, found⟩ := built.equipped _ _ query
    rw [respond_ending built query found]
    rfl
  | depth built query deep =>
    obtain ⟨table, found⟩ := built.equipped _ _ query
    rw [respond_ending built query found]
    simp only [respond, result?, deep]
    rfl
  | output yields refused =>
    obtain ⟨code, ends⟩ := yields_ending yields
    rw [ends, Surroundings.print, refused]
    rfl

theorem result?_eq_none_iff {table : NativeTable} {document : String} :
    result? s table settings schema document = none ↔
      s.frontEnd schema document [] = .tooDeep := by
  unfold result?
  cases s.frontEnd schema document [] <;> simp

theorem exists_ending (i : Invocation) (s : Surroundings) :
    (∃ fault, i.Fails s fault) ∨ ∃ text, i.Yields s text := by
  cases named : i.graph with
  | none => exact .inl ⟨_, .unnamed named⟩
  | some path =>
  cases read : loadGraph s path with
  | error fault => exact .inl ⟨fault, .graph named read⟩
  | ok g =>
  have loaded : i.Loads s g := ⟨path, named, read⟩
  by_cases equipped : i.Equipped s
  · cases accepted : i.settings s with
    | error fault => exact .inl ⟨fault, .settings loaded equipped accepted⟩
    | ok settings =>
    cases made : (createSchema g settings).2 with
    | error e => exact .inl ⟨_, .schema loaded equipped accepted made⟩
    | ok schema =>
    have built : i.Builds s settings schema := ⟨⟨g, loaded, made⟩, equipped, accepted⟩
    cases action : i.action with
    | schema => exact .inr ⟨_, .inl ⟨_, ⟨action, settings, schema, built, rfl⟩, rfl⟩⟩
    | query module document =>
      obtain ⟨table, found⟩ := equipped module document action
      cases document with
      | none => exact .inl ⟨_, .document built action⟩
      | some document =>
        cases answered : result? s table settings schema document with
        | none => exact .inl ⟨_, .depth built action (result?_eq_none_iff.mp answered)⟩
        | some r =>
          exact .inr ⟨_, .inr ⟨_, ⟨module, document, table, settings, schema, r, action, found,
            built, answered, rfl⟩, rfl⟩⟩
  · simp only [Invocation.Equipped, not_forall, not_exists] at equipped
    obtain ⟨module, document, query, missing⟩ := equipped
    cases found : functionsOf s module with
    | error fault => exact .inl ⟨_, .component loaded query found⟩
    | ok table => exact (missing table found).elim

end Stages

section Causes

variable {i : Invocation} {s : Surroundings} {fault : Fault}

theorem loadGraph_error {path : String} (unread : loadGraph s path = .error fault) :
    (∃ cause, fault = .file cause) ∨ (∃ e, fault = .json e) ∨
      ∃ text raw e, s.file path = .ok text ∧
        Json.read (String.ofList (unifyLines text.toList)) = .ok raw ∧
        Graph.ofJson raw = .error e ∧ fault = .graph e := by
  unfold loadGraph at unread
  cases there : s.file path with
  | error cause =>
    rw [there] at unread
    cases unread
    exact .inl ⟨cause, rfl⟩
  | ok text =>
  cases read : Json.read (String.ofList (unifyLines text.toList)) with
  | error e =>
    simp only [there, Except.mapError, ok_bind, read] at unread
    cases unread
    exact .inr (.inl ⟨e, rfl⟩)
  | ok raw =>
    simp only [there, Except.mapError, ok_bind, read] at unread
    obtain ⟨e, refused, rfl⟩ := exists_of_mapError unread
    exact .inr (.inr ⟨text, raw, e, rfl, read, refused, rfl⟩)

/-- A well-shaped document is only refused for what it says. -/
theorem foreseen_of_wellShaped {raw : Json} {e : WitSchema.Error} (shaped : Graph.WellShaped raw)
    (refused : Graph.ofJson raw = .error e) : Foreseen (.graph e) := by
  obtain ⟨_, p, _, -, -, -, rfl⟩ := ((Graph.ofJson_decided shaped).error_iff e).mp refused
  cases p with
  | kind raw => exact .documented (.unsupportedKind raw)
  | reference raw => exact .documented (.unsupportedPrimitive raw)
  | functionKind tag => exact .functionKind (.str tag)

theorem violations_ne_nil {sources : Settings.Sources} {violations : List Violation}
    (refused : Settings.read sources = .error violations) : violations ≠ [] := by
  unfold Settings.read at refused
  dsimp only at refused
  split at refused
  · cases refused
  · rename_i some
    cases refused
    exact fun none => some (List.isEmpty_iff.mpr none)

theorem settings_error (rejected : i.settings s = .error fault) :
    (∃ text, fault = .file (.unreadable text)) ∨
      ∃ violations, violations ≠ [] ∧ fault = .settings violations s.manual := by
  unfold Invocation.settings at rejected
  split at rejected
  · cases rejected
    exact .inl ⟨_, rfl⟩
  · obtain ⟨violations, refused, rfl⟩ := exists_of_mapError rejected
    exact .inr ⟨violations, violations_ne_nil refused, rfl⟩

theorem descend_ne_relative {components : Components} {parent : Option String}
    {names : List String} : components.descend parent names ≠ .error .relative := by
  induction names generalizing parent with
  | nil => exact nofun
  | cons name rest ih =>
    unfold Components.descend
    split
    · split
      · exact nofun
      · exact ih
    · exact nofun
    · split <;> exact nofun

theorem functionsOf_relative {module : Word} (missing : functionsOf s module = .error .relative) :
    ∃ name, module = some name ∧ name.toList.head? = some '.' := by
  cases module with
  | none => cases missing
  | some name =>
    refine ⟨name, rfl, ?_⟩
    simp only [functionsOf, Components.find] at missing
    split at missing
    · cases missing
    · rename_i rest spelled
      rw [spelled]
      rfl
    · exact (descend_ne_relative missing).elim

theorem functionsOf_broken {module : Word} {b : Breakdown}
    (missing : functionsOf s module = .error (.broken b)) :
    ∃ name, module = some name ∧ s.components.find name = .error (.broken b) := by
  cases module with
  | none => cases missing
  | some name => exact ⟨name, rfl, missing⟩

theorem fails_cause (fails : i.Fails s fault) : Foreseen fault ∨ i.Provokes s fault := by
  cases fails with
  | unnamed unnamed => exact .inr (.unnamed unnamed)
  | graph named unread =>
    obtain ⟨cause, rfl⟩ | ⟨e, rfl⟩ | ⟨text, raw, e, there, read, refused, rfl⟩ :=
      loadGraph_error unread
    · exact .inl (.file cause)
    · exact .inl (.json e)
    · by_cases shaped : Graph.WellShaped raw
      · exact .inl (foreseen_of_wellShaped shaped refused)
      · exact .inr (.document named there read shaped)
  | @component _ _ _ fault _ query missing =>
    cases fault with
    | relative =>
      obtain ⟨name, rfl, relative⟩ := functionsOf_relative missing
      exact .inr (.relative query relative)
    | broken b =>
      obtain ⟨name, rfl, broken⟩ := functionsOf_broken missing
      cases reported : b.isReported with
      | true => exact .inl (.breakdown reported)
      | false => exact .inr (.breakdown query broken reported)
    | _ => exact .inl (.component nofun nofun)
  | settings loaded equipped rejected =>
    obtain ⟨text, rfl⟩ | ⟨violations, -, rfl⟩ := settings_error rejected
    · exact .inl (.file _)
    · exact .inl (.settings violations _)
  | schema loaded equipped accepted unbuilt =>
    obtain documented | naming := createSchema_known unbuilt
    · exact .inl (.documented documented)
    · exact .inr (.schema loaded accepted unbuilt naming)
  | document built query => exact .inr (.noDocument query)
  | depth built query deep => exact .inr (.depth query deep)
  | output => exact .inl (.output _)

end Causes

end WitSchema.Command

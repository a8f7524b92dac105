import WitSchema.Proofs.Binding.Locality
import WitSchema.Proofs.Binding.Roots
import WitSchema.Proofs.GraphQL.Nest

/-! Integers on their way out. A field whose function returns integers under lists
and options shows them as numbers, or as text where they may have 64 bits. The
numbers of a schema have 32 bits with a sign, which is one too few for the
upper half of `u32`. -/

namespace WitSchema

open GraphQL

namespace Wit

def Primitive.bounds? : Primitive → Option (Int × Int)
  | u8 => some (0, 255)
  | u16 => some (0, 65535)
  | u32 => some (0, 4294967295)
  | u64 => some (0, 18446744073709551615)
  | s8 => some (-128, 127)
  | s16 => some (-32768, 32767)
  | s32 => some (-2147483648, 2147483647)
  | s64 => some (-9223372036854775808, 9223372036854775807)
  | _ => none

/-- How a response has an integer: as its decimal text for 64 bits, otherwise as a number. -/
def Primitive.written : Primitive → Int → Json
  | u64, n | s64, n => .str (toString n)
  | _, n => .int n

def IsSmall (n : Int) : Prop := -2147483648 ≤ n ∧ n ≤ 2147483647

def Primitive.Shows (p : Primitive) (n : Int) : Prop := Scalar.ofPrimitive p = .int → IsSmall n

/-- The reference is one to the primitive under lists and options, each of them named or not. -/
inductive Graph.HasNest (g : Graph) (p : Primitive) : TypeRef → Nest → Prop
  | primitive : HasNest g p (.primitive p) .integer
  | list {index node item nest} (found : g.node? index = some node) (kind : node.kind = .list item)
      (inner : HasNest g p item nest) : HasNest g p (.node index) (.list nest)
  | option {index node ref nest} (found : g.node? index = some node)
      (kind : node.kind = .option ref) (inner : HasNest g p ref nest) :
      HasNest g p (.node index) (.option nest)
  | alias {index node target nest} (found : g.node? index = some node)
      (kind : node.kind = .alias target) (inner : HasNest g p target nest) :
      HasNest g p (.node index) nest

section Output

variable {p : Primitive} {b : Int × Int} {nest : Nest} {v : Json}

theorem ofPrimitive_of_bounds (bounds : p.bounds? = some b) :
    Scalar.ofPrimitive p = .int ∧ p.written = .int ∨
      Scalar.ofPrimitive p = .string ∧ p.written = fun n => .str (toString n) := by
  cases p with
  | bool | f32 | f64 | char | string | errorContext => cases bounds
  | u64 | s64 => exact .inr ⟨rfl, rfl⟩
  | _ => exact .inl ⟨rfl, rfl⟩

theorem output_of_shows (bounds : p.bounds? = some b) {n : Int} (shown : p.Shows n) :
    (Scalar.ofPrimitive p).output (.int n) = .ok (p.written n) := by
  rcases ofPrimitive_of_bounds bounds with ⟨int, written⟩ | ⟨string, written⟩
  · have small := shown int
    rw [int, written]
    simp only [IsSmall] at small
    simp only [Scalar.output, Scalar.intOutput, Scalar.integerOf?, Scalar.int?]
    rw [if_pos (by omega)]
    rfl
  · rw [string, written]
    rfl

theorem output_of_not_shows {n : Int} (hidden : ¬ p.Shows n) :
    ∃ fault, (Scalar.ofPrimitive p).output (.int n) = .error fault := by
  simp only [Primitive.Shows, Classical.not_imp] at hidden
  obtain ⟨int, large⟩ := hidden
  simp only [IsSmall] at large
  refine ⟨.notSmall (.int n), ?_⟩
  rw [int]
  simp only [Scalar.output, Scalar.intOutput, Scalar.integerOf?, Scalar.int?]
  rw [if_neg (by omega)]
  rfl

/-- Of the integer types only `u32` has values that cannot be shown. -/
theorem holds_shows_iff (bounds : p.bounds? = some b)
    (typed : nest.Holds (fun n => b.1 ≤ n ∧ n ≤ b.2) v) :
    nest.Holds p.Shows v ↔ (p = .u32 → nest.Holds (· ≤ 2147483647) v) := by
  by_cases wide : p = .u32
  · subst wide
    cases bounds
    constructor
    · exact fun holds _ => holds.mono fun n shown => (shown rfl).2
    · intro small
      refine (typed.and (small rfl)).mono fun n inside _ => ?_
      simp only [IsSmall]
      omega
  · refine ⟨fun _ same => absurd same wide, fun _ => typed.mono fun n inside int => ?_⟩
    simp only [IsSmall]
    cases p with
    | u32 => exact absurd rfl wide
    | u64 | s64 | bool | f32 | f64 | char | string | errorContext => cases int
    | _ =>
      cases bounds
      simp only at inside
      omega

end Output

end Wit

namespace Conversion

open Wit Wit.Graph

theorem typed_of_hasNest {g : Graph} {s : Side} {ref : TypeRef} {t : Ty} {p : Primitive}
    {nest : Nest} (sound : Sound g .output s) (idle : s.building = [])
    (nested : g.HasNest p ref nest) (looked : s.look? g ref = some t) :
    nest.Typed (Scalar.ofPrimitive p) t := by
  induction nested generalizing t with
  | primitive => exact (Option.some.inj looked).symm
  | list found kind inner ih =>
    have same := describes_of_look sound idle looked found (by rw [kind]; rfl)
    simp only [recipe, kind, Recipe.Describes] at same
    obtain ⟨serial, item, looked', rfl⟩ := same
    exact ⟨_, serial, item, rfl, ih looked'⟩
  | option found kind inner ih =>
    have same := describes_of_look sound idle looked found (by rw [kind]; rfl)
    simp only [recipe, kind, Recipe.Describes] at same
    exact ih same
  | «alias» found kind inner ih => exact ih (look?_alias sound idle looked found kind)

end Conversion

namespace Binding

open Conversion Wit

section Field

variable {g : Graph} {settings : Settings} {schema : Schema} {w : World} {name : String}
  {f : Function} {before after : List (String × Function)}

theorem lookup_of_createSchema
    (selected : g.world? ((settings.worldName.map Json.str).getD .null) = some w)
    (ok : (createSchema g settings).2 = .ok schema)
    (exported : w.functionExports = before ++ (name, f) :: after)
    (last : ∀ e ∈ after, fieldName e.1 ≠ fieldName name) :
    ∃ c q, schema.fields.lookup (fieldName name) = some q ∧ Steady g c ∧
      FieldBound g settings c name f q := by
  obtain ⟨bound, binds, fields⟩ := createSchema_fields selected ok
  rw [exported] at binds
  obtain ⟨earlier, later, c, q, rfl, keys, steady, field⟩ := binds.split (steady_empty g)
  refine ⟨c, q, ?_, steady, field⟩
  rw [fields]
  refine lookup_insertPairs_of_last earlier (p := (fieldName name, q)) ?_
  rw [keys]
  intro member
  obtain ⟨e, there, same⟩ := List.mem_map.mp member
  exact last e there same

theorem answer_of_lookup {field : PlannedField} {q : QueryField}
    (executable : schema.isExecutable = true) (found : schema.fields.lookup field.name = some q)
    (v : Json) :
    ∃ object spot, schema.answer field (.ok v) = (completeWith object q.type v spot).settle q.type := by
  have plain : isIntrospective field.name = false := by
    simp only [Schema.isExecutable, Bool.and_eq_true, List.all_eq_true] at executable
    simpa using (executable.1.2 _ (mem_of_lookup found)).1
  have ordinary : ∀ name, isIntrospective name = true → field.name ≠ name := by
    rintro name reserved rfl
    exact absurd (reserved.symm.trans plain) (by decide)
  have own : field.isMeta = false := by
    simp only [PlannedField.isMeta, metaFields, List.lookup_cons, List.lookup_nil,
      beq_false_of_ne (ordinary "__schema" (by decide)),
      beq_false_of_ne (ordinary "__type" (by decide))]
    rfl
  have type : schema.rootType field.name = q.type := by
    simp only [Schema.rootType, if_neg (ordinary "__typename" (by decide)), found]
    rfl
  simp only [Schema.answer, own, type]
  exact ⟨_, _, rfl⟩

/-- A field whose function returns integers under lists and options shows each of them, as a number
or, for 64 bits, as its text, and reports no error. Only if they are of the type `u32` and one of
them is beyond the numbers of a schema there is an error. -/
theorem integers_shown_iff
    (selected : g.world? ((settings.worldName.map Json.str).getD .null) = some w)
    (ok : (createSchema g settings).2 = .ok schema)
    (exported : w.functionExports = before ++ (name, f) :: after)
    (last : ∀ e ∈ after, fieldName e.1 ≠ fieldName name) {ref : TypeRef} {p : Primitive}
    {b : Int × Int} {nest : Nest} (result : f.result = some ref) (bounds : p.bounds? = some b)
    (nested : g.HasNest p ref nest) (query : Query schema) {host : Host}
    {r : PlannedField × Settled}
    (member : r ∈ query.results host) (own : r.1.name = fieldName name) {v : Json}
    (answered : r.2.result = .ok v) (typed : nest.Holds (fun n => b.1 ≤ n ∧ n ≤ b.2) v) :
    (((query.response host).under r.1.key).errors = [] ↔
      (p = .u32 → nest.Holds (· ≤ 2147483647) v)) ∧
    ((p = .u32 → nest.Holds (· ≤ 2147483647) v) →
      (query.response host).under r.1.key = ⟨[], some (nest.shown p.written v)⟩) := by
  obtain ⟨c, q, found, steady, field⟩ := lookup_of_createSchema selected ok exported last
  obtain ⟨within, soft, -⟩ := createSchema_soft ok
  have looked := field.result
  rw [result] at looked
  have fits := typed_of_hasNest (steady.settled.sound .output) (steady.settled.idle .output) nested
    looked
  obtain ⟨object, spot, answer⟩ := answer_of_lookup query.executable (own ▸ found) v
  rw [← answered, ← query.under_eq soft host member] at answer
  rw [Completion.settle_nullable (nullable_of_typed fits)] at answer
  rw [← holds_shows_iff bounds typed, answer]
  refine ⟨⟨fun clean => ?_, fun holds => ?_⟩, fun holds => ?_⟩
  · by_contra beyond
    exact errors_of_nest (fun n => output_of_not_shows) fits typed beyond clean
  · rw [completeWith_nest (fun n => output_of_shows bounds) fits holds]
  · rw [completeWith_nest (fun n => output_of_shows bounds) fits holds]
    rfl

end Field

def counting (name : String) (result : TypeRef) : String × WorldItem :=
  (name, .function ⟨.str name, [], some result, .freestanding, .null, .null, .null⟩)

def tallyWorld : World :=
  ⟨.str "tally", [counting "count" (.primitive .u32), counting "marks" (.node 0)], [], .null, .null⟩

def tally : Graph where
  types :=
    [⟨.list (.node 1), .null, none, .null, .null⟩,
      ⟨.option (.primitive .u64), .null, none, .null, .null⟩]
  worlds := [tallyWorld]
  interfaces := []
  packages := []

def tallySchema : Schema where
  queryType := "Query"
  fields :=
    [("count", ⟨.scalar .int, none, .null, ⟨.str "count", "count", [], "input"⟩⟩),
      ("marks", ⟨.list .output 0 (.scalar .string), none, .null,
        ⟨.str "marks", "marks", [], "input"⟩⟩)]
  store := ⟨[], []⟩
  types := []

theorem createSchema_tally : (createSchema tally .default).2 = .ok tallySchema := by
  have selected : tally.world? ((Settings.default.worldName.map Json.str).getD .null) =
      some tallyWorld := rfl
  have bound : (bindExports tally .default tallyWorld .empty [] [] tallyWorld.exports).result =
      .ok tallySchema.fields ∧
      (bindExports tally .default tallyWorld .empty [] [] tallyWorld.exports).converter.store =
        ⟨[], []⟩ := by
    simp only [bindExports, tallyWorld, counting, WorldItem.function?, bind, bindArgument,
      bindResult, Converter.convert, convert_eq_evaluated]
    exact ⟨rfl, rfl⟩
  have mentions : tallySchema.fields.flatMap (·.2.mentions) =
      [.scalar .int, .list .output 0 (.scalar .string)] := rfl
  have collected : collect ⟨[], []⟩ (Store.ids ⟨[], []⟩)
      [.scalar .int, .list .output 0 (.scalar .string)] = .ok [] := by
    simp [collect, Ty.named]
  unfold createSchema
  simp only [selected, bound, Schema.assemble, mentions, collected]
  rfl

def tallyHost (count : Int) : Host :=
  ⟨[("count", .function fun _ _ => .ok (.int count)),
    ("marks", .function fun _ _ => .ok (.arr [.int 18446744073709551615, .null]))],
    ⟨1, .none, 0.0⟩, false⟩

def tallyQuery : Query tallySchema where
  plan := [⟨"count", "count", [], [2], false, []⟩, ⟨"marks", "marks", [], [8], false, []⟩]
  values := []
  described _ := .null
  distinct := Plan.distinct_leaves (by decide) (List.forall_mem_cons.mpr
    ⟨rfl, List.forall_mem_singleton.mpr rfl⟩)
  executable := rfl

theorem tally_results (count : Int) : tallyQuery.results (tallyHost count) =
    [(⟨"count", "count", [], [2], false, []⟩, ⟨1, .ok (.int count)⟩),
      (⟨"marks", "marks", [], [8], false, []⟩,
        ⟨1, .ok (.arr [.int 18446744073709551615, .null])⟩)] := rfl

theorem greatest_count_lost :
    (createSchema tally .default).2 = .ok tallySchema ∧
    tally.HasNest .u32 (.primitive .u32) .integer ∧
    (∃ b, Primitive.u32.bounds? = some b ∧
      Nest.Holds (fun n => b.1 ≤ n ∧ n ≤ b.2) .integer (.int 4294967295)) ∧
    (tallyQuery.response (tallyHost 4294967295)).under "count" = ⟨[⟨[.str "count"], [2],
      "Int cannot represent non 32-bit signed integer value: 4294967295"⟩], some .null⟩ := by
  refine ⟨createSchema_tally, .primitive, ⟨_, rfl, 4294967295, rfl, by decide⟩, ?_⟩
  obtain ⟨within, soft, -⟩ := createSchema_soft createSchema_tally
  have counted := tally_results 4294967295 ▸ List.mem_cons_self
  rw [tallyQuery.under_eq soft (tallyHost 4294967295) counted]
  rfl

theorem greatest_mark_shown :
    (tallyQuery.response (tallyHost 2147483647)).under "count" = ⟨[], some (.int 2147483647)⟩ ∧
    (tallyQuery.response (tallyHost 2147483647)).under "marks" =
      ⟨[], some (.arr [.str "18446744073709551615", .null])⟩ := by
  have list : tally.HasNest .u64 (.node 0) (.list (.option .integer)) :=
    .list rfl rfl (.option rfl rfl .primitive)
  have counts : tallyWorld.functionExports =
      [] ++ ("count", _) :: [("marks", _)] := rfl
  have marks : tallyWorld.functionExports =
      [("count", _)] ++ ("marks", _) :: [] := rfl
  have results := tally_results 2147483647
  constructor
  · have shown := (integers_shown_iff (w := tallyWorld) rfl createSchema_tally counts (by decide)
      rfl rfl .primitive tallyQuery (results ▸ List.mem_cons_self) rfl rfl
      ⟨2147483647, rfl, by decide⟩).2
    exact shown fun _ => ⟨2147483647, rfl, by decide⟩
  · have typed : ∀ v ∈ [Json.int 18446744073709551615, .null],
        Nest.Holds (fun n => 0 ≤ n ∧ n ≤ 18446744073709551615) (.option .integer) v :=
      List.forall_mem_cons.mpr
        ⟨.inr ⟨_, rfl, by decide⟩, List.forall_mem_singleton.mpr (.inl rfl)⟩
    have shown := (integers_shown_iff (w := tallyWorld) rfl createSchema_tally marks (by decide)
      rfl rfl list tallyQuery (results ▸ List.mem_cons_of_mem _ List.mem_cons_self) rfl rfl
      ⟨_, rfl, typed⟩).2
    exact shown nofun

end Binding

end WitSchema

import WitSchema.Binding.Assembly
import WitSchema.Binding.Component
import WitSchema.Command.Files
import WitSchema.Command.Invocation
import WitSchema.GraphQL.Execution
import WitSchema.GraphQL.Schema
import WitSchema.Json.Display
import WitSchema.Settings.Read
import WitSchema.Wit.Reader

/-! Running an invocation: what is printed, what is reported, and the exit code.
Faults in files, names, settings and graphs are reported; faults of the shape
of a graph and of the names in a schema end the program. -/

namespace WitSchema.Command

open Binding GraphQL Wit

/-- What a run depends on beside its arguments. Documents are read by a front end of their own, a
manual explains violations of settings, if there is one to refer to, and there may be texts that
cannot be printed, for a reason. -/
structure Surroundings where
  file : String → Except FileFault String
  env : List (String × String)
  components : Components
  retryAvailable : Bool
  frontEnd : FrontEnd
  manual : Option String
  unprintable : String → Option String

inductive Fault
  | file (fault : FileFault)
  | json (error : JsonError)
  | graph (error : WitSchema.Error)
  | component (fault : ComponentFault)
  | settings (violations : List Violation) (manual : Option String)
  | unnamedGraph
  | noDocument
  | deepDocument
  | output (text : String)

def withoutMiddle (text : String) : String :=
  if text.utf8ByteSize ≤ 50 then text
  else
    let cs := text.toList
    let size := fun cs : List Char => (String.ofList cs).utf8ByteSize
    let first := ((List.range (cs.length + 1)).filter fun n => size (cs.take n) ≤ 25).getLast?
    let last := (List.range (cs.length + 1)).find? fun n => size (cs.drop n) ≤ 24
    String.ofList (cs.take (first.getD 0)) ++ "..." ++ String.ofList (cs.drop (last.getD 0))

def violationText (manual : Option String) (v : Violation) : String :=
  v.field ++ "\n  " ++ v.fault.message ++ " [type=" ++ v.fault.sort ++ ", input_value=" ++
    withoutMiddle v.input.display ++ ", input_type=" ++ sortName v.input ++ "]" ++
    (manual.map fun place =>
      "\n    For further information visit " ++ place ++ v.fault.sort).getD ""

def violationsText (manual : Option String) (vs : List Violation) : String :=
  String.intercalate "\n"
    ((toString vs.length ++ " validation error" ++ (if vs.length = 1 then "" else "s") ++
      " for SchemaSettings") :: vs.map (violationText manual))

namespace Fault

def message : Fault → String
  | file fault => fault.message
  | json error => error.message
  | graph error => error.message
  | component fault => fault.message
  | settings violations manual => violationsText manual violations
  | unnamedGraph => "a path is needed"
  | noDocument => "a document is needed"
  | deepDocument => "maximum recursion depth exceeded"
  | output text => text

def isReported : Fault → Bool
  | file _ | json _ | settings .. | output _ => true
  | unnamedGraph | noDocument | deepDocument => false
  | component fault => match fault with
    | .relative => false
    | .broken b => b.isReported
    | _ => true
  | graph error => match error with
    | .shape fault => fault.isSize
    | .illegalName _ | .reservedType _ | .duplicateType _ => false
    | _ => true

end Fault

inductive Ending
  | exit (code : Nat) (output : String)
  | reported (fault : Fault)
  | escaped (fault : Fault)

structure Outcome where
  notices : List Notice
  ending : Ending

def Outcome.failed (notices : List Notice) (fault : Fault) : Outcome :=
  ⟨notices, if fault.isReported then .reported fault else .escaped fault⟩

def Surroundings.print (s : Surroundings) (code : Nat) (text : String) : Ending :=
  match s.unprintable text with
  | none => .exit code text
  | some reason => .reported (.output reason)

def nonEmpty (value : Option String) : Option String := value.filter (· != "")

namespace Invocation

def overrides (i : Invocation) : List (String × Json) :=
  ((nonEmpty i.world).map fun v => ("world_name", Json.str v)).toList ++
    ((nonEmpty i.queryType).map fun v => ("query_type_name", Json.str v)).toList

/-- A settings file that is there has to be readable. -/
def settings (i : Invocation) (s : Surroundings) : Except Fault Settings :=
  match s.file ".env" with
  | .error (.unreadable text) => .error (.file (.unreadable text))
  | found => (Settings.load i.overrides s.env found.toOption).mapError (.settings · s.manual)

end Invocation

def loadGraph (s : Surroundings) (path : String) : Except Fault Graph := do
  let text ← (s.file path).mapError .file
  let document ← (Json.read (String.ofList (unifyLines text.toList))).mapError .json
  (Graph.ofJson document).mapError .graph

def locationJson (document : String) (offset : Nat) : Json :=
  let location := Location.ofOffset document offset
  .obj [("line", .int location.line), ("column", .int location.column)]

def errorJson (document : String) (e : FieldError) : Json :=
  .obj [("message", .str e.message), ("locations", .arr (e.offsets.map (locationJson document))),
    ("path", .arr e.path)]

structure Result where
  data : Json
  errors : List Json

namespace Result

def ofResponse (document : String) (r : Response) : Result :=
  ⟨r.data, r.errors.map (errorJson document)⟩

def json (r : Result) : Json :=
  .obj (("data", r.data) :: if r.errors.isEmpty then [] else [("errors", .arr r.errors)])

def code (r : Result) : Nat := if r.errors.isEmpty then 0 else 1

end Result

/-- Runs a document, unless it is too deep. One that is refused has no data. -/
def result? (s : Surroundings) (table : NativeTable) (settings : Settings) (schema : Schema)
    (document : String) : Option Result :=
  match s.frontEnd schema document [] with
  | .accepted query =>
    some (.ofResponse document (query.execute ⟨table, settings.retry, s.retryAvailable⟩).2)
  | .refused error more => some ⟨.null, error :: more⟩
  | .tooDeep => none

def readSettings (i : Invocation) (s : Surroundings) : List Notice × Except Fault Settings :=
  let malformed := match s.file ".env" with
    | .ok text => (DotEnv.contents text).malformed
    | .error _ => []
  (malformed.map .malformedStatement, i.settings s)

def withSchema (i : Invocation) (s : Surroundings) (g : Graph)
    (finish : Settings → Schema → List Notice × Ending) : Outcome :=
  match readSettings i s with
  | (notices, .error fault) => .failed notices fault
  | (notices, .ok settings) =>
    match createSchema g settings with
    | (built, .error e) => .failed (notices ++ built) (.graph e)
    | (built, .ok schema) =>
      let (further, ending) := finish settings schema
      ⟨notices ++ built ++ further, ending⟩

/-- The functions of a component; without a name there are those of an empty list. -/
def functionsOf (s : Surroundings) : Word → Except ComponentFault NativeTable
  | none => .ok Unnamed.table
  | some module => s.components.find module

def respond (s : Surroundings) (table : NativeTable) (settings : Settings) (schema : Schema) :
    Word → Ending
  | none => .escaped .noDocument
  | some document =>
    match result? s table settings schema document with
    | some result => s.print result.code (result.json.pretty ++ "\n")
    | none => .escaped .deepDocument

def Invocation.run (i : Invocation) (s : Surroundings) : Outcome :=
  match i.graph with
  | none => .failed [] .unnamedGraph
  | some path =>
    match loadGraph s path with
    | .error fault => .failed [] fault
    | .ok g =>
      match i.action with
      | .schema => withSchema i s g fun _ schema => ([], s.print 0 (schema.sdl ++ "\n"))
      | .query module document =>
        match functionsOf s module with
        | .error fault => .failed [] (.component fault)
        | .ok table =>
          withSchema i s g fun settings schema =>
            ([.running], respond s table settings schema document)

def Outcome.report (o : Outcome) (verbose : Bool) : String :=
  let log := (o.notices.filter fun n => verbose || n.isWarning).filterMap (·.logLine?)
  let fault := match o.ending with
    | .reported fault => ["Error: " ++ fault.message]
    | _ => []
  String.join ((log ++ fault).map (· ++ "\n"))

def Outcome.output (o : Outcome) : String :=
  match o.ending with
  | .exit _ output => output
  | _ => ""

end WitSchema.Command

import WitSchema.Binding.Script
import WitSchema.Command.Run
import WitSchema.GraphQL.Validity

/-! The command. It reads the files an invocation names and its settings file,
runs it, and prints. A module is a file of scripted functions called after it,
and only plain documents are run. -/

namespace WitSchema.Main

open Binding Command

def fileFault (path : String) : IO.Error → FileFault
  | .inappropriateType .. => .isDirectory path
  | .noFileOrDirectory .. => .missing path
  | e => .unreadable (toString e)

def readFile (path : String) : IO (Except FileFault String) := do
  try
    return .ok (← IO.FS.readFile path)
  catch e => return .error (fileFault path e)

def settingVariables : List String :=
  ["QUERY_TYPE_NAME", "INPUT_ARGUMENT_NAME", "WORLD_NAME", "NULLABLE_OPTIONS", "RETRY_MAX_ATTEMPTS",
    "RETRY_BACKOFF", "RETRY_BASE_DELAY"].map ("WITGRAPHQL_" ++ ·)

def readEnvironment : IO (List (String × String)) :=
  settingVariables.filterMapM fun name => do
    return (← IO.getEnv name).map fun value => (name, value)

def components (module : String) (script : Except FileFault String) : Components :=
  match script with
  | .error _ => []
  | .ok text =>
    match Json.read text with
    | .ok (.obj scripts) =>
      let attributes := (NativeTable.ofScripts scripts).map fun n => (n.1, .ofNative n.2)
      [(module, .ok (.ofAttributes attributes))]
    | _ => []

def plainOnly : GraphQL.FrontEnd := .plain fun _ _ _ =>
  .refused (.obj [("message", .str "Only plain documents are run.")]) []

def surroundings (i : Invocation) : IO Surroundings := do
  let graph ← readFile (i.graph.getD "")
  let settings ← readFile ".env"
  let env ← readEnvironment
  let found ← match i.action with
    | .query (some module) _ => (readFile (module ++ ".json")).map (components module)
    | _ => pure []
  return {
    file := fun path => if some path = i.graph then graph else settings
    env
    components := found
    retryAvailable := true
    frontEnd := plainOnly
    manual := none
    unprintable := fun _ => none }

def refusalText : Refusal → String
  | .help => "usage: wit-schema [-h] [-v] \x7bschema,query\x7d ..."
  | .usage => "usage: wit-schema [-h] [-v] \x7bschema,query\x7d ...\nerror: wrong arguments"

def refuse (r : Refusal) : IO UInt32 := do
  match r with
  | .help => IO.println (refusalText r); return 0
  | _ => IO.eprintln (refusalText r); return 2

def perform (i : Invocation) : IO UInt32 := do
  let outcome := i.run (← surroundings i)
  IO.eprint (outcome.report i.verbose)
  IO.print outcome.output
  match outcome.ending with
  | .exit code _ => return code.toUInt32
  | .reported _ => return 1
  | .escaped fault => IO.eprintln fault.message; return 1

end WitSchema.Main

def main (args : List String) : IO UInt32 :=
  match WitSchema.Command.Invocation.ofArguments args with
  | .error refusal => WitSchema.Main.refuse refusal
  | .ok invocation => WitSchema.Main.perform invocation

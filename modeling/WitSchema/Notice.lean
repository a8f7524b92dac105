import WitSchema.GraphQL.Type
import WitSchema.Json.Display

/-! What is reported on the way to a schema and to the response of a document:
steps for the log, warnings about cases that are left out, and warnings about
statements of a settings file that could not be read. -/

namespace WitSchema

inductive Notice
  | converting (direction : Direction) (id : Nat) (name : Json)
  | tupleCut (id : Nat) (count : Nat)
  | hiddenCase (id : Nat) (name : Json)
  | bound (exportName : String) (params : Nat)
  | skipped (exportName : String) (world : Json)
  | built (world : Json) (fields : Nat)
  | malformedStatement (line : Nat)
  | running

def Direction.word : Direction → String
  | .output => "output"
  | .input => "input"

namespace Notice

def entry? : Notice → Option (String × String)
  | converting d id name =>
    some ("witgraphql.conversion.converter",
      "Converting " ++ d.word ++ " type " ++ toString id ++ " (" ++ name.text ++ ")")
  | tupleCut id count =>
    some ("witgraphql.conversion.converter",
      "Tuple type " ++ toString id ++ " has " ++ toString count ++
        " elements; only the first is kept")
  | hiddenCase .. => none
  | bound exportName params =>
    some ("witgraphql.binding.binder",
      "Bound " ++ exportName ++ " with " ++ toString params ++ " parameter(s)")
  | skipped exportName world =>
    some ("witgraphql.binding.schema",
      "Skipping non-function export " ++ exportName ++ " of world " ++ world.text)
  | built world fields =>
    some ("witgraphql.binding.schema",
      "Built schema for world " ++ world.text ++ " with " ++ toString fields ++ " field(s)")
  | malformedStatement line =>
    some ("dotenv.main",
      "python-dotenv could not parse statement starting at line " ++ toString line)
  | running => some ("asyncio", "Using selector: EpollSelector")

def isWarning : Notice → Bool
  | malformedStatement _ => true
  | _ => false

def logLine? (n : Notice) : Option String :=
  n.entry?.map fun e => (if n.isWarning then "WARNING " else "DEBUG ") ++ e.1 ++ ": " ++ e.2

def warning? : Notice → Option String
  | hiddenCase id name =>
    some ("Variant " ++ (if name.isTruthy then name.text else toString id) ++
      " has a case named 'type' which collides with the case discriminator; " ++
      "its payload is not exposed.")
  | _ => none

end Notice

end WitSchema

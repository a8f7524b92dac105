import WitSchema.Json.Basic
import WitSchema.Json.Display
import WitSchema.Number.Double

/-! The native functions behind a schema, and the fields that call them. A
function answers from its arguments and from the calls made so far, its own
being the last of them. A failed call may be repeated, with a pause after every
failed attempt but the last. The one argument of a field is an object; its
members become the positional arguments in declared order. -/

namespace WitSchema.Binding

structure Call where
  name : String
  args : List Json

inductive Failure
  | raised (sort : String) (text : String)
  | notCallable (value : Json)
  | retryMissing

def sortName : Json → String
  | .null => "NoneType"
  | .bool _ => "bool"
  | .int _ => "int"
  | .float _ => "float"
  | .str _ => "str"
  | .arr _ => "list"
  | .obj _ => "dict"

def Failure.text : Failure → String
  | raised _ text => text
  | notCallable value => "'" ++ sortName value ++ "' object is not callable"
  | retryMissing => "Retry policy requires tenacity. Install with: pip install witgraphql[retry]"

inductive Native
  | function (answer : List Call → List Json → Except Failure Json)
  | value (v : Json)

abbrev NativeTable := List (String × Native)

def NativeTable.find? (table : NativeTable) (name : String) : Option Native :=
  match table.lookup name with
  | some (.value .null) => none
  | entry => entry

def Native.invoke (native : Native) (name : String) (args : List Json) (calls : List Call) :
    List Call × Except Failure Json :=
  match native with
  | .value v => (calls, .error (.notCallable v))
  | .function answer => (calls ++ [⟨name, args⟩], answer (calls ++ [⟨name, args⟩]) args)

inductive Backoff
  | none
  | linear
  | exponential
  deriving DecidableEq

structure RetryPolicy where
  maxAttempts : Int
  backoff : Backoff
  baseDelay : Float

def longestPause : Float := 4611686018427387904.0

def shorter (x y : Float) : Float := if y < x then y else x

def longer (x y : Float) : Float := if x < y then y else x

def RetryPolicy.pause (p : RetryPolicy) (n : Nat) : Float :=
  match p.backoff with
  | .none => 0.0
  | .linear =>
    longer 0.0 (shorter (p.baseDelay + p.baseDelay * Double.ofInt (n - 1 : Nat)) longestPause)
  | .exponential =>
    if 1024 < n then longestPause
    else longer (longer 0.0 p.baseDelay)
      (shorter (p.baseDelay * Double.ofInt (Double.twoTo (n - 1))) longestPause)

structure Run (ε : Type) where
  calls : List Call
  pauses : List Float
  result : Except ε Json

def attempts (act : List Call → List Call × Except Failure Json) (pause : Nat → Float) :
    (left n : Nat) → List Call → Run Failure
  | 0, _, calls => let (calls, r) := act calls; ⟨calls, [], r⟩
  | left + 1, n, calls =>
    match act calls with
    | (calls, .ok v) => ⟨calls, [], .ok v⟩
    | (calls, .error _) =>
      let run := attempts act pause left (n + 1) calls
      { run with pauses := pause n :: run.pauses }

/-- How many attempts may follow the first one; without retrying at hand there is no number. -/
def RetryPolicy.further (p : RetryPolicy) (available : Bool) : Option Nat :=
  if p.maxAttempts ≤ 1 then some 0
  else if available then some (p.maxAttempts - 1).toNat else none

def RetryPolicy.run (p : RetryPolicy) (available : Bool)
    (act : List Call → List Call × Except Failure Json) (calls : List Call) : Run Failure :=
  match p.further available with
  | none => ⟨calls, [], .error .retryMissing⟩
  | some left => attempts act p.pause left 1 calls

structure Resolver where
  function : Json
  field : String
  params : List String
  argument : String

inductive ResolveError
  | repeatedArgument (name : String)
  | notObject
  | missingBinding (function : Json) (field : String)
  | invocation (function : Json) (cause : Failure)

def ResolveError.message : ResolveError → String
  | repeatedArgument name =>
    "FunctionBinder._make_resolver.<locals>.resolve() got multiple values for argument '" ++ name ++
      "'"
  | notObject => "an object is needed"
  | missingBinding function field =>
    "No binding for exported function " ++ function.display ++ " (looked up " ++ quoted field ++ ")"
  | invocation function cause => "Error executing " ++ function.text ++ ": " ++ cause.text

structure Host where
  natives : NativeTable
  policy : RetryPolicy
  retryAvailable : Bool

/-- The positional arguments; what is absent is `null`. An absent input stands for an empty one. -/
def Resolver.positional (r : Resolver) (arguments : List (String × Json)) :
    Except ResolveError (List Json) :=
  match (arguments.lookup r.argument).getD .null with
  | .obj members => .ok (r.params.map fun p => (members.lookup p).getD .null)
  | input =>
    if input.isTruthy && !r.params.isEmpty then .error .notObject
    else .ok (r.params.map fun _ => .null)

def ownParameters : List String := ["_source", "_info"]

structure ReadyCall where
  function : Json
  field : String
  native : Native
  args : List Json

def ReadyCall.attempt (c : ReadyCall) (calls : List Call) : List Call × Except Failure Json :=
  c.native.invoke c.field c.args calls

def Resolver.ready (r : Resolver) (host : Host) (arguments : List (String × Json)) :
    Except ResolveError ReadyCall :=
  match ownParameters.find? fun p => (arguments.lookup p).isSome with
  | some p => .error (.repeatedArgument p)
  | none =>
    match r.positional arguments with
    | .error e => .error e
    | .ok args =>
      match host.natives.find? r.field with
      | none => .error (.missingBinding r.function r.field)
      | some native => .ok ⟨r.function, r.field, native, args⟩

def Resolver.run (r : Resolver) (host : Host) (arguments : List (String × Json))
    (calls : List Call) : Run ResolveError :=
  match r.ready host arguments with
  | .error e => ⟨calls, [], .error e⟩
  | .ok c =>
    let run := host.policy.run host.retryAvailable c.attempt calls
    { run with result := run.result.mapError (.invocation c.function) }

end WitSchema.Binding

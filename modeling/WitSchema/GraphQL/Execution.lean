import WitSchema.Binding.Resolver
import WitSchema.GraphQL.Input
import WitSchema.GraphQL.Completion

/-! Running a query. The calls for the fields of the query type go in turns:
each makes its first attempt before any makes its second, and in every turn
they go in the order of the fields. Every outcome is completed on its own. -/

namespace WitSchema.GraphQL

open Binding

inductive RootFault
  | argument (fault : ArgumentFault)
  | resolver (fault : ResolveError)

namespace RootFault

def message : RootFault → String
  | argument fault => fault.message
  | resolver fault => fault.message

def isEarly : RootFault → Bool
  | argument _ | resolver (.repeatedArgument _) => true
  | resolver _ => false

end RootFault

structure Settled where
  turn : Nat
  result : Except RootFault Json

inductive Attempted
  | settled (s : Settled)
  | waiting (c : ReadyCall)

namespace Attempted

def isWaiting : Attempted → Bool
  | settled _ => false
  | waiting _ => true

def ofResult (result : Except RootFault Json) : Attempted :=
  match result with
  | .error fault => .settled ⟨if fault.isEarly then 0 else 1, .error fault⟩
  | .ok v => .settled ⟨0, .ok v⟩

end Attempted

def Settled.ofAttempt (c : ReadyCall) (turn : Nat) (r : Except Failure Json) : Settled :=
  ⟨turn, r.mapError fun cause => .resolver (.invocation c.function cause)⟩

def Attempted.withoutRetry : Attempted → Settled
  | settled s => s
  | waiting c => .ofAttempt c 1 (.error .retryMissing)

namespace Turns

/-- A turn that others may follow: who fails waits for the next one. -/
def take (turn : Nat) (calls : List Call) : List Attempted → List Call × List Attempted
  | [] => (calls, [])
  | .settled s :: rest =>
    let (calls, rest) := take turn calls rest
    (calls, .settled s :: rest)
  | .waiting c :: rest =>
    let (calls, r) := c.attempt calls
    let after := match r with
      | .ok _ => .settled (.ofAttempt c turn r)
      | .error _ => .waiting c
    let (calls, rest) := take turn calls rest
    (calls, after :: rest)

def takeLast (turn : Nat) (calls : List Call) : List Attempted → List Call × List Settled
  | [] => (calls, [])
  | .settled s :: rest =>
    let (calls, rest) := takeLast turn calls rest
    (calls, s :: rest)
  | .waiting c :: rest =>
    let (calls, r) := c.attempt calls
    let (calls, rest) := takeLast turn calls rest
    (calls, .ofAttempt c turn r :: rest)

def run : (left turn : Nat) → List Call → List Attempted → List Call × List Settled
  | 0, turn, calls, fields => takeLast turn calls fields
  | left + 1, turn, calls, fields =>
    let (calls, fields) := take turn calls fields
    if fields.any (·.isWaiting) then run left (turn + 1) calls fields
    else takeLast (turn + 1) calls fields

end Turns

/-- A query that a schema executes: the fields collected from a document, the values of its
variables, and what it is told about the schema under the keys that ask for it. -/
structure Query (s : Schema) where
  plan : Plan
  values : Values
  described : String → Json
  distinct : plan.Distinct
  executable : s.isExecutable = true

/-- The fields that every query type has for questions about the schema, with their arguments. -/
def metaFields : List (String × Option (String × Ty)) :=
  [("__schema", none), ("__type", some ("name", .nonNull (.scalar .string)))]

def PlannedField.isMeta (f : PlannedField) : Bool := (metaFields.lookup f.name).isSome

namespace Query

variable {s : Schema}

def begin (q : Query s) (host : Host) (f : PlannedField) : Attempted :=
  if f.name = "__typename" then .ofResult (.ok (.str s.queryType))
  else match metaFields.lookup f.name with
    | some argument =>
      match argumentValues s.store q.values argument f.arguments with
      | .error fault => .ofResult (.error (.argument fault))
      | .ok _ => .ofResult (.ok (q.described f.key))
    | none =>
      match s.fields.lookup f.name with
      | none => .ofResult (.ok .null)
      | some field =>
        match argumentValues s.store q.values field.argument f.arguments with
        | .error fault => .ofResult (.error (.argument fault))
        | .ok arguments =>
          match field.resolver.ready host arguments with
          | .error e => .ofResult (.error (.resolver e))
          | .ok c => .waiting c

end Query

namespace Schema

def rootType (s : Schema) (name : String) : Ty :=
  if name = "__typename" then .nonNull (.scalar .string)
  else ((s.fields.lookup name).map (·.type)).getD (.scalar .string)

/-- The answer to a field of the query type. What is told about the schema is taken as it is. -/
def answer (s : Schema) (f : PlannedField) (outcome : Except RootFault Json) : Completion :=
  let t := s.rootType f.name
  let spot : Spot := ⟨[.str f.key], f.offsets, s.queryType ++ "." ++ f.name⟩
  match outcome with
  | .error fault => (spot.fail fault.message).settle t
  | .ok v =>
    if f.isMeta then .ok v
    else (completeWith (fun i v spot => answerObject (f.children.map (·.key))
      (answerMembers s.store i v spot.path f.children)) t v spot).settle t

end Schema

structure Response where
  data : Json
  errors : List FieldError

/-- The response of the outcomes. The errors of an earlier turn come first. -/
def Schema.respond (s : Schema) (results : List (PlannedField × Settled)) : Response :=
  let answerOf := fun r : PlannedField × Settled => s.answer r.1 r.2.result
  let root := answerObject (results.map (·.1.key)) (results.map answerOf)
  let inTurn := results.mergeSort fun a b => a.2.turn ≤ b.2.turn
  ⟨root.value.getD .null, inTurn.flatMap fun r => (answerOf r).errors⟩

namespace Query

variable {s : Schema}

def outcomes (q : Query s) (host : Host) (calls : List Call) :
    List Call × List (PlannedField × Settled) :=
  let fields := q.plan.map (q.begin host)
  let (calls, settled) := match host.policy.further host.retryAvailable with
    | none => (calls, fields.map (·.withoutRetry))
    | some left => Turns.run left 1 calls fields
  (calls, q.plan.zip settled)

def execute (q : Query s) (host : Host) : List Call × Response :=
  let (calls, results) := q.outcomes host []
  (calls, s.respond results)

end Query

/-- What becomes of a document with the values given to its variables: its query is executed, it is
refused with errors, or it nests too deep to be read. -/
inductive Preparation (s : Schema)
  | accepted (query : Query s)
  | refused (error : Json) (more : List Json)
  | tooDeep

/-- A way to read documents, to check them against a schema and to collect their fields. -/
abbrev FrontEnd := (s : Schema) → String → List (String × Json) → Preparation s

end WitSchema.GraphQL

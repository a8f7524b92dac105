import WitSchema.Json.Display
import WitSchema.Settings.Basic
import WitSchema.Settings.DotEnv
import WitSchema.Text.LetterCase

/-! Reading settings. Explicit values come first, then the environment, then
the file of settings, then the defaults. Every setting is checked, and all
faults are reported in the order of the settings. -/

namespace WitSchema

inductive SettingFault
  | text
  | boolean
  | booleanText
  | integer
  | integerText
  | integerSize
  | integerFraction
  | notFinite
  | number
  | numberText
  | below (least : Nat)
  | choice

namespace SettingFault

def sort : SettingFault → String
  | text => "string_type"
  | boolean => "bool_type"
  | booleanText => "bool_parsing"
  | integer => "int_type"
  | integerText => "int_parsing"
  | integerSize => "int_parsing_size"
  | integerFraction => "int_from_float"
  | notFinite => "finite_number"
  | number => "float_type"
  | numberText => "float_parsing"
  | below _ => "greater_than_equal"
  | choice => "literal_error"

def message : SettingFault → String
  | text => "Input should be a valid string"
  | boolean => "Input should be a valid boolean"
  | booleanText => "Input should be a valid boolean, unable to interpret input"
  | integer => "Input should be a valid integer"
  | integerText => "Input should be a valid integer, unable to parse string as an integer"
  | integerSize => "Unable to parse input string as an integer, exceeded maximum size"
  | integerFraction => "Input should be a valid integer, got a number with a fractional part"
  | notFinite => "Input should be a finite number"
  | number => "Input should be a valid number"
  | numberText => "Input should be a valid number, unable to parse string as a number"
  | below least => "Input should be greater than or equal to " ++ toString least
  | choice => "Input should be 'none', 'linear' or 'exponential'"

end SettingFault

structure Violation where
  field : String
  fault : SettingFault
  input : Json

namespace Settings

abbrev Check (α : Type) := Json → Except SettingFault α

def checkText : Check String
  | .str s => .ok s
  | _ => .error .text

def checkOptionalText : Check (Option String)
  | .null => .ok none
  | v => (checkText v).map some

def booleanWords : List (String × Bool) :=
  [("0", false), ("off", false), ("f", false), ("false", false), ("n", false), ("no", false),
    ("1", true), ("on", true), ("t", true), ("true", true), ("y", true), ("yes", true)]

def isWord (n : Int) : Bool := -(Double.twoTo 63 : Int) ≤ n && n < Double.twoTo 63

def booleanOfInt (n : Int) : Except SettingFault Bool :=
  if n = 0 then .ok false else if n = 1 then .ok true
  else if isWord n then .error .booleanText else .error .boolean

def integerOfFloat (x : Float) : Except SettingFault Int :=
  let d := Double.ofFloat x
  if !d.isFinite then .error .notFinite
  else match d.integer? with
    | none => .error .integerFraction
    | some n => if n.natAbs < Double.twoTo 63 then .ok n else .error .integerSize

def checkBoolean : Check Bool
  | .bool b => .ok b
  | .int n => booleanOfInt n
  | .float x => (integerOfFloat x).toOption.elim (.error .boolean) booleanOfInt
  | .str s => (booleanWords.lookup s.toLower).elim (.error .booleanText) .ok
  | _ => .error .boolean

def integerOfText (s : String) : Except SettingFault Int :=
  if Figure.isOverlong s.toList then .error .integerSize
  else (Figure.integer? s.toList).elim (.error .integerText) .ok

def anyInteger : Check Int
  | .bool b => .ok (if b then 1 else 0)
  | .int n => .ok n
  | .float x => integerOfFloat x
  | .str s => integerOfText s
  | _ => .error .integer

def checkAttempts (v : Json) : Except SettingFault Int := do
  let n ← anyInteger v
  if n < 1 then .error (.below 1) else return n

def checkBackoff : Check Binding.Backoff
  | .str "none" => .ok .none
  | .str "linear" => .ok .linear
  | .str "exponential" => .ok .exponential
  | _ => .error .choice

def anyNumber : Check Float
  | .bool b => .ok (if b then 1.0 else 0.0)
  | .int n =>
    let x := Double.ofInt n
    if (Double.ofFloat x).isFinite then .ok x else .error .number
  | .float x => .ok x
  | .str s => (Figure.number? s.toList).elim (.error .numberText) .ok
  | _ => .error .number

def checkDelay (v : Json) : Except SettingFault Float := do
  let x ← anyNumber v
  if 0.0 ≤ x then return x else .error (.below 0)

structure Sources where
  given : List (String × Json)
  env : List (String × String)
  file : List (String × Option String)

/-- The variable of a setting, in lower case; variables are told apart without regard to case. -/
def variableOf (field : String) : String := "witgraphql_" ++ field

def lowerCase (name : String) : String := String.ofList (name.toList.flatMap LetterCase.lower)

def lastOf (field : String) (entries : List (String × α)) : Option α :=
  (entries.reverse.find? fun e => lowerCase e.1 == variableOf field).map (·.2)

def Sources.find? (s : Sources) (field : String) : Option Json :=
  match s.given.lookup field with
  | some v => some v
  | none =>
    match lastOf field s.env with
    | some v => some (.str v)
    | none => ((lastOf field s.file).join).map .str

def Sources.field (s : Sources) (name : String) (default : α) (check : Check α) :
    α × List Violation :=
  match s.find? name with
  | none => (default, [])
  | some v =>
    match check v with
    | .ok x => (x, [])
    | .error fault => (default, [⟨name, fault, v⟩])

def read (s : Sources) : Except (List Violation) Settings :=
  let d := Settings.default
  let (queryTypeName, v₁) := s.field "query_type_name" d.queryTypeName checkText
  let (inputArgumentName, v₂) := s.field "input_argument_name" d.inputArgumentName checkText
  let (worldName, v₃) := s.field "world_name" d.worldName checkOptionalText
  let (nullableOptions, v₄) := s.field "nullable_options" d.nullableOptions checkBoolean
  let (maxAttempts, v₅) := s.field "retry_max_attempts" d.retry.maxAttempts checkAttempts
  let (backoff, v₆) := s.field "retry_backoff" d.retry.backoff checkBackoff
  let (baseDelay, v₇) := s.field "retry_base_delay" d.retry.baseDelay checkDelay
  let violations := v₁ ++ v₂ ++ v₃ ++ v₄ ++ v₅ ++ v₆ ++ v₇
  if violations.isEmpty then
    .ok ⟨queryTypeName, inputArgumentName, worldName, nullableOptions,
      ⟨maxAttempts, backoff, baseDelay⟩⟩
  else .error violations

def load (given : List (String × Json)) (env : List (String × String)) (file : Option String) :
    Except (List Violation) Settings :=
  read ⟨given, env, (file.map (DotEnv.read env)).getD []⟩

end Settings

end WitSchema

import WitSchema.Binding.Resolver
import WitSchema.GraphQL.Input
import WitSchema.GraphQL.Plan
import WitSchema.Json.Display
import WitSchema.Number.Double

/-! Values on their way out. A scalar takes whatever stands for one of its values
without loss: numbers in text, truth values as numbers, numbers as text. To the
name of a field an object answers with its member. A number has a few parts;
operations on numbers, texts and lists are found by name too, and are called
with nothing but the description of the field, which most of them refuse.

Results are completed against their types. What fails becomes `null` with an
error that says where, unless its type has no `null`; then what holds it
fails. -/

namespace WitSchema.GraphQL

inductive OutputFault
  | notInteger (v : Json)
  | notSmall (v : Json)
  | notNumber (v : Json)
  | notExact (v : Json)
  | tooLarge (v : Json)
  | notText (v : Json)
  | notBoolean (v : Json)

def shown (v : Json) : String := v.abridged 2

def OutputFault.message : OutputFault → String
  | notInteger v => "Int cannot represent non-integer value: " ++ shown v
  | notSmall v => "Int cannot represent non 32-bit signed integer value: " ++ shown v
  | notNumber v => "Float cannot represent non numeric value: " ++ shown v
  | notExact v =>
    "Float cannot represent non numeric value: " ++ shown v ++ " (value would lose precision)"
  | tooLarge v => "Float cannot represent non numeric value: " ++ shown v ++ " (value is too large)"
  | notText v => "String cannot represent value: " ++ shown v
  | notBoolean v => "Boolean cannot represent a non boolean value: " ++ shown v

namespace Scalar

def integerOf? : Json → Option Int
  | .bool b => some (if b then 1 else 0)
  | .int n => some n
  | .float x => (Double.ofFloat x).integer?
  | .str s => Numeral.integer? s
  | _ => none

def intOutput (v : Json) : Except OutputFault Json :=
  match integerOf? v with
  | some n => (int? n).elim (.error (.notSmall v)) .ok
  | none => .error (.notInteger v)

def finiteOutput (v : Json) (x : Float) : Except OutputFault Json :=
  if (Double.ofFloat x).isFinite then .ok (.float x) else .error (.notNumber v)

def floatOutput (v : Json) : Except OutputFault Json :=
  match v with
  | .bool b => .ok (.int (if b then 1 else 0))
  | .int n =>
    if (Double.ofFloat (Double.ofInt n)).isFinite then
      (exactFloat? n).elim (.error (.notExact v)) .ok
    else .error (.tooLarge v)
  | .float x => finiteOutput v x
  | .str s => (Numeral.number? s).elim (.error (.notNumber v)) (finiteOutput v)
  | _ => .error (.notNumber v)

def stringOutput (v : Json) : Except OutputFault Json :=
  match v with
  | .str s => .ok (.str s)
  | .bool b => .ok (.str (if b then "true" else "false"))
  | .int n => .ok (.str (toString n))
  | .float x =>
    if (Double.ofFloat x).isFinite then .ok (.str (floatText x)) else .error (.notText v)
  | _ => .error (.notText v)

def booleanOutput (v : Json) : Except OutputFault Json :=
  match v with
  | .bool b => .ok (.bool b)
  | .int n => .ok (.bool (n != 0))
  | .float x =>
    if (Double.ofFloat x).isFinite then .ok (.bool (x != 0.0)) else .error (.notBoolean v)
  | _ => .error (.notBoolean v)

def output : Scalar → Json → Except OutputFault Json
  | int => intOutput
  | float => floatOutput
  | string => stringOutput
  | boolean => booleanOutput

end Scalar

end WitSchema.GraphQL

namespace WitSchema.GraphQL.Attribute

open Binding

/-- What a value answers: another value, or why there is none. -/
abbrev Answer := Except String Json

def description : String := "GraphQLResolveInfo"

def takesNothing (sort name : String) : Answer :=
  .error (sort ++ "." ++ name ++ "() takes no arguments (1 given)")

def needsInteger (sort : String) : Answer :=
  .error ("'" ++ sort ++ "' object cannot be interpreted as an integer")

def needsText : Answer := .error ("must be str, not " ++ description)

/-- What an integer answers; `sort` tells truth values, which are integers too, from others. -/
def ofInteger (sort : String) (n : Int) (name : String) : Answer :=
  if ["real", "numerator"].contains name then .ok (.int n)
  else if name = "imag" then .ok (.int 0)
  else if name = "denominator" then .ok (.int 1)
  else if ["as_integer_ratio", "bit_count", "bit_length", "conjugate"].contains name then
    takesNothing sort name
  else if name = "from_bytes" then needsInteger "str"
  else if name = "to_bytes" then needsInteger description
  else .ok .null

def ofFloat (x : Float) (name : String) : Answer :=
  if name = "real" then .ok (.float x)
  else if name = "imag" then .ok (.float 0.0)
  else if ["as_integer_ratio", "conjugate", "hex", "is_integer"].contains name then
    takesNothing "float" name
  else if name = "fromhex" then .error "bad argument type for built-in operation"
  else .ok .null

def textOnly : List String :=
  ["capitalize", "casefold", "isalnum", "isalpha", "isascii", "isdecimal", "isdigit",
    "isidentifier", "islower", "isnumeric", "isprintable", "isspace", "istitle", "isupper",
    "lower", "swapcase", "title", "upper"]

def searches : List String :=
  ["count", "find", "index", "partition", "rfind", "rindex", "rpartition"]

def widths : List String := ["center", "expandtabs", "ljust", "rjust", "splitlines", "zfill"]

def meets (name : String) (found : Bool) : Answer :=
  if found then .ok (.bool true)
  else .error ("tuple for " ++ name ++ " must only contain str, not list")

def ofText (s name : String) : Answer :=
  if textOnly.contains name then takesNothing "str" name
  else if searches.contains name then needsText
  else if widths.contains name then needsInteger description
  else match name with
    | "split" | "rsplit" => .error ("must be str or None, not " ++ description)
    | "strip" | "lstrip" | "rstrip" => .error (name ++ " arg must be None or str")
    | "removeprefix" | "removesuffix" =>
      .error (name ++ "() argument must be str, not " ++ description)
    | "encode" => .error ("encode() argument 'encoding' must be str, not " ++ description)
    | "join" => .error "sequence item 1: expected str instance, list found"
    | "maketrans" => .error "if you give only one argument to maketrans it must be a dict"
    | "replace" => .error "replace expected at least 2 arguments, got 1"
    | "startswith" => meets name (name.toList.isPrefixOf s.toList)
    | "endswith" => meets name (name.toList.isSuffixOf s.toList)
    | "format" | "format_map" | "translate" => .ok (.str s)
    | _ => .ok .null

def ofList (name : String) : Answer :=
  match name with
  | "clear" | "copy" | "reverse" => takesNothing "list" name
  | "count" => .ok (.int 0)
  | "index" => .error (description ++ "() is not in list")
  | "insert" => .error "insert expected 2 arguments, got 1"
  | "pop" => needsInteger description
  | "remove" => .error "list.remove(x): x not in list"
  | "sort" => .error "sort() takes no positional arguments"
  | _ => .ok .null

def ofValue (source : Json) (name : String) : Answer :=
  match source with
  | .null => .ok .null
  | .bool b => ofInteger "bool" (if b then 1 else 0) name
  | .int n => ofInteger "int" n name
  | .float x => ofFloat x name
  | .str s => ofText s name
  | .arr _ => ofList name
  | .obj members => .ok ((members.lookup name).getD .null)

end WitSchema.GraphQL.Attribute

namespace WitSchema.GraphQL

structure FieldError where
  path : List Json
  offsets : List Nat
  message : String

/-- What came of a value: the errors below it and the value, unless it failed as a whole. -/
structure Completion where
  errors : List FieldError
  value : Option Json

namespace Completion

def ok (v : Json) : Completion := ⟨[], some v⟩

def settle (t : Ty) (c : Completion) : Completion :=
  if t.isNonNull then c else { c with value := some (c.value.getD .null) }

def all : List Completion → List FieldError × Option (List Json)
  | [] => ([], some [])
  | c :: rest =>
    let (errors, values) := all rest
    (c.errors ++ errors, do return (← c.value) :: (← values))

end Completion

structure Spot where
  path : List Json
  offsets : List Nat
  field : String

def Spot.fail (spot : Spot) (message : String) : Completion :=
  ⟨[⟨spot.path, spot.offsets, message⟩], none⟩

def Spot.element (spot : Spot) (index : Nat) : Spot :=
  { spot with path := spot.path ++ [.int index] }

def completeWith (object : Nat → Json → Spot → Completion) : Ty → Json → Spot → Completion
  | .nonNull inner, v, spot =>
    let c := completeWith object inner v spot
    if c.value.any Json.isNull then
      ⟨c.errors ++ [⟨spot.path, spot.offsets,
        "Cannot return null for non-nullable field " ++ spot.field ++ "."⟩], none⟩
    else c
  | .scalar scalar, v, spot =>
    if v.isNull then .ok .null
    else match scalar.output v with
      | .ok v => .ok v
      | .error fault => spot.fail fault.message
  | .list _ _ item, v, spot =>
    match v with
    | .null => .ok .null
    | .arr items =>
      let (errors, values) := Completion.all <| items.mapIdx fun i v =>
        (completeWith object item v (spot.element i)).settle item
      ⟨errors, values.map .arr⟩
    | _ => spot.fail ("Expected Iterable, but did not find one for field '" ++ spot.field ++ "'.")
  | .aggregate _ index, v, spot => if v.isNull then .ok .null else object index v spot

def answerObject (keys : List String) (answers : List Completion) : Completion :=
  let (errors, values) := Completion.all answers
  ⟨errors, values.map fun values => .obj (keys.zip values)⟩

mutual

def answerMember (s : Store) (index : Nat) (source : Json) (path : List Json) :
    PlannedField → Completion
  | ⟨key, name, _, offsets, _, children⟩ =>
    match s.get? .output index with
    | none => .ok .null
    | some a =>
      if name = "__typename" then .ok (.str a.name)
      else match a.fields.lookup name with
        | none => .ok .null
        | some m =>
          let spot : Spot := ⟨path ++ [.str key], offsets, a.name ++ "." ++ name⟩
          match Attribute.ofValue source name with
          | .error message => (spot.fail message).settle m.type
          | .ok v =>
            (completeWith (fun i v spot => answerObject (children.map (·.key))
              (answerMembers s i v spot.path children)) m.type v spot).settle m.type

def answerMembers (s : Store) (index : Nat) (source : Json) (path : List Json) :
    List PlannedField → List Completion
  | [] => []
  | f :: rest => answerMember s index source path f :: answerMembers s index source path rest

end

end WitSchema.GraphQL

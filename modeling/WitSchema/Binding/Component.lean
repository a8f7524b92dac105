import WitSchema.Binding.Resolver
import WitSchema.Json.Display
import WitSchema.Text.Quoted

/-! Components that offer native functions. What a component offers under a
name can be called or not; the callable names that do not start with an
underscore make up its table. Components are found by name, and a dotted name
is looked for part by part. Where no component is named, the operations of an
empty list are at hand, and every call finds the list empty. -/

namespace WitSchema.Binding

/-- What stands under a name of a component. A class is not counted as a function. -/
inductive Attribute
  | callable (answer : List Call → List Json → Except Failure Json)
  | classObject
  | value (v : Json)

def Attribute.ofNative : Native → Attribute
  | .function answer => .callable answer
  | .value v => .value v

def isPublic (name : String) : Bool := name.toList.head? != some '_'

/-- The public functions of a component by name, in the order of code points. -/
def NativeTable.ofAttributes (attributes : List (String × Attribute)) : NativeTable :=
  let functions := attributes.filterMap fun entry =>
    match entry.2 with
    | .callable answer =>
      if isPublic entry.1 then some (entry.1, Native.function answer) else none
    | _ => none
  functions.mergeSort fun a b => a.1 ≤ b.1

/-- How the code of a component fails while it is loaded, and whether failures of this kind are
reported. -/
structure Breakdown where
  isReported : Bool
  text : String

inductive ComponentFault
  | empty
  | relative
  | missing (name : String)
  | notPackage (name parent : String)
  | broken (b : Breakdown)

def ComponentFault.message : ComponentFault → String
  | empty => "Empty module name"
  | relative => "a name must not start with a point"
  | missing name => "No module named " ++ quoted name
  | notPackage name parent =>
    "No module named " ++ quoted name ++ "; " ++ quoted parent ++ " is not a package"
  | broken b => b.text

abbrev Components := List (String × Except Breakdown NativeTable)

def partialNames (passed : List Char) : List Char → List String
  | [] => [String.ofList passed.reverse]
  | c :: rest =>
    if c = '.' then String.ofList passed.reverse :: partialNames (c :: passed) rest
    else partialNames (c :: passed) rest

/-- The component of the last of these names; the first that is not found is reported with the
one before it. -/
def Components.descend (components : Components) (parent : Option String) :
    List String → Except ComponentFault NativeTable
  | [] => .error .empty
  | name :: rest =>
    match components.lookup name with
    | some (.ok table) => if rest.isEmpty then .ok table else components.descend (some name) rest
    | some (.error b) => .error (.broken b)
    | none =>
      match parent with
      | some parent => .error (.notPackage name parent)
      | none => .error (.missing name)

def Components.find (components : Components) (name : String) :
    Except ComponentFault NativeTable :=
  match name.toList with
  | [] => .error .empty
  | '.' :: _ => .error .relative
  | cs => components.descend none (partialNames [] cs)

end WitSchema.Binding

namespace WitSchema.Binding.Unnamed

def refuse (text : String) : Except Failure Json := .error (.raised "TypeError" text)

def isIndex : Json → Bool
  | .int _ | .bool _ => true
  | _ => false

def isIterable : Json → Bool
  | .str _ | .arr _ | .obj _ => true
  | _ => false

def given (args : List Json) : String := "(" ++ toString args.length ++ " given)"

def refuseIndex (v : Json) : Except Failure Json :=
  refuse ("'" ++ sortName v ++ "' object cannot be interpreted as an integer")

def one (name : String) (args : List Json) : Except Failure Json :=
  match args with
  | [v] =>
    if name = "count" then .ok (.int 0)
    else if name = "remove" then .error (.raised "ValueError" "list.remove(x): x not in list")
    else if name = "extend" && !isIterable v then
      refuse ("'" ++ sortName v ++ "' object is not iterable")
    else .ok .null
  | _ => refuse ("list." ++ name ++ "() takes exactly one argument " ++ given args)

def bare (name : String) (args : List Json) : Except Failure Json :=
  if !args.isEmpty then refuse ("list." ++ name ++ "() takes no arguments " ++ given args)
  else .ok (if name = "copy" then .arr [] else .null)

def sort (args : List Json) : Except Failure Json :=
  if args.isEmpty then .ok .null
  else if args.length ≤ 2 then refuse "sort() takes no positional arguments"
  else refuse ("sort() takes at most 2 arguments " ++ given args)

def index (args : List Json) : Except Failure Json :=
  match args with
  | [] => refuse "index expected at least 1 argument, got 0"
  | v :: bounds =>
    if 2 < bounds.length then
      refuse ("index expected at most 3 arguments, got " ++ toString args.length)
    else if bounds.all isIndex then
      .error (.raised "ValueError" (v.display ++ " is not in list"))
    else refuse "slice indices must be integers or have an __index__ method"

def insert (args : List Json) : Except Failure Json :=
  match args with
  | [place, _] => if isIndex place then .ok .null else refuseIndex place
  | _ => refuse ("insert expected 2 arguments, got " ++ toString args.length)

def pop (args : List Json) : Except Failure Json :=
  match args with
  | _ :: _ :: _ => refuse ("pop expected at most 1 argument, got " ++ toString args.length)
  | args =>
    match args.find? (!isIndex ·) with
    | some place => refuseIndex place
    | none => .error (.raised "IndexError" "pop from empty list")

def operations : List (String × (List Json → Except Failure Json)) :=
  [("append", one "append"), ("clear", bare "clear"), ("copy", bare "copy"),
    ("count", one "count"), ("extend", one "extend"), ("index", index), ("insert", insert),
    ("pop", pop), ("remove", one "remove"), ("reverse", bare "reverse"), ("sort", sort)]

def table : NativeTable := operations.map fun o => (o.1, .function fun _ args => o.2 args)

end WitSchema.Binding.Unnamed

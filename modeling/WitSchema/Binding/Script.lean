import WitSchema.Binding.Resolver
import WitSchema.Json.Display

/-! Scripted natives. A component without code is described by JSON: each
function fails at first, raises, gives a fixed value, or gives back one of its
arguments as it is or reversed; a function that says nothing of the kind gives
back the list of its arguments. -/

namespace WitSchema.Binding

/-- The text of a lost connection: a code, a cause, and what it is about. Of the parts after the
cause the first and the third are shown. -/
def connectionText (code cause : Json) (about : List Json) : String :=
  let head := "[Errno " ++ code.text ++ "] " ++ cause.text
  match about.headD .null, (about[2]?).getD .null with
  | .null, _ => head
  | first, .null => head ++ ": " ++ first.display
  | first, third => head ++ ": " ++ first.display ++ " -> " ++ third.display

/-- The text of a failure raised with these arguments: nothing, the one argument, or all of them
in parentheses. A missing key is shown quoted. -/
def raisedText (sort : String) (args : List Json) : String :=
  match args with
  | [] => ""
  | [a] => if sort = "KeyError" then a.display else a.text
  | code :: cause :: about =>
    if sort = "ConnectionError" && about.length ≤ 3 then connectionText code cause about
    else "(" ++ String.intercalate ", " (args.map Json.display) ++ ")"

def raise (sort : String) (args : List Json) : Except Failure Json :=
  .error (.raised sort (raisedText sort args))

def argument (args : List Json) (index : Int) : Except Failure Json :=
  let place := if index < 0 then index + args.length else index
  if 0 ≤ place then
    (args[place.toNat]?).elim (raise "IndexError" [.str "tuple index out of range"]) .ok
  else raise "IndexError" [.str "tuple index out of range"]

def reversed : Json → Except Failure Json
  | .str s => .ok (.str (String.ofList s.toList.reverse))
  | .arr items => .ok (.arr items.reverse)
  | .obj _ => raise "TypeError" [.str "unhashable type: 'slice'"]
  | v => raise "TypeError" [.str ("'" ++ sortName v ++ "' object is not subscriptable")]

def integerOf : Option Json → Option Int
  | some (.int n) => some n
  | _ => none

def scripted (script : Json) (name : String) (calls : List Call) (args : List Json) :
    Except Failure Json :=
  let own := (calls.filter (·.name == name)).length
  if (own : Int) ≤ (integerOf (script.member? "fail_first")).getD 0 then
    raise "ConnectionError" [.str ("failure " ++ toString calls.length)]
  else match script.member? "raise", script.member? "args" with
    | some (.str sort), some (.arr raised) => raise sort raised
    | some (.str sort), _ => raise sort []
    | _, _ =>
      match script.member? "return" with
      | some v => .ok v
      | none =>
        match integerOf (script.member? "arg"), integerOf (script.member? "reverse") with
        | some index, _ => argument args index
        | none, some index => (argument args index).bind reversed
        | none, none => .ok (.arr args)

def Native.ofScript (name : String) (script : Json) : Native :=
  match script.member? "object" with
  | some v => .value v
  | none => .function (scripted script name)

def NativeTable.ofScripts (scripts : List (String × Json)) : NativeTable :=
  scripts.map fun s => (s.1, Native.ofScript s.1 s.2)

end WitSchema.Binding

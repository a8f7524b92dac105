import WitSchema.Binding.Resolver
import WitSchema.Number.Numeral

/-! The settings of a schema build, and numbers written in settings. An integer
may have a plus sign, leading zeros, underscores between digits and a fraction
of zeros; a number with a fraction may have underscores between other
characters, but then no blanks around it. -/

namespace WitSchema

structure Settings where
  queryTypeName : String
  inputArgumentName : String
  worldName : Option String
  nullableOptions : Bool
  retry : Binding.RetryPolicy

def Settings.default : Settings where
  queryTypeName := "Query"
  inputArgumentName := "input"
  worldName := none
  nullableOptions := false
  retry := ⟨1, .none, 0.1⟩

end WitSchema

namespace WitSchema.Figure

/-- An integer in the plain form: a minus sign if it is negative, and digits without leading
zeros. -/
def plain? (cs : List Char) : Option Int :=
  match cs with
  | '+' :: _ | '0' :: _ :: _ | '-' :: '0' :: _ :: _ => none
  | _ => Numeral.plainInteger? cs

def isOverlong (cs : List Char) : Bool :=
  let digits := match cs with
    | '-' :: rest => rest
    | _ => cs
  let size := (digits.takeWhile Char.isDigit).length
  digits.head? != some '0' && 0 < size && Numeral.digitLimit < size + (cs.length - digits.length)

/-- The text from the first digit on that is not zero, after a zero. Single underscores may stand
among the zeros, a minus sign ends them, and the zero before a point is kept. -/
def dropZeros (previous : Char) : List Char → Option (List Char)
  | [] => some [previous]
  | c :: rest =>
    if c = '0' ∨ (c = '_' ∧ previous = '0') then dropZeros c rest
    else if c = '.' then some (previous :: c :: rest)
    else if c = '-' ∨ c.isDigit then some (c :: rest)
    else none

def withoutLeadingZeros : List Char → Option (List Char)
  | '0' :: rest => dropZeros '0' rest
  | c :: rest => if c = '-' ∨ c.isDigit then some (c :: rest) else none
  | [] => none

def withoutZeroFraction (cs : List Char) : List Char :=
  let whole := cs.takeWhile (· != '.')
  match cs.drop whole.length with
  | _ :: '0' :: rest => if rest.all (· == '0') then whole else cs
  | _ => cs

def withoutSeparators (cs : List Char) : Option (List Char) := Numeral.joinGroups ' ' cs

def withoutPlus : List Char → Option (List Char)
  | '+' :: '-' :: _ => none
  | '+' :: rest => some rest
  | cs => some cs

def plainForm (cs : List Char) : Option (List Char) := do
  let cs ← withoutPlus (Numeral.trimBlanks cs)
  withoutSeparators (withoutZeroFraction (← withoutLeadingZeros cs))

def integer? (cs : List Char) : Option Int :=
  match plain? cs with
  | some n => some n
  | none => do
    let plain ← plainForm cs
    if isOverlong plain then none else plain? plain

def hasDoubled : List Char → Bool
  | '_' :: '_' :: _ => true
  | _ :: rest => hasDoubled rest
  | [] => false

def number? (cs : List Char) : Option Float :=
  match Numeral.plainNumber? (Numeral.trimBlanks cs) with
  | some x => some x
  | none =>
    if cs.head? == some '_' || cs.getLast? == some '_' || hasDoubled cs then none
    else Numeral.plainNumber? (cs.filter (· != '_'))

end WitSchema.Figure

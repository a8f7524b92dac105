import WitSchema.Error
import WitSchema.Json.Basic

/-! Taking a document apart. Each function says what a piece has to be for one
use of it and gives the fault otherwise. -/

namespace WitSchema.Json

def shapeFault (fault : ShapeFault) : Except Error α := .error (.shape fault)

def item (v : Json) (key : String) : Except Error Json :=
  match v with
  | obj members => (members.lookup key).elim (shapeFault (.missingKey key)) .ok
  | _ => shapeFault .notKeyed

def find (v : Json) (key : String) : Except Error (Option Json) :=
  match v with
  | obj members => .ok (members.lookup key)
  | _ => shapeFault .notObject

def get (v : Json) (key : String) : Except Error Json :=
  (v.find key).map (·.getD null)

def entries : Json → Except Error (List (String × Json))
  | obj members => .ok members
  | _ => shapeFault .notObject

/-- What a value yields one by one: items of an array, characters of a text, keys of an object. -/
def elements : Json → Except Error (List Json)
  | arr items => .ok items
  | str s => .ok (s.toList.map fun c => str (String.ofList [c]))
  | obj members => .ok (members.map fun m => str m.1)
  | _ => shapeFault .notIterable

def elementsIfAny (v : Json) : Except Error (List Json) :=
  if v.isTruthy then v.elements else .ok []

def entriesIfAny (v : Json) : Except Error (List (String × Json)) :=
  if v.isTruthy then v.entries else .ok []

def occursIn (word : List Char) : List Char → Bool
  | [] => word.isEmpty
  | c :: rest => word.isPrefixOf (c :: rest) || occursIn word rest

def has (v : Json) (word : String) : Except Error Bool :=
  match v with
  | obj members => .ok (members.lookup word).isSome
  | arr items => .ok (items.any (· == str word))
  | str s => .ok (occursIn word.toList s.toList)
  | _ => shapeFault .notContainer

def pair (v : Json) : Except Error (Json × Json) := do
  match ← v.elements with
  | [a, b] => .ok (a, b)
  | [] => shapeFault (.tooFew 2 0)
  | [_] => shapeFault (.tooFew 2 1)
  | _ => shapeFault (.tooMany 2)

def onlyEntry (v : Json) : Except Error (String × Json) := do
  match ← v.entries with
  | [m] => .ok m
  | [] => shapeFault (.tooFew 1 0)
  | _ => shapeFault (.tooMany 1)

def isKey : Json → Bool
  | arr _ | obj _ => false
  | _ => true

def asKey (v : Json) : Except Error Json := if v.isKey then .ok v else shapeFault .notKey

def mapOfPairs (index : Nat) : List Json → Except Error (List (Json × Json))
  | [] => .ok []
  | v :: rest => do
    match ← v.elements with
    | [a, b] =>
      let key ← a.asKey
      return (key, b) :: (← mapOfPairs (index + 1) rest)
    | items => shapeFault (.pairLength index items.length)

def mapping (v : Json) : Except Error (List (Json × Json)) :=
  if !v.isTruthy then .ok []
  else match v with
    | obj members => .ok (members.map fun m => (str m.1, m.2))
    | _ => do return insertPairs (← mapOfPairs 0 (← v.elements))

end WitSchema.Json

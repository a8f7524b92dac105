import WitSchema.Json.Basic
import WitSchema.Number.Double
import WitSchema.Text.Quoted

/-! JSON values as texts. `Json.display` shows all of a value in a message,
`Json.text` leaves a string unquoted, and `Json.abridged` cuts long texts, long
lists and deep nesting. `Json.compact` prints on one line with a space after
commas and colons, `Json.pretty` one value a line with two blanks of
indentation a level, both in ASCII. -/

namespace WitSchema.Json

def boolText (b : Bool) : String := if b then "True" else "False"

def bracketed (parts : List String) : String := "[" ++ String.intercalate ", " parts ++ "]"

def braced (parts : List String) : String := "\x7b" ++ String.intercalate ", " parts ++ "\x7d"

mutual

def display : Json → String
  | null => "None"
  | bool b => boolText b
  | int n => toString n
  | float x => floatText x
  | str s => quoted s
  | arr items => bracketed (displayItems items)
  | obj members => braced (displayMembers members)

def displayItems : List Json → List String
  | [] => []
  | v :: rest => v.display :: displayItems rest

def displayMembers : List (String × Json) → List String
  | [] => []
  | (k, v) :: rest => (quoted k ++ ": " ++ v.display) :: displayMembers rest

end

def text : Json → String
  | str s => s
  | v => v.display

def cutText (s : String) : String :=
  let cs := s.toList
  if cs.length ≤ 240 then s
  else String.ofList (cs.take 118) ++ "..." ++ String.ofList (cs.drop (cs.length - 119))

def cutParts (parts : List String) : List String :=
  if parts.length ≤ 10 then parts
  else parts.take 5 ++ "..." :: parts.drop (parts.length - 4)

mutual

def abridged (levels : Nat) : Json → String
  | int n => cutText (toString n)
  | str s => cutText (quoted s)
  | arr items =>
    if items.isEmpty then bracketed []
    else match levels with
      | 0 => bracketed ["..."]
      | n + 1 => bracketed (cutParts (abridgedItems n items))
  | obj members =>
    if members.isEmpty then braced []
    else match levels with
      | 0 => braced ["..."]
      | n + 1 => braced (cutParts (abridgedMembers n members))
  | v => v.display

def abridgedItems (levels : Nat) : List Json → List String
  | [] => []
  | v :: rest => v.abridged levels :: abridgedItems levels rest

def abridgedMembers (levels : Nat) : List (String × Json) → List String
  | [] => []
  | (k, v) :: rest =>
    (cutText (quoted k) ++ ": " ++ v.abridged levels) :: abridgedMembers levels rest

end

def unitEscape (n : Nat) : List Char := '\\' :: 'u' :: Quoted.hex 4 n

def escapeChar (c : Char) : List Char :=
  if c = '"' ∨ c = '\\' then ['\\', c]
  else if c = '\n' then ['\\', 'n']
  else if c = '\r' then ['\\', 'r']
  else if c = '\t' then ['\\', 't']
  else if c = '\x08' then ['\\', 'b']
  else if c = '\x0c' then ['\\', 'f']
  else if 0x20 ≤ c.toNat ∧ c.toNat < 0x7f then [c]
  else
    let n := Surrogate.codePoint c
    if n < 0x10000 then unitEscape n
    else unitEscape (0xd800 + (n - 0x10000) / 0x400) ++ unitEscape (0xdc00 + (n - 0x10000) % 0x400)

def stringText (s : String) : String :=
  String.ofList ('"' :: s.toList.flatMap escapeChar ++ ['"'])

def numberText (x : Float) : String :=
  match Double.ofFloat x with
  | .nan => "NaN"
  | .infinite negative => if negative then "-Infinity" else "Infinity"
  | d => d.text

def scalarText : Json → String
  | null => "null"
  | bool b => if b then "true" else "false"
  | int n => toString n
  | float x => numberText x
  | str s => stringText s
  | arr _ => "[]"
  | obj _ => "\x7b\x7d"

def block (indent : Nat) (opening closing : String) (parts : List String) : String :=
  let newline := "\n" ++ String.ofList (List.replicate (2 * indent) ' ')
  opening ++ newline ++ "  " ++ String.intercalate ("," ++ newline ++ "  ") parts ++ newline ++
    closing

mutual

def compact : Json → String
  | arr items => "[" ++ String.intercalate ", " (compactItems items) ++ "]"
  | obj members => "\x7b" ++ String.intercalate ", " (compactMembers members) ++ "\x7d"
  | v => v.scalarText

def compactItems : List Json → List String
  | [] => []
  | v :: rest => v.compact :: compactItems rest

def compactMembers : List (String × Json) → List String
  | [] => []
  | (k, v) :: rest => (stringText k ++ ": " ++ v.compact) :: compactMembers rest

end

mutual

def prettyAt (indent : Nat) : Json → String
  | arr (v :: rest) => block indent "[" "]" (prettyItems (indent + 1) (v :: rest))
  | obj (m :: rest) => block indent "\x7b" "\x7d" (prettyMembers (indent + 1) (m :: rest))
  | v => v.scalarText

def prettyItems (indent : Nat) : List Json → List String
  | [] => []
  | v :: rest => v.prettyAt indent :: prettyItems indent rest

def prettyMembers (indent : Nat) : List (String × Json) → List String
  | [] => []
  | (k, v) :: rest => (stringText k ++ ": " ++ v.prettyAt indent) :: prettyMembers indent rest

end

def pretty (v : Json) : String := v.prettyAt 0

end WitSchema.Json

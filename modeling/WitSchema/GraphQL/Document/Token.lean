import WitSchema.GraphQL.Description
import WitSchema.Name
import WitSchema.Text.Quoted

/-! The tokens of a plain document. Blanks, line ends, commas, byte order marks and
comments only separate them. A number is not followed directly by a letter, an
underscore, a digit or a point. -/

namespace WitSchema.GraphQL

inductive Token
  | mark (c : Char)
  | name (s : String)
  | int (text : String)
  | float (text : String)
  | string (text : String) (isBlock : Bool)

namespace Token

open Escape

/-- The marks of operations. Those of fragments and directives are not among them. -/
def marks : List Char := ['!', '$', '(', ')', ':', '=', '[', ']', '\x7b', '\x7d']

def isSeparator (c : Char) : Bool :=
  c == ' ' || c == '\t' || c == '\n' || c == '\r' || c == ',' || c == '\ufeff'

def skip (comment : Bool) : List Char → List Char
  | [] => []
  | c :: rest =>
    if comment then skip (c != '\n' && c != '\r') rest
    else if c = '#' then skip true rest
    else if isSeparator c then skip false rest
    else c :: rest

def digits? (cs : List Char) : Option (List Char × List Char) :=
  let digits := cs.takeWhile Char.isDigit
  if digits.isEmpty then none else some (digits, cs.dropWhile Char.isDigit)

def whole? : List Char → Option (List Char × List Char)
  | '0' :: rest => if rest.head?.any Char.isDigit then none else some (['0'], rest)
  | cs => digits? cs

def fraction? : List Char → Option (List Char × List Char)
  | '.' :: rest => (digits? rest).map fun r => ('.' :: r.1, r.2)
  | cs => some ([], cs)

def exponentDigits? : List Char → Option (List Char × List Char)
  | s :: rest =>
    if s = '+' ∨ s = '-' then (digits? rest).map fun r => (s :: r.1, r.2)
    else digits? (s :: rest)
  | [] => none

def exponent? : List Char → Option (List Char × List Char)
  | c :: rest =>
    if c = 'e' ∨ c = 'E' then (exponentDigits? rest).map fun r => (c :: r.1, r.2)
    else some ([], c :: rest)
  | [] => some ([], [])

def number? (sign cs : List Char) : Option (Token × List Char) := do
  let (whole, rest) ← whole? cs
  let (fraction, rest) ← fraction? rest
  let (exponent, rest) ← exponent? rest
  if rest.head?.any fun c => c == '.' || isNameStart c then none
  let text := String.ofList (sign ++ whole ++ fraction ++ exponent)
  return (if fraction.isEmpty && exponent.isEmpty then .int text else .float text, rest)

def scalarValue? (n : Nat) : Option Char :=
  if n < 0x110000 && !Surrogate.isHigh n && !Surrogate.isLow n then some (Char.ofNat n) else none

def lowSurrogate? : List Char → Option (Nat × List Char)
  | '\\' :: 'u' :: a :: b :: c :: d :: rest =>
    match hexDigits? [a, b, c, d] with
    | some n => if Surrogate.isLow n then some (n, rest) else none
    | none => none
  | _ => none

def braced? (cs : List Char) : Option (Char × List Char) :=
  let digits := cs.takeWhile fun c => (hexValue? c).isSome
  match cs.drop digits.length with
  | '\x7d' :: rest =>
    if digits.isEmpty || 8 < digits.length then none
    else ((hexDigits? digits).bind scalarValue?).map fun c => (c, rest)
  | _ => none

def escape? : List Char → Option (Char × List Char)
  | 'u' :: '\x7b' :: rest => braced? rest
  | 'u' :: a :: b :: c :: d :: rest => do
    let n ← hexDigits? [a, b, c, d]
    if Surrogate.isHigh n then
      let (low, rest) ← lowSurrogate? rest
      return (Surrogate.join n low, rest)
    else return (← scalarValue? n, rest)
  | c :: rest => (simpleEscape? c).map fun x => (x, rest)
  | [] => none

def stringBody? (acc : List Char) : Nat → List Char → Option (Token × List Char)
  | 0, _ => none
  | _ + 1, [] => none
  | budget + 1, c :: rest =>
    if c = '"' then some (.string (String.ofList acc.reverse) false, rest)
    else if c = '\\' then
      match escape? rest with
      | some (x, rest) => stringBody? (x :: acc) budget rest
      | none => none
    else if c = '\n' ∨ c = '\r' then none
    else stringBody? (c :: acc) budget rest

def blockBody? (acc : List Char) : List Char → Option (List Char × List Char)
  | '"' :: '"' :: '"' :: rest => some (acc.reverse, rest)
  | '\\' :: '"' :: '"' :: '"' :: rest => blockBody? ('"' :: '"' :: '"' :: acc) rest
  | '\r' :: '\n' :: rest => blockBody? ('\n' :: acc) rest
  | '\r' :: rest => blockBody? ('\n' :: acc) rest
  | c :: rest => blockBody? (c :: acc) rest
  | [] => none

def indentOf (line : List Char) : Nat := (line.takeWhile Description.isIndent).length

def commonIndent (lines : List (List Char)) : Option Nat :=
  ((lines.filter fun line => !Description.isBlankLine line).map indentOf).min?

/-- A block string without the common indentation of all lines but the first, and without blank
lines at its ends. -/
def dedent (raw : List Char) : List Char :=
  match Description.lines raw with
  | [] => []
  | first :: others =>
    let lines := first :: others.map fun line =>
      ((commonIndent others).map line.drop).getD []
    let lines := (lines.dropWhile Description.isBlankLine).reverse.dropWhile Description.isBlankLine
    List.intercalate ['\n'] lines.reverse

def next? : List Char → Option (Token × List Char)
  | '"' :: '"' :: '"' :: rest =>
    (blockBody? [] rest).map fun r => (.string (String.ofList (dedent r.1)) true, r.2)
  | '"' :: rest => stringBody? [] (rest.length + 1) rest
  | '-' :: rest => number? ['-'] rest
  | c :: rest =>
    if marks.contains c then some (.mark c, rest)
    else if isNameStart c then
      some (.name (String.ofList (c :: rest.takeWhile isNameCharacter)),
        rest.dropWhile isNameCharacter)
    else number? [] (c :: rest)
  | [] => none

def readAll? (length : Nat) : Nat → List Char → Option (List (Nat × Token))
  | 0, _ => none
  | budget + 1, cs =>
    match skip false cs with
    | [] => some []
    | cs =>
      match next? cs with
      | none => none
      | some (token, rest) =>
        (readAll? length budget rest).map ((length - cs.length, token) :: ·)

def ofText? (text : String) : Option (List (Nat × Token)) :=
  readAll? text.toList.length (text.toList.length + 1) text.toList

end Token

end WitSchema.GraphQL

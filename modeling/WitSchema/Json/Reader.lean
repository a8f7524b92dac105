import WitSchema.Json.Basic
import WitSchema.Number.Numeral
import WitSchema.Text.Quoted

/-! Reading JSON text. `Json.read` gives the value a text stands for, or the
first fault with the place where it was found. The numbers `NaN`, `Infinity`
and `-Infinity` are accepted, and integers of up to 4300 digits. A repeated key
keeps its first place and its last value. -/

namespace WitSchema

inductive JsonFault
  | value
  | memberName
  | colon
  | comma
  | trailing
  | byteOrderMark
  | openString
  | controlCharacter
  | escape
  | unicodeEscape
  | longInteger (digits : Nat)
  deriving DecidableEq

def JsonFault.message : JsonFault → String
  | value => "Expecting value"
  | memberName => "Expecting property name enclosed in double quotes"
  | colon => "Expecting ':' delimiter"
  | comma => "Expecting ',' delimiter"
  | trailing => "Extra data"
  | byteOrderMark => "Unexpected UTF-8 BOM (decode using utf-8-sig)"
  | openString => "Unterminated string starting at"
  | controlCharacter => "Invalid control character at"
  | escape => "Invalid \\escape"
  | unicodeEscape => "Invalid \\uXXXX escape"
  | longInteger digits =>
    "Exceeds the limit (" ++ toString Numeral.digitLimit ++ " digits) for integer string " ++
      "conversion: value has " ++ toString digits ++
      " digits; use sys.set_int_max_str_digits() to increase the limit"

def JsonFault.isFormal : JsonFault → Bool
  | longInteger _ => false
  | _ => true

/-- A fault and where it is: line and column count from one, the offset from zero. The message of
a number that is too long does not say where it is. -/
structure JsonError where
  fault : JsonFault
  line : Nat
  column : Nat
  offset : Nat

def JsonError.message (e : JsonError) : String :=
  if e.fault.isFormal then
    e.fault.message ++ ": line " ++ toString e.line ++ " column " ++ toString e.column ++
      " (char " ++ toString e.offset ++ ")"
  else e.fault.message

namespace JsonReader

open Escape

/-- What was read and the text after it, or a fault and how much text was left at it. -/
abbrev Step (α : Type) := Except (JsonFault × Nat) (α × List Char)

def fail (fault : JsonFault) (rest : List Char) : Step α := .error (fault, rest.length)

def isSpace (c : Char) : Bool := c == ' ' || c == '\t' || c == '\n' || c == '\r'

def skipSpace (cs : List Char) : List Char := cs.dropWhile isSpace

/-- The second half of a surrogate pair, if the text goes on with an escape long enough to be
one; the inner value is missing where its digits are none. -/
def secondHalf? : List Char → Option (Option Nat)
  | '\\' :: 'u' :: a :: b :: c :: d :: _ :: _ => some (hexDigits? [a, b, c, d])
  | _ => none

/-- The rest of a string after its opening quote, which had `start` characters from it to the
end of the text. -/
def stringBody (start : Nat) (acc : List Char) : List Char → Step String
  | '"' :: rest => .ok (String.ofList acc.reverse, rest)
  | '\\' :: 'u' :: a :: b :: c :: d :: e :: rest =>
    match hexDigits? [a, b, c, d] with
    | none => fail .unicodeEscape ('u' :: a :: b :: c :: d :: e :: rest)
    | some high =>
      match Surrogate.isHigh high, secondHalf? (e :: rest) with
      | true, some none => fail .unicodeEscape rest
      | true, some (some low) =>
        if Surrogate.isLow low then stringBody start (Surrogate.join high low :: acc) (rest.drop 5)
        else stringBody start (Surrogate.single high :: acc) (e :: rest)
      | _, _ => stringBody start (Surrogate.single high :: acc) (e :: rest)
  | '\\' :: 'u' :: rest => fail .unicodeEscape ('u' :: rest)
  | '\\' :: c :: rest =>
    match simpleEscape? c with
    | some x => stringBody start (x :: acc) rest
    | none => fail .escape ('\\' :: c :: rest)
  | c :: rest =>
    if c = '\\' then .error (.openString, start)
    else if c.val < 0x20 then fail .controlCharacter (c :: rest)
    else stringBody start (c :: acc) rest
  | [] => .error (.openString, start)
termination_by cs => cs.length

def wholeDigits : List Char → List Char
  | '0' :: _ => ['0']
  | cs => cs.takeWhile Char.isDigit

def fractionDigits : List Char → List Char
  | '.' :: rest => rest.takeWhile Char.isDigit
  | _ => []

def exponentPart : List Char → List Char
  | e :: rest =>
    if e = 'e' ∨ e = 'E' then
      match rest with
      | s :: tail =>
        if s = '+' ∨ s = '-' then
          let digits := tail.takeWhile Char.isDigit
          if digits.isEmpty then [] else e :: s :: digits
        else
          let digits := rest.takeWhile Char.isDigit
          if digits.isEmpty then [] else e :: digits
      | [] => []
    else []
  | [] => []

def number (start : List Char) (negative : Bool) (cs : List Char) : Step Json :=
  let whole := wholeDigits cs
  if whole.isEmpty then fail .value start
  else
    let afterWhole := cs.drop whole.length
    let fraction := fractionDigits afterWhole
    let afterFraction :=
      if fraction.isEmpty then afterWhole else afterWhole.drop (fraction.length + 1)
    let exponent := exponentPart afterFraction
    let rest := afterFraction.drop exponent.length
    if fraction.isEmpty && exponent.isEmpty then
      if Numeral.digitLimit < whole.length then fail (.longInteger whole.length) start
      else
        let n : Int := Numeral.natOfDigits whole
        .ok (.int (if negative then -n else n), rest)
    else
      let e := (Numeral.exponent? exponent).getD 0
      .ok (.float (Double.ofDecimal negative (Numeral.natOfDigits (whole ++ fraction))
        (e - fraction.length)), rest)

def scalar : List Char → Step Json
  | 'n' :: 'u' :: 'l' :: 'l' :: rest => .ok (.null, rest)
  | 't' :: 'r' :: 'u' :: 'e' :: rest => .ok (.bool true, rest)
  | 'f' :: 'a' :: 'l' :: 's' :: 'e' :: rest => .ok (.bool false, rest)
  | 'N' :: 'a' :: 'N' :: rest => .ok (.float (0.0 / 0.0), rest)
  | 'I' :: 'n' :: 'f' :: 'i' :: 'n' :: 'i' :: 't' :: 'y' :: rest => .ok (.float (1.0 / 0.0), rest)
  | '-' :: 'I' :: 'n' :: 'f' :: 'i' :: 'n' :: 'i' :: 't' :: 'y' :: rest =>
    .ok (.float (-(1.0 / 0.0)), rest)
  | '-' :: rest => number ('-' :: rest) true rest
  | cs => number cs false cs

mutual

/-- One value. The budget is the length of the text, and each nested value takes from it. -/
def value : Nat → List Char → Step Json
  | 0, cs => fail .value cs
  | _ + 1, '"' :: rest => (stringBody (rest.length + 1) [] rest).map fun r => (.str r.1, r.2)
  | budget + 1, '[' :: rest =>
    match skipSpace rest with
    | ']' :: tail => .ok (.arr [], tail)
    | cs => elements budget [] cs
  | budget + 1, '\x7b' :: rest =>
    match skipSpace rest with
    | '\x7d' :: tail => .ok (.obj [], tail)
    | cs => members budget [] cs
  | _ + 1, cs => scalar cs

def elements : Nat → List Json → List Char → Step Json
  | 0, _, cs => fail .value cs
  | budget + 1, acc, cs =>
    match value budget cs with
    | .error e => .error e
    | .ok (v, rest) =>
      match skipSpace rest with
      | ']' :: tail => .ok (.arr (v :: acc).reverse, tail)
      | ',' :: tail => elements budget (v :: acc) (skipSpace tail)
      | cs => fail .comma cs

def members : Nat → List (String × Json) → List Char → Step Json
  | 0, _, cs => fail .value cs
  | budget + 1, acc, '"' :: cs =>
    match stringBody (cs.length + 1) [] cs with
    | .error e => .error e
    | .ok (key, rest) =>
      match skipSpace rest with
      | ':' :: tail =>
        match value budget (skipSpace tail) with
        | .error e => .error e
        | .ok (v, rest) =>
          match skipSpace rest with
          | '\x7d' :: tail => .ok (.obj (insertPairs ((key, v) :: acc).reverse), tail)
          | ',' :: tail => members budget ((key, v) :: acc) (skipSpace tail)
          | cs => fail .comma cs
      | cs => fail .colon cs
  | _ + 1, _, cs => fail .memberName cs

end

def document (cs : List Char) : Except (JsonFault × Nat) Json := do
  if cs.head? = some '\ufeff' then .error (.byteOrderMark, cs.length)
  let (v, rest) ← value (cs.length + 1) (skipSpace cs)
  match skipSpace rest with
  | [] => .ok v
  | cs => .error (.trailing, cs.length)

def locate (cs : List Char) (fault : JsonFault) (offset : Nat) : JsonError where
  fault := fault
  line := (cs.take offset).count '\n' + 1
  column := ((cs.take offset).reverse.takeWhile (· != '\n')).length + 1
  offset := offset

end JsonReader

def Json.read (text : String) : Except JsonError Json :=
  let cs := text.toList
  match JsonReader.document cs with
  | .ok v => .ok v
  | .error (fault, left) => .error (JsonReader.locate cs fault (cs.length - left))

def unifyLines : List Char → List Char
  | '\r' :: '\n' :: rest => '\n' :: unifyLines rest
  | '\r' :: rest => '\n' :: unifyLines rest
  | c :: rest => c :: unifyLines rest
  | [] => []

end WitSchema

import WitSchema.Json.Display

/-! How a description is written above a definition: as a block string between
triple quotes where that keeps the text, else as a quoted string. -/

namespace WitSchema.GraphQL.Description

def isIndent (c : Char) : Bool := c == ' ' || c == '\t'

def isBlankLine (line : List Char) : Bool := line.all isIndent

def lines : List Char → List (List Char)
  | [] => [[]]
  | '\n' :: rest => [] :: lines rest
  | c :: rest =>
    match lines rest with
    | line :: more => (c :: line) :: more
    | [] => [[c]]

def isIndented : List Char → Bool
  | c :: _ => isIndent c
  | [] => false

/-- Whether a block string keeps the text: it is empty, or it neither starts nor ends with a blank
line, holds no control character but tabs and line feeds, and its lines share no indentation. -/
def fitsBlock (text : List Char) : Bool :=
  let all := lines text
  text.isEmpty ||
    (text.all (fun c => c == '\t' || c == '\n' || 0x10 ≤ c.val) &&
      !(all.head?.any isBlankLine) && !(all.getLast?.any isBlankLine) &&
      !(1 < all.length && all.all fun line => isBlankLine line || isIndented line))

def escapeFences : List Char → List Char
  | '"' :: '"' :: '"' :: rest => '\\' :: '"' :: '"' :: '"' :: escapeFences rest
  | c :: rest => c :: escapeFences rest
  | [] => []

def fence : List Char := ['"', '"', '"']

/-- Several lines, long lines and lines that end in a quote or a backslash stand apart from the
fences. -/
def standsApart (text : List Char) : Bool :=
  text.contains '\n' || 70 < text.length || text.getLast? == some '"' || text.getLast? == some '\\'

def block (text : List Char) : List Char :=
  let apart := standsApart text
  let hugs := !text.contains '\n' && isIndented text
  fence ++ (if apart && !hugs then ['\n'] else []) ++ escapeFences text ++
    (if apart then ['\n'] else []) ++ fence

def escapeChar (c : Char) : List Char :=
  if c = '"' ∨ c = '\\' then ['\\', c]
  else if c = '\x08' then ['\\', 'b']
  else if c = '\t' then ['\\', 't']
  else if c = '\n' then ['\\', 'n']
  else if c = '\x0c' then ['\\', 'f']
  else if c = '\r' then ['\\', 'r']
  else if c.toNat < 0x20 ∨ (0x7f ≤ c.toNat ∧ c.toNat < 0xa0) then
    '\\' :: 'u' :: (Quoted.hex 4 c.toNat).map Char.toUpper
  else [c]

def quotedText (text : List Char) : List Char := '"' :: text.flatMap escapeChar ++ ['"']

def literal (text : List Char) : List Char :=
  if fitsBlock text then block text else quotedText text

/-- The lines before a definition, if it has a description; the text of a value that is no string
is its display. -/
def above (indent : List Char) (description : Json) : List Char :=
  if description.isNull then []
  else indent ++ (literal description.text.toList).flatMap
    (fun c => if c = '\n' then '\n' :: indent else [c]) ++ ['\n']

end WitSchema.GraphQL.Description

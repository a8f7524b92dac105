import WitSchema.Text.LetterCase
import WitSchema.Text.Quoted

/-! From hyphenated names to the names of a schema. A hyphen before a
lower-case ASCII letter disappears and the letter becomes upper case; then the
first character is forced to lower case for fields and to upper case for types.
A schema accepts names that start with a letter or an underscore and go on with
letters, digits and underscores, all of them ASCII. -/

namespace WitSchema.Name

def isLower (c : Char) : Bool := 'a' ≤ c && c ≤ 'z'

/-- Joins the words of a name; a hyphen before anything but a lower-case letter stays. -/
def joinWords : List Char → List Char
  | '-' :: c :: rest =>
    if isLower c then c.toUpper :: joinWords rest else '-' :: joinWords (c :: rest)
  | c :: rest => c :: joinWords rest
  | [] => []

def mapFirst (f : Char → List Char) : List Char → List Char
  | c :: rest => f c ++ rest
  | [] => []

def camelChars (cs : List Char) : List Char := mapFirst LetterCase.lower (joinWords cs)

def pascalChars (cs : List Char) : List Char := mapFirst LetterCase.upper (joinWords cs)

def camel (name : String) : String := String.ofList (camelChars name.toList)

def pascal (name : String) : String := String.ofList (pascalChars name.toList)

end WitSchema.Name

namespace WitSchema.GraphQL

inductive NameFault
  | empty
  | character (name : String)
  | start (name : String)
  deriving DecidableEq

def NameFault.message : NameFault → String
  | empty => "Expected name to be a non-empty string."
  | character name => "Names must only contain [_a-zA-Z0-9] but " ++ quoted name ++ " does not."
  | start name => "Names must start with [_a-zA-Z] but " ++ quoted name ++ " does not."

def isNameStart (c : Char) : Bool := c.isAlpha || c == '_'

def isNameCharacter (c : Char) : Bool := c.isAlphanum || c == '_'

def isNameChars : List Char → Bool
  | c :: rest => isNameStart c && rest.all isNameCharacter
  | [] => false

/-- A fault after the first character is reported before one of the first character. -/
def checkName (name : String) : Except NameFault Unit :=
  match name.toList with
  | [] => .error .empty
  | c :: rest =>
    if !rest.all isNameCharacter then .error (.character name)
    else if !isNameStart c then .error (.start name)
    else .ok ()

def reservedNames : List String :=
  ["Boolean", "Float", "ID", "Int", "String", "__Directive", "__DirectiveLocation", "__EnumValue",
    "__Field", "__InputValue", "__Schema", "__Type", "__TypeKind"]

def isIntrospective (name : String) : Bool :=
  match name.toList with
  | '_' :: '_' :: _ => true
  | _ => false

end WitSchema.GraphQL

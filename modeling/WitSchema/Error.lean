import WitSchema.Json.Display
import WitSchema.Name

/-! Why a graph cannot be read, a type cannot be converted or a schema cannot
be built. `Error.message` words each cause. -/

namespace WitSchema

inductive ShapeFault
  | missingKey (key : String)
  | notKeyed
  | notObject
  | notIterable
  | notContainer
  | notKey
  | notText
  | tooFew (expected found : Nat)
  | tooMany (expected : Nat)
  | pairLength (index found : Nat)

def ShapeFault.message : ShapeFault → String
  | missingKey key => quoted key
  | notKeyed => "a key is looked up in something that has none"
  | notObject => "an object is needed"
  | notIterable => "a sequence is needed"
  | notContainer => "a container is needed"
  | notKey => "a container cannot be a key"
  | notText => "a name has to be text"
  | tooFew expected found =>
    "not enough values to unpack (expected " ++ toString expected ++ ", got " ++ toString found ++
      ")"
  | tooMany expected => "too many values to unpack (expected " ++ toString expected ++ ")"
  | pairLength index found =>
    "dictionary update sequence element #" ++ toString index ++ " has length " ++ toString found ++
      "; 2 is required"

def ShapeFault.isSize : ShapeFault → Bool
  | tooFew .. | tooMany .. | pairLength .. => true
  | _ => false

inductive Error
  | shape (fault : ShapeFault)
  | unsupportedPrimitive (raw : Json)
  | unsupportedKind (raw : Json)
  | unknownFunctionKind (raw : Json)
  | unresolvedType (index : Int) (available : Nat)
  | typeCycle (chain : List Nat)
  | noWorld (name : Option String)
  | noFunctions (world : Json)
  | illegalName (fault : GraphQL.NameFault)
  | reservedType (name : String)
  | duplicateType (name : String)

def Error.message : Error → String
  | shape fault => fault.message
  | unsupportedPrimitive raw => "Unsupported primitive type: " ++ raw.display
  | unsupportedKind raw => "Unsupported WIT type kind: " ++ raw.display
  | unknownFunctionKind raw => raw.display ++ " is not a valid FunctionKind"
  | unresolvedType index available =>
    "Type index " ++ toString index ++ " not found in resolved types (" ++ toString available ++
      " types available)"
  | typeCycle chain => "Type cycle detected: " ++ String.intercalate " -> " (chain.map toString)
  | noWorld name =>
    let target := match name with
      | some n => if n = "" then "any" else quoted n
      | none => "any"
    "No world " ++ target ++ " in resolved graph"
  | noFunctions world => "World " ++ world.display ++ " exports no functions"
  | illegalName fault => fault.message
  | reservedType name => "Redefinition of reserved type " ++ quoted name
  | duplicateType name =>
    "Schema must contain uniquely named types but contains multiple types named " ++ quoted name ++
      "."

end WitSchema

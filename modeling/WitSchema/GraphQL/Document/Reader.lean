import WitSchema.GraphQL.Document
import WitSchema.GraphQL.Document.Token

/-! Reading a plain document: exactly one query, with or without the word `query`.
Other operations cannot be run against a schema that has only a query type. A
description may stand before the word and before a variable. Between braces
there may be nothing, between parentheses there has to be something. -/

namespace WitSchema.GraphQL

namespace DocumentReader

abbrev Tokens := List (Nat × Token)

def wordLiteral (word : String) : Literal :=
  match word with
  | "true" => .boolean true
  | "false" => .boolean false
  | "null" => .null
  | _ => .enum word

mutual

/-- One value; a constant holds no variables. The budget is the number of tokens, and each nested
value takes from it. -/
def value (constant : Bool) : Nat → Tokens → Option (Literal × Tokens)
  | 0, _ => none
  | budget + 1, tokens =>
    match tokens with
    | (_, .mark '$') :: (_, .name n) :: rest => if constant then none else some (.variable n, rest)
    | (_, .int text) :: rest => some (.int text, rest)
    | (_, .float text) :: rest => some (.float text, rest)
    | (_, .string text isBlock) :: rest => some (.string text isBlock, rest)
    | (_, .name word) :: rest => some (wordLiteral word, rest)
    | (_, .mark '[') :: rest => items constant budget [] rest
    | (_, .mark '\x7b') :: rest => fields constant budget [] rest
    | _ => none

def items (constant : Bool) : Nat → List Literal → Tokens → Option (Literal × Tokens)
  | 0, _, _ => none
  | budget + 1, acc, tokens =>
    match tokens with
    | (_, .mark ']') :: rest => some (.list acc.reverse, rest)
    | _ => do
      let (v, rest) ← value constant budget tokens
      items constant budget (v :: acc) rest

def fields (constant : Bool) : Nat → List (String × Literal) → Tokens → Option (Literal × Tokens)
  | 0, _, _ => none
  | budget + 1, acc, tokens =>
    match tokens with
    | (_, .mark '\x7d') :: rest => some (.object acc.reverse, rest)
    | (_, .name n) :: (_, .mark ':') :: rest => do
      let (v, rest) ← value constant budget rest
      fields constant budget ((n, v) :: acc) rest
    | _ => none

end

def arguments : Nat → List (String × Literal) → Tokens → Option (List (String × Literal) × Tokens)
  | 0, _, _ => none
  | budget + 1, acc, tokens =>
    match tokens with
    | (_, .name n) :: (_, .mark ':') :: rest => do
      let (v, rest) ← value false budget rest
      match rest with
      | (_, .mark ')') :: rest => some (((n, v) :: acc).reverse, rest)
      | _ => arguments budget ((n, v) :: acc) rest
    | _ => none

/-- Parentheses with arguments, or nothing; empty parentheses are not allowed. -/
def argumentsIfAny (budget : Nat) : Tokens → Option (List (String × Literal) × Tokens)
  | (_, .mark '(') :: rest => arguments budget [] rest
  | tokens => some ([], tokens)

def keyAndName : Tokens → Option ((String × String) × Tokens)
  | (_, .name key) :: (_, .mark ':') :: (_, .name n) :: rest => some ((key, n), rest)
  | (_, .name n) :: rest => some ((n, n), rest)
  | _ => none

mutual

def selection : Nat → Tokens → Option (Selection × Tokens)
  | 0, _ => none
  | budget + 1, tokens => do
    let offset := (tokens.head?.map (·.1)).getD 0
    let ((key, n), rest) ← keyAndName tokens
    let (args, rest) ← argumentsIfAny budget rest
    match rest with
    | (_, .mark '\x7b') :: rest =>
      let (inner, rest) ← selections budget [] rest
      return (⟨offset, key, n, args, true, inner⟩, rest)
    | _ => return (⟨offset, key, n, args, false, []⟩, rest)

/-- The selections from the next one on, up to the closing brace. There may be none. -/
def selections : Nat → List Selection → Tokens → Option (List Selection × Tokens)
  | 0, _, _ => none
  | budget + 1, acc, tokens =>
    match tokens with
    | (_, .mark '\x7d') :: rest => some (acc.reverse, rest)
    | _ => do
      let (s, rest) ← selection budget tokens
      selections budget (s :: acc) rest

end

def nonNullIfMarked (t : TypeExpr) : Tokens → TypeExpr × Tokens
  | (_, .mark '!') :: rest => (.nonNull t, rest)
  | tokens => (t, tokens)

def typeExpr : Nat → Tokens → Option (TypeExpr × Tokens)
  | 0, _ => none
  | budget + 1, tokens =>
    match tokens with
    | (_, .name n) :: rest => some (nonNullIfMarked (.named n) rest)
    | (_, .mark '[') :: rest => do
      match ← typeExpr budget rest with
      | (item, (_, .mark ']') :: rest) => some (nonNullIfMarked (.list item) rest)
      | _ => none
    | _ => none

def defaultIfAny (budget : Nat) : Tokens → Option (Option Literal × Tokens)
  | (_, .mark '=') :: rest => (value true budget rest).map fun r => (some r.1, r.2)
  | tokens => some (none, tokens)

def afterDescription : Tokens → Tokens
  | (_, .string ..) :: (i, .name n) :: rest => (i, .name n) :: rest
  | (_, .string ..) :: (i, .mark '$') :: rest => (i, .mark '$') :: rest
  | tokens => tokens

def definitions : Nat → List VariableDefinition → Tokens → Option (List VariableDefinition × Tokens)
  | 0, _, _ => none
  | budget + 1, acc, tokens =>
    match afterDescription tokens with
    | (_, .mark '$') :: (_, .name n) :: (_, .mark ':') :: rest => do
      let (t, rest) ← typeExpr budget rest
      let (default, rest) ← defaultIfAny budget rest
      match rest with
      | (_, .mark ')') :: rest => some ((⟨n, t, default⟩ :: acc).reverse, rest)
      | _ => definitions budget (⟨n, t, default⟩ :: acc) rest
    | _ => none

def body (budget : Nat) (declared : List VariableDefinition) : Tokens → Option Operation
  | (_, .mark '\x7b') :: rest =>
    match selections budget [] rest with
    | some (inner, []) => some ⟨declared, inner⟩
    | _ => none
  | _ => none

def unnamed (budget : Nat) : Tokens → Option Operation
  | (_, .mark '(') :: rest =>
    (definitions budget [] rest).bind fun (declared, rest) => body budget declared rest
  | tokens => body budget [] tokens

def operation (budget : Nat) (tokens : Tokens) : Option Operation :=
  match afterDescription tokens with
  | (_, .name "query") :: (_, .name _) :: rest => unnamed budget rest
  | (_, .name "query") :: rest => unnamed budget rest
  | tokens => body budget [] tokens

def nestsWithin (left : Nat) : Tokens → Bool
  | [] => true
  | (_, .mark c) :: rest =>
    if c = '\x7b' ∨ c = '[' then left != 0 && nestsWithin (left - 1) rest
    else if c = '\x7d' ∨ c = ']' then nestsWithin (left + 1) rest
    else nestsWithin left rest
  | _ :: rest => nestsWithin left rest

end DocumentReader

def Operation.read? (text : String) : Option Operation := do
  let tokens ← Token.ofText? text
  if DocumentReader.nestsWithin nestingLimit tokens then
    DocumentReader.operation (tokens.length + 1) tokens
  else none

end WitSchema.GraphQL

import WitSchema.Json.Reader

/-! Reading a file of settings: statements of the form `KEY=VALUE` with an
optional `export` before them, comments, quoted values, and references to
variables inside values. A statement that fits no form ends with the line on
which its form is broken, and is skipped. -/

namespace WitSchema.DotEnv

def isSpace (c : Char) : Bool := Numeral.isBlank c || (0x1c ≤ c.toNat && c.toNat ≤ 0x1f)

def isLineEnd (c : Char) : Bool := c == '\n' || c == '\r'

def isGap (c : Char) : Bool := isSpace c && !isLineEnd c

def skipGap (cs : List Char) : List Char := cs.dropWhile isGap

def skipExport (cs : List Char) : List Char :=
  let word := "export".toList
  let rest := cs.drop word.length
  if word.isPrefixOf cs && rest.head?.any isGap then skipGap rest else cs

/-- What was read and the text after it, or the text from which a form is broken. -/
abbrev Step (α : Type) := Except (List Char) (α × List Char)

def lineEnd (cs : List Char) : Step Unit :=
  match skipGap cs with
  | [] => .ok ((), [])
  | '\r' :: '\n' :: rest => .ok ((), rest)
  | c :: rest => if isLineEnd c then .ok ((), rest) else .error cs

def skipLine (cs : List Char) : List Char := (cs.dropWhile (!isLineEnd ·)).drop 1

def skipComment (cs : List Char) : List Char :=
  match skipGap cs with
  | '#' :: rest => rest.dropWhile (!isLineEnd ·)
  | _ => cs

def key (cs : List Char) : Step (Option (List Char)) :=
  match cs with
  | '#' :: _ => .ok (none, cs)
  | '\'' :: rest =>
    let key := rest.takeWhile (· != '\'')
    match rest.drop key.length with
    | _ :: rest => if key.isEmpty then .error cs else .ok (some key, rest)
    | [] => .error cs
  | _ =>
    let key := cs.takeWhile fun c => c != '=' && c != '#' && !isSpace c
    if key.isEmpty then .error cs else .ok (some key, cs.drop key.length)

/-- The text up to the closing quote. A backslash and the character after it belong together, so a
quote after a backslash closes nothing. -/
def quotedPart (quote : Char) : List Char → Option (List Char × List Char)
  | [] | ['\\'] => none
  | '\\' :: c :: rest => (quotedPart quote rest).map fun r => ('\\' :: c :: r.1, r.2)
  | c :: rest =>
    if c = quote then some ([], rest)
    else (quotedPart quote rest).map fun r => (c :: r.1, r.2)

def escaped? (quote c : Char) : Option Char :=
  if c = '\\' ∨ c = '\'' then some c
  else if quote = '\'' then none
  else match c with
    | '"' => some '"'
    | 'a' => some '\x07'
    | 'b' => some '\x08'
    | 'f' => some '\x0c'
    | 'n' => some '\n'
    | 'r' => some '\r'
    | 't' => some '\t'
    | 'v' => some '\x0b'
    | _ => none

def unescape (quote : Char) : List Char → List Char
  | '\\' :: c :: rest =>
    match escaped? quote c with
    | some x => x :: unescape quote rest
    | none => '\\' :: unescape quote (c :: rest)
  | c :: rest => c :: unescape quote rest
  | [] => []
termination_by cs => cs.length

def trimEnd (cs : List Char) : List Char := (cs.reverse.dropWhile isSpace).reverse

def dropComment : List Char → List Char
  | [] => []
  | c :: rest =>
    if isSpace c && (rest.dropWhile isSpace).head? == some '#' then [] else c :: dropComment rest

def value (afterSign : List Char) : Step (List Char) :=
  let cs := skipGap afterSign
  match cs with
  | [] => .ok ([], [])
  | c :: rest =>
    if c = '\'' ∨ c = '"' then
      match quotedPart c rest with
      | some (text, rest) => .ok (unescape c text, rest)
      | none => .error cs
    else
      let part := afterSign.takeWhile (!isLineEnd ·)
      .ok (trimEnd (skipGap (dropComment part)), afterSign.drop part.length)

def statement (cs : List Char) :
    Except (List Char) (Option (List Char × Option (List Char)) × List Char) := do
  let (key, rest) ← key (skipExport cs)
  let (value, rest) ← match skipGap rest with
    | '=' :: tail => (value tail).map fun r => (some r.1, r.2)
    | rest => .ok (none, rest)
  let (_, rest) ← lineEnd (skipComment rest)
  return (key.map (·, value), rest)

/-- What a file holds: its entries, and the lines on which malformed statements start. The blank
lines before a statement belong to it. -/
structure Contents where
  entries : List (List Char × Option (List Char))
  malformed : List Nat

namespace Contents

def addEntry (entry : Option (List Char × Option (List Char))) (c : Contents) : Contents :=
  { c with entries := entry.toList ++ c.entries }

def addMalformed (line : Nat) (c : Contents) : Contents :=
  { c with malformed := line :: c.malformed }

end Contents

def linesBetween (cs rest : List Char) : Nat := (cs.take (cs.length - rest.length)).count '\n'

def contentsFrom : (budget line : Nat) → List Char → Contents
  | 0, _, _ => ⟨[], []⟩
  | budget + 1, line, cs =>
    match cs.dropWhile isSpace with
    | [] => ⟨[], []⟩
    | start =>
      match statement start with
      | .ok (entry, rest) =>
        (contentsFrom budget (line + linesBetween cs rest) rest).addEntry entry
      | .error broken =>
        let rest := skipLine broken
        (contentsFrom budget (line + linesBetween cs rest) rest).addMalformed line

/-- The contents of a file. A byte order mark at its start is no part of them. -/
def contents (text : String) : Contents :=
  let cs := unifyLines text.toList
  let cs := if cs.head? = some '\ufeff' then cs.drop 1 else cs
  contentsFrom (cs.length + 1) 1 cs

def reference? : List Char → Option (List Char × List Char × List Char)
  | '$' :: '\x7b' :: cs =>
    let name := cs.takeWhile fun c => c != '\x7d' && c != ':'
    match cs.drop name.length with
    | '\x7d' :: rest => some (name, [], rest)
    | ':' :: '-' :: tail =>
      let default := tail.takeWhile (· != '\x7d')
      match tail.drop default.length with
      | _ :: rest => some (name, default, rest)
      | [] => none
    | _ => none
  | _ => none

def expand (find : String → Option String) : Nat → List Char → List Char
  | 0, cs => cs
  | _ + 1, [] => []
  | budget + 1, c :: cs =>
    match reference? (c :: cs) with
    | some (name, default, rest) =>
      ((find (String.ofList name)).map String.toList).getD default ++ expand find budget rest
    | none => c :: expand find budget cs

/-- A reference finds the entries above it first and then the environment; an entry without value
is empty. -/
def expandEntries (env : List (String × String)) (done : List (String × Option String)) :
    List (List Char × Option (List Char)) → List (String × Option String)
  | [] => done
  | (key, value) :: rest =>
    let find (name : String) : Option String :=
      match done.lookup name with
      | some v => some (v.getD "")
      | none => env.lookup name
    let value := value.map fun v => String.ofList (expand find (v.length + 1) v)
    expandEntries env (insertPair (String.ofList key) value done) rest

/-- The entries of a file; an entry without equals sign has no value. -/
def read (env : List (String × String)) (text : String) : List (String × Option String) :=
  expandEntries env [] (contents text).entries

end WitSchema.DotEnv

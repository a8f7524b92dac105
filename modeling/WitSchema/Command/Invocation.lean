import WitSchema.Number.Numeral

/-! What the arguments of the command ask for. A long switch may be shortened to
what tells it from the others and may carry its value after an equals sign, and
single letters may be run together. Nothing after a lone `--` is a switch.
Switches may stand anywhere around the positional arguments: those of the
program before the name of the action, those of the action after it. -/

namespace WitSchema.Command

inductive Switch
  | help
  | verbose
  | world
  | queryType
  deriving DecidableEq

def Switch.takesValue : Switch → Bool
  | world | queryType => true
  | help | verbose => false

abbrev Spellings := List (String × Switch)

def mainSpellings : Spellings :=
  [("-h", .help), ("--help", .help), ("-v", .verbose), ("--verbose", .verbose)]

def actionSpellings : Spellings :=
  [("-h", .help), ("--help", .help), ("--world", .world), ("--query-type", .queryType)]

/-- What an argument is taken for. With a switch there may be more in the argument: a value after
an equals sign, or the letters after a single one. -/
inductive Reading
  | word
  | marker
  | switch (s : Switch) (spelling : String) (attached : Option String)
  | unknown

inductive Refusal
  | help
  | usage
  deriving DecidableEq

def splitValue (arg : String) : String × Option String :=
  let before := arg.toList.takeWhile (· != '=')
  match arg.toList.drop before.length with
  | [] => (arg, none)
  | _ :: after => (String.ofList before, some (String.ofList after))

def isDigit (c : Char) : Bool := (Numeral.toAscii c).isDigit

/-- Digits after a minus sign, or digits around a point with some after it. -/
def isNegativeNumber (arg : String) : Bool :=
  match arg.toList with
  | '-' :: body =>
    let whole := body.takeWhile isDigit
    match body.drop whole.length with
    | [] => !whole.isEmpty
    | '.' :: fraction => !fraction.isEmpty && fraction.all isDigit
    | _ => false
  | _ => false

def candidates (spellings : Spellings) (arg : String) : List Reading :=
  match arg.toList with
  | '-' :: '-' :: _ =>
    let (stem, attached) := splitValue arg
    spellings.filterMap fun (spelling, s) =>
      if stem.toList.isPrefixOf spelling.toList then some (.switch s spelling attached) else none
  | a :: b :: rest =>
    spellings.filterMap fun (spelling, s) =>
      if spelling.toList = [a, b] then some (.switch s spelling (some (String.ofList rest)))
      else none
  | _ => []

def readUnlisted (spellings : Spellings) (arg : String) : Except Refusal Reading :=
  match candidates spellings arg with
  | [reading] => .ok reading
  | _ :: _ :: _ => .error .usage
  | [] => .ok (if isNegativeNumber arg || arg.toList.contains ' ' then .word else .unknown)

def read (spellings : Spellings) (arg : String) : Except Refusal Reading :=
  match arg.toList with
  | '-' :: _ :: _ =>
    match spellings.lookup arg with
    | some s => .ok (.switch s arg none)
    | none =>
      let (stem, attached) := splitValue arg
      match attached, spellings.lookup stem with
      | some value, some s => .ok (.switch s stem (some value))
      | _, _ => readUnlisted spellings arg
  | _ => .ok .word

def readAll (spellings : Spellings) : List String → Except Refusal (List (String × Reading))
  | [] => .ok []
  | "--" :: rest => .ok (("--", .marker) :: rest.map (·, .word))
  | arg :: rest => do
    let reading ← read spellings arg
    return (arg, reading) :: (← readAll spellings rest)

/-- The switches that stand in one argument, the value of the last of which may be missing. -/
abbrev Cluster := List (Switch × Option String)

/-- A switch with what is attached to it. What is attached to a single letter that takes no value
is more letters. -/
def expand (spellings : Spellings) (s : Switch) (isShort : Bool) :
    List Char → Except Refusal Cluster
  | [] => if s.takesValue then .ok [(s, some "")] else .error .usage
  | c :: letters =>
    if s.takesValue then .ok [(s, some (String.ofList (c :: letters)))]
    else if !isShort then .error .usage
    else match spellings.lookup (String.ofList ['-', c]), letters with
      | none, _ => .error .usage
      | some next, [] => .ok [(s, none), (next, none)]
      | some next, letters => (expand spellings next true letters).map ((s, none) :: ·)

def isShortSpelling (spelling : String) : Bool :=
  match spelling.toList with
  | ['-', c] => c != '-'
  | _ => false

def cluster (spellings : Spellings) (s : Switch) (spelling : String) :
    Option String → Except Refusal Cluster
  | none => .ok [(s, none)]
  | some attached => expand spellings s (isShortSpelling spelling) attached.toList

/-- A positional argument. A lone marker in its place leaves it empty, which is not the same as an
empty text. -/
abbrev Word := Option String

structure Request where
  verbose : Bool
  words : List Word
  world : Option String
  queryType : Option String
  hasExtra : Bool

namespace Request

def empty : Request := ⟨false, [], none, none, false⟩

/-- The first `--` among a word and the marker beside it is the marker. -/
def addWord (r : Request) (word : String) (afterMarker : Bool) : Request :=
  { r with words := r.words ++ [if word == "--" && !afterMarker then none else some word] }

def valueOf (value : String) : Option String := if value = "--" then none else some value

def apply (r : Request) (s : Switch) (value : String) : Except Refusal Request :=
  match s with
  | .help => .error .help
  | .verbose => .ok { r with verbose := true }
  | .world => .ok { r with world := valueOf value }
  | .queryType => .ok { r with queryType := valueOf value }

def applyAll (r : Request) : List (Switch × String) → Except Refusal Request
  | [] => .ok r
  | (s, value) :: rest => (r.apply s value).bind fun r => r.applyAll rest

def extra (r : Request) : Request := { r with hasExtra := true }

end Request

/-- What the last argument was taken for. A marker right after a word counts as part of it. -/
inductive Previous
  | word
  | marker
  | other
  deriving DecidableEq

structure Progress where
  request : Request
  pending : List (Switch × Option String)
  previous : Previous

namespace Progress

def extra (p : Progress) : Progress := { p with request := p.request.extra, previous := .other }

def applyPending (p : Progress) (word : String) : Except Refusal Progress :=
  (p.request.applyAll (p.pending.map fun s => (s.1, s.2.getD word))).map (⟨·, [], .other⟩)

def take (spellings : Spellings) (limit : Nat) (p : Progress) (arg : String) (reading : Reading) :
    Except Refusal Progress :=
  if !p.pending.isEmpty then
    match reading with
    | .word => p.applyPending arg
    | _ => .error .usage
  else match reading with
    | .word =>
      if p.request.words.length < limit then
        .ok { p with request := p.request.addWord arg (p.previous == .marker), previous := .word }
      else .ok p.extra
    | .marker =>
      if p.previous == .word then .ok { p with previous := .other }
      else if p.request.words.length < limit then .ok { p with previous := .marker }
      else .ok p.extra
    | .unknown => .ok p.extra
    | .switch s spelling attached => do
      let switches ← cluster spellings s spelling attached
      let p : Progress := ⟨p.request, switches, .other⟩
      if switches.any fun t => t.1.takesValue && t.2.isNone then return p
      p.applyPending ""

end Progress

def readAction (limit : Nat) (r : Request) (args : List String) : Except Refusal Request := do
  let readings ← readAll actionSpellings args
  let start : Progress := ⟨r, [], .other⟩
  let p ← readings.foldlM (fun p a => Progress.take actionSpellings limit p a.1 a.2) start
  if p.pending.isEmpty && p.request.words.length == limit then return p.request
  .error .usage

def readMain (r : Request) : List (String × Reading) → Except Refusal (Request × List String)
  | [] => .error .usage
  | (arg, reading) :: rest =>
    match reading with
    | .word => .ok (r, arg :: rest.map (·.1))
    | .marker => .error .usage
    | .unknown => readMain r.extra rest
    | .switch s spelling attached =>
      match cluster mainSpellings s spelling attached with
      | .error refusal => .error refusal
      | .ok switches =>
        match r.applyAll (switches.map fun t => (t.1, t.2.getD "")) with
        | .error refusal => .error refusal
        | .ok r => readMain r rest

inductive Action
  | schema
  | query (module document : Word)

structure Invocation where
  verbose : Bool
  graph : Word
  action : Action
  world : Option String
  queryType : Option String

def Request.invocation? (r : Request) : Except Refusal Invocation :=
  if r.hasExtra then .error .usage
  else match r.words with
    | [graph] => .ok ⟨r.verbose, graph, .schema, r.world, r.queryType⟩
    | [graph, module, document] =>
      .ok ⟨r.verbose, graph, .query module document, r.world, r.queryType⟩
    | _ => .error .usage

def Invocation.ofArguments (args : List String) : Except Refusal Invocation := do
  match ← readMain .empty (← readAll mainSpellings args) with
  | (r, "schema" :: rest) => (← readAction 1 r rest).invocation?
  | (r, "query" :: rest) => (← readAction 3 r rest).invocation?
  | _ => .error .usage

end WitSchema.Command

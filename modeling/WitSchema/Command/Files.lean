import WitSchema.Text.Quoted

/-! A directory of text files, the current one, in a tree that holds nothing
else. A path is followed name by name, and a fault says what stands in its
way. -/

namespace WitSchema.Command

inductive FileFault
  | missing (path : String)
  | isDirectory (path : String)
  | notDirectory (path : String)
  | nameTooLong (path : String)
  | nullCharacter
  | unreadable (text : String)

def FileFault.message : FileFault → String
  | missing path => "[Errno 2] No such file or directory: " ++ quoted path
  | isDirectory path => "[Errno 21] Is a directory: " ++ quoted path
  | notDirectory path => "[Errno 20] Not a directory: " ++ quoted path
  | nameTooLong path => "[Errno 36] File name too long: " ++ quoted path
  | nullCharacter => "embedded null byte"
  | unreadable text => text

abbrev Files := List (String × String)

inductive Place
  | above
  | inside (names : List String)

inductive Obstacle
  | absent
  | file
  | length

namespace Files

def names (path : String) : List String :=
  (path.splitOn "/").filter fun name => name != "" && name != "."

def namesDirectory (path : String) : Bool :=
  match path.toList.reverse with
  | '/' :: _ | '.' :: '/' :: _ => true
  | cs => cs == ['.']

def text? (files : Files) (wanted : List String) : Option String :=
  (files.find? fun f => names f.1 == wanted).map (·.2)

def isDirectory (files : Files) (wanted : List String) : Bool :=
  wanted.isEmpty || files.any fun f => wanted.isPrefixOf (names f.1)

def enter (files : Files) (place : Place) (name : String) : Except Obstacle Place :=
  match place with
  | .above =>
    if name == ".." then .ok .above
    else .error (if 255 < name.utf8ByteSize then .length else .absent)
  | .inside wanted =>
    if (files.text? wanted).isSome then .error .file
    else if name == ".." then .ok (if wanted.isEmpty then .above else .inside wanted.dropLast)
    else if 255 < name.utf8ByteSize then .error .length
    else
      let inner := wanted ++ [name]
      if (files.text? inner).isSome || files.isDirectory inner then .ok (.inside inner)
      else .error .absent

def follow (files : Files) (path : String) : Except Obstacle Place :=
  if path = "" then .error .absent
  else if 4095 < path.utf8ByteSize then .error .length
  else
    let start : Place := if path.toList.head? = some '/' then .above else .inside []
    (names path).foldlM files.enter start

def read (files : Files) (path : String) : Except FileFault String :=
  if path.toList.contains '\x00' then .error .nullCharacter
  else match files.follow path with
    | .error .absent => .error (.missing path)
    | .error .file => .error (.notDirectory path)
    | .error .length => .error (.nameTooLong path)
    | .ok .above => .error (.isDirectory path)
    | .ok (.inside wanted) =>
      match files.text? wanted with
      | some text => if namesDirectory path then .error (.notDirectory path) else .ok text
      | none => .error (.isDirectory path)

end Files

end WitSchema.Command

import WitSchema.Number.Double

/-! JSON values. Members of an object keep their order, and a number written
without fraction or exponent is an integer of any size. The same type carries
the arguments and results of native functions. Values count as equal if their
numbers are equal by value, `true` and `false` being one and zero, and objects
without regard to order. -/

namespace WitSchema

inductive Json
  | null
  | bool (b : Bool)
  | int (n : Int)
  | float (x : Float)
  | str (s : String)
  | arr (items : List Json)
  | obj (members : List (String × Json))
  deriving Inhabited

namespace Json

/-- Empty containers, zero, `false` and `null` are the values that count as absent. -/
def isTruthy : Json → Bool
  | null => false
  | bool b => b
  | int n => n != 0
  | float x => x != 0.0
  | str s => s != ""
  | arr items => !items.isEmpty
  | obj members => !members.isEmpty

def isNull : Json → Bool
  | null => true
  | _ => false

def member? : Json → String → Option Json
  | obj members, key => members.lookup key
  | _, _ => none

mutual

def nestsWithin : Nat → Json → Bool
  | levels + 1, arr items => itemsNestWithin levels items
  | levels + 1, obj members => membersNestWithin levels members
  | 0, arr _ | 0, obj _ => false
  | _, _ => true

def itemsNestWithin (levels : Nat) : List Json → Bool
  | [] => true
  | v :: rest => nestsWithin levels v && itemsNestWithin levels rest

def membersNestWithin (levels : Nat) : List (String × Json) → Bool
  | [] => true
  | (_, v) :: rest => nestsWithin levels v && membersNestWithin levels rest

end

end Json

/-- An insertion-ordered map as a list of pairs: a key that is there keeps its place. -/
def insertPair [BEq α] (key : α) (value : β) : List (α × β) → List (α × β)
  | [] => [(key, value)]
  | (k, v) :: rest =>
    if k == key then (k, value) :: rest else (k, v) :: insertPair key value rest

def insertPairs [BEq α] (pairs : List (α × β)) : List (α × β) :=
  pairs.foldl (fun acc p => insertPair p.1 p.2 acc) []

end WitSchema

namespace WitSchema.Json

def sameFloat (n : Int) (x : Float) : Bool := (Double.ofFloat x).integer? == some n

def integer? : Json → Option Int
  | int n => some n
  | bool b => some (if b then 1 else 0)
  | _ => none

def sameNumber (v w : Json) : Bool :=
  match v, w with
  | float x, float y => x == y
  | float x, _ => w.integer?.any (sameFloat · x)
  | _, float y => v.integer?.any (sameFloat · y)
  | _, _ => v.integer?.isSome && v.integer? == w.integer?

mutual

def same : Json → Json → Bool
  | null, null => true
  | str s, str t => s == t
  | arr xs, arr ys => sameItems xs ys
  | obj xs, obj ys => xs.length == ys.length && sameMembers xs ys
  | v, w => sameNumber v w

def sameItems : List Json → List Json → Bool
  | [], [] => true
  | v :: vs, w :: ws => v.same w && sameItems vs ws
  | _, _ => false

def sameMembers : List (String × Json) → List (String × Json) → Bool
  | [], _ => true
  | (k, v) :: rest, members =>
    (match members.lookup k with
      | some w => v.same w
      | none => false) && sameMembers rest members

end

instance : BEq Json := ⟨same⟩

end WitSchema.Json

import WitSchema.Error
import WitSchema.Json.Basic
import WitSchema.Notice
import WitSchema.Wit.Graph

/-! The state of conversion in one direction: the types of the nodes converted
so far, in the order in which they first came, the nodes under construction,
and the store of aggregates. -/

namespace WitSchema.Conversion

structure Cache (κ τ : Type) where
  entries : List (κ × τ)

namespace Cache

variable {κ τ : Type} [BEq κ]

def empty : Cache κ τ := ⟨[]⟩

def get? (c : Cache κ τ) (key : κ) : Option τ := c.entries.lookup key

def put (c : Cache κ τ) (key : κ) (value : τ) : Cache κ τ := ⟨insertPair key value c.entries⟩

def contains (c : Cache κ τ) (key : κ) : Bool := (c.get? key).isSome

def size (c : Cache κ τ) : Nat := c.entries.length

def keys (c : Cache κ τ) : List κ := c.entries.map (·.1)

end Cache

open GraphQL Wit

structure Side where
  cache : Cache Nat Ty
  building : List Nat
  aggregates : List Aggregate
  lists : Nat
  notices : List Notice

namespace Side

def empty : Side := ⟨.empty, [], [], 0, []⟩

def cached? (s : Side) (id : Nat) : Option Ty := s.cache.get? id

def put (s : Side) (id : Nat) (t : Ty) : Side :=
  { s with cache := s.cache.put id t }

def report (s : Side) (notices : List Notice) : Side :=
  { s with notices := s.notices ++ notices }

def enter (s : Side) (direction : Direction) (id : Nat) (name : Json) : Side :=
  { s with building := s.building ++ [id] }.report [.converting direction id name]

def leave (s : Side) : Side := { s with building := s.building.dropLast }

def allocate (s : Side) (a : Aggregate) : Side :=
  { s with aggregates := s.aggregates ++ [a] }

def addField (s : Side) (index : Nat) (name : String) (m : Member) : Side :=
  { s with aggregates := s.aggregates.modify index fun a =>
      { a with fields := insertPair name m a.fields } }

def newList (s : Side) (direction : Direction) (item : Ty) : Side × Ty :=
  ({ s with lists := s.lists + 1 }, .list direction s.lists item)

end Side

end WitSchema.Conversion

/-
  Reading records out of documents.

  INTERFACE.  `Datum V` says what a format's values can be read as: a truth value, a natural
  number, a double, a text, a list, the name of a value without content, or the fields of a
  record.  The record types of this library are read through it alone, so every format reads them
  by the same rules.

  RECORDS.  `slots names v` gives each declared field the value meant for it, if any.  A record is
  written by name, in any order, with names that are not declared ignored and none given twice, or
  by position, where it may be cut short.  What a missing field means is the reader's choice:
  `required`, `orElse` (a default) or `optional` (nothing, also when the value is empty).
-/
import TunnelSession.Binary64

namespace TunnelSession

/-- How a record is written. -/
inductive Datum.Shape (V : Type) where
  | named (members : List (String × V))
  | positional (items : List V)

/-- What the values of a format can be read as. -/
class Datum (V : Type) where
  flag : V → Option Bool
  natural : V → Option Nat
  real : V → Option Binary64
  text : V → Option String
  list : V → Option (List V)
  /-- The name of a value that has a name and no content. -/
  variant : V → Option String
  shape : V → Option (Datum.Shape V)
  /-- Is it the empty value, which stands for "not given"? -/
  isEmpty : V → Bool
  /-- May a record written by position have more items than fields? -/
  surplus : Bool

namespace Datum

variable {V : Type} [Datum V] {α : Type}

/-- The value of one name, which is given once at most. -/
def slot (members : List (String × V)) (name : String) : Option (Option V) :=
  match members.filter (·.1 == name) with
  | [] => some none
  | [m] => some (some m.2)
  | _ => none

/-- The values of the declared fields, in their order. -/
def slots (names : List String) (v : V) : Option (List (Option V)) :=
  match shape v with
  | some (.named members) => names.mapM (slot members)
  | some (.positional items) =>
    if surplus V || decide (items.length ≤ names.length) then
      some ((items.take names.length).map some ++ List.replicate (names.length - items.length) none)
    else none
  | none => none

/-- A field that has to be there. -/
def required (read : V → Option α) : Option V → Option α
  | none => none
  | some v => read v

/-- A field with a default. -/
def orElse (default : α) (read : V → Option α) : Option V → Option α
  | none => some default
  | some v => read v

/-- A field that may be missing or empty. -/
def optional (read : V → Option α) : Option V → Option (Option α)
  | none => some none
  | some v => if isEmpty v then some none else (read v).map some

/-- A natural number below a bound. -/
def below (bound : Nat) (v : V) : Option Nat :=
  match natural v with
  | some n => if n < bound then some n else none
  | none => none

/-- A byte. -/
def byte (v : V) : Option UInt8 := (below UInt8.size v).map UInt8.ofNat

/-- A natural number of 32 bits. -/
def word32 (v : V) : Option UInt32 := (below UInt32.size v).map UInt32.ofNat

/-- A natural number of 64 bits. -/
def word64 (v : V) : Option UInt64 := (below UInt64.size v).map UInt64.ofNat

/-- A list whose items are all readable. -/
def listOf (read : V → Option α) (v : V) : Option (List α) :=
  match list v with
  | some items => items.mapM read
  | none => none

end Datum

end TunnelSession

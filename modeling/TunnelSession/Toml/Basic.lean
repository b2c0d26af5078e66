/-
  TOML documents.

  VALUES.  A `Value` is a scalar, an array, a table, or the tables of a repeated header.  A table
  remembers how it came about (`Origin`), because that decides what may still be added to it.

  BUILDING.  `assign` gives a dotted key its value, `openTable` and `openRow` do what the headers
  `[a.b]` and `[[a.b]]` do.  All three walk a path through the members with `within`, and all fail
  instead of defining anything twice.
-/
import TunnelSession.Binary64

namespace TunnelSession.Toml

/-- A day. -/
structure Date where
  year : Nat
  month : Nat
  day : Nat
  deriving DecidableEq, Repr

/-- A time of day; the fraction of the second as its digits. -/
structure Time where
  hour : Nat
  minute : Nat
  second : Nat
  fraction : List Char
  deriving DecidableEq, Repr

/-- A date, a time or both, with an offset in minutes if both are there. -/
inductive Moment where
  | date (d : Date)
  | time (t : Time)
  | both (d : Date) (t : Time) (offset : Option Int)
  deriving DecidableEq, Repr

/-- How a table came about. -/
inductive Origin where
  /-- Written between braces. -/
  | inline
  /-- By a dotted key between braces. -/
  | inlineDotted
  /-- By its own header. -/
  | header
  /-- By the header of a table inside it. -/
  | implied
  /-- By a dotted key. -/
  | dotted
  deriving DecidableEq, Repr

/-- Was the table made by dotted keys? -/
def Origin.isDotted : Origin → Bool
  | .inlineDotted | .dotted => true
  | _ => false

/-- A TOML value. -/
inductive Value where
  | string (s : String)
  | integer (n : Int)
  | float (x : Binary64)
  | boolean (b : Bool)
  | moment (m : Moment)
  | array (items : List Value)
  | table (origin : Origin) (members : List (String × Value))
  /-- The tables of a repeated header. -/
  | rows (tables : List (List (String × Value)))

instance : Inhabited Value := ⟨.boolean false⟩

/-- The members of a table, in order. -/
abbrev Members := List (String × Value)

/-! ## Building tables -/

/-- Change the member of a name, or add it behind the others; the change is told whether it is
there, and may refuse. -/
def alter (name : String) (f : Option Value → Option Value) : Members → Option Members
  | [] => (f none).map fun v => [(name, v)]
  | (k, v) :: ms =>
    if k = name then (f (some v)).map fun w => (k, w) :: ms
    else (alter name f ms).map ((k, v) :: ·)

/-- How a path is walked: by a header, by a dotted key, or by a dotted key between braces. -/
inductive Walk where
  | header
  | dotted
  | braces
  deriving DecidableEq, Repr

/-- What a walk makes of a table that is not there. -/
def Walk.made : Walk → Origin
  | .header => .implied
  | .dotted => .dotted
  | .braces => .inlineDotted

/-- May the walk enter a table of this origin?  A dotted key does not reopen a table that has a
header, and nothing reopens one that was closed by its brace. -/
def Walk.enters : Walk → Origin → Bool
  | .header, .header | .header, .implied | .header, .dotted => true
  | .dotted, .implied | .dotted, .dotted => true
  | .braces, .inlineDotted => true
  | _, _ => false

/-- Change the last table of a repeated header. -/
def inLastRow (f : Members → Option Members) : List Members → Option (List Members)
  | [] => none
  | [row] => (f row).map ([·])
  | row :: rows => (inLastRow f rows).map (row :: ·)

/-- Work inside the table at the end of a path; a repeated header stands for its last table. -/
def within (walk : Walk) : List String → (Origin → Members → Option Members) → Origin → Members →
    Option Members
  | [], f, origin, ms => f origin ms
  | name :: path, f, _, ms =>
    alter name (fun
      | none => (within walk path f walk.made []).map (.table walk.made)
      | some (.table origin sub) =>
        if walk.enters origin then (within walk path f origin sub).map (.table origin) else none
      | some (.rows tables) =>
        if walk = .braces then none
        else (inLastRow (within walk path f .header) tables).map .rows
      | some _ => none) ms

/-- Add a member that is not there yet. -/
def insertNew (name : String) (v : Value) : Members → Option Members :=
  alter name fun
    | none => some v
    | some _ => none

/-- Give the dotted key `path.name` its value. -/
def assign (walk : Walk) (path : List String) (name : String) (v : Value) (origin : Origin)
    (ms : Members) :
    Option Members :=
  within walk path (fun origin ms =>
    -- a dotted key adds only to tables that dotted keys made
    if !path.isEmpty && !origin.isDotted then none else insertNew name v ms) origin ms

/-- The header `[path.name]`. -/
def openTable (path : List String) (name : String) (ms : Members) : Option Members :=
  within .header path (fun _ => alter name fun
    | none => some (.table .header [])
    -- a table that a header inside it made may still get its own header, once
    | some (.table .implied sub) => some (.table .header sub)
    | some _ => none) .header ms

/-- The header `[[path.name]]`. -/
def openRow (path : List String) (name : String) (ms : Members) : Option Members :=
  within .header path (fun _ => alter name fun
    | none => some (.rows [[]])
    | some (.rows tables) => some (.rows (tables ++ [[]]))
    | some _ => none) .header ms

/-! ## Bounds -/

/-- The largest integer, 2^63 - 1. -/
def integerMax : Nat := 0x7fffffffffffffff

/-- The most levels that values nest, and the most parts of a dotted key. -/
def depthMax : Nat := 79

end TunnelSession.Toml

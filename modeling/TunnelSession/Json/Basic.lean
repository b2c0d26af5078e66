/-
  JSON documents.

  THE TREE.  A `Json` keeps what a reader of records needs to know about a text and no more: the
  members of an object in order and with repetitions, a number as it is spelled (`Number`), and of a
  string whether it spells a text at all: an escape may name half of a surrogate pair, and such a
  string is `none`.

  NUMBERS.  An integer is a number without fraction and exponent, and "-0" is none.
  `Number.toBinary64` is the value as a double.  It is deliberately not always the nearest double:
  the digits that fit into 64 bits are taken, the rest only moves the point, and the power of ten
  is applied in steps of at most 10^308, each rounded.
-/
import TunnelSession.Binary64

namespace TunnelSession

/-- A number as it is spelled: digits of the whole part, of the fraction, and of the exponent (with
"is it negative" for the number and for the exponent). -/
structure Json.Number where
  negative : Bool
  whole : List Char
  fraction : List Char
  exponent : Option (Bool × List Char)
  deriving DecidableEq, Repr

/-- A JSON document. -/
inductive Json where
  | null
  | bool (b : Bool)
  | number (n : Json.Number)
  | string (s : Option String)
  | array (items : List Json)
  | object (members : List (Option String × Json))

namespace Json

instance : Inhabited Json := ⟨.null⟩

/-- A text as a document. -/
def text (s : String) : Json := .string (some s)

/-- An object from named members. -/
def record (members : List (String × Json)) : Json :=
  .object (members.map fun m => (some m.1, m.2))

/-- An optional document; nothing is `null`. -/
def ofOption {α : Type} (f : α → Json) : Option α → Json
  | none => .null
  | some a => f a

/-- A list of documents. -/
def list {α : Type} (f : α → Json) (l : List α) : Json := .array (l.map f)

namespace Number

/-- The spelling of a natural number. -/
def ofNat (n : Nat) : Number := ⟨false, Nat.toDigits 10 n, [], none⟩

/-- The number as a natural number, if it is spelled as one. -/
def toNat? (n : Number) : Option Nat :=
  if n.negative || !n.fraction.isEmpty || n.exponent.isSome then none
  else some (Nat.ofDigitChars 10 n.whole 0)

/-! ## The value as a double -/

/-- The largest natural number of 64 bits. -/
def wordMax : Nat := UInt64.size - 1

/-- The largest exponent that is still counted, 2^31 - 1. -/
def exponentMax : Nat := 0x7fffffff

/-- Append digits to a number as long as it stays within 64 bits; also the digits left over. -/
def absorb : Nat → List Char → Nat × List Char
  | n, [] => (n, [])
  | n, d :: ds =>
    let next := n * 10 + (d.toNat - '0'.toNat)
    if wordMax < next then (n, d :: ds) else absorb next ds

/-- The 64-bit significand of whole part and fraction, and the power of ten that goes with it: a
digit of the whole part that no longer fits counts one up, a digit of the fraction that fits one
down. -/
def significand (n : Number) : Nat × Int :=
  let (whole, dropped) := absorb 0 n.whole
  let (all, rest) := absorb whole n.fraction
  (all, (dropped.length : Int) - ((n.fraction.length - rest.length : Nat) : Int))

/-- Multiply by a power of ten, rounding once for every 308 places; past the largest double there
is no value.  `steps` bounds the number of divisions by 10^308. -/
def applyPower : (steps : Nat) → Binary64 → Int → Option Binary64
  | steps, x, e =>
    if e.natAbs ≤ 308 then
      if 0 ≤ e then
        let y := x.mul (.ofNat (Nat.pow 10 e.toNat))
        if y.isInfinite then none else some y
      else some (x.div (.ofNat (Nat.pow 10 (-e).toNat)))
    else if x.isZero then some x
    else if 0 ≤ e then none
    else match steps with
      | 0 => some x
      | steps + 1 => applyPower steps (x.div (.ofNat (Nat.pow 10 308))) (e + 308)

/-- Three divisions by 10^308 take every 64-bit number to zero. -/
def maxSteps : Nat := 3

/-- The magnitude as a double, unless it is past the largest one. -/
def magnitude (n : Number) : Option Binary64 :=
  let (digits, change) := n.significand
  match n.exponent with
  | none => applyPower maxSteps (.ofNat digits) change
  | some (down, ds) =>
    let size := Nat.ofDigitChars 10 ds 0
    -- an exponent too long to be counted leaves a zero, or nothing if it points upwards
    if exponentMax < size then if digits = 0 || down then some (.zero false) else none
    else applyPower maxSteps (.ofNat digits) (if down then change - size else change + size)

/-- The value as a double, unless it is past the largest one. -/
def toBinary64 (n : Number) : Option Binary64 :=
  n.magnitude.map fun x => if n.negative then x.neg else x

end Number

/-- A natural number as a document. -/
def nat (n : Nat) : Json := .number (.ofNat n)

end Json

end TunnelSession

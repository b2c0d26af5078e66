/-
  Reading JSON text.

  GRAMMAR.  The strict one: blanks are space, tab, carriage return and line feed; control
  characters in strings are escaped; numbers have no leading zero and a digit on both sides of the
  point; nothing but blanks follows the document.

  STRINGS.  A string is first read as `Piece`s, characters and 16-bit escapes; `join` then pairs
  the surrogates.  A string that cannot be joined is still well formed, and only whoever needs its
  text refuses it.

  TERMINATION.  Documents nest, so the three functions that read them take fuel; every two levels
  cost a character, hence twice the length of the text suffices.
-/
import TunnelSession.Json.Basic

namespace TunnelSession.Json

/-- Is it a blank between tokens? -/
def isSpace (c : Char) : Bool := c == ' ' || c == '\t' || c == '\n' || c == '\r'

/-- The text from its first token on. -/
def skipSpace (cs : List Char) : List Char := cs.dropWhile isSpace

/-- The value of a hexadecimal digit. -/
def hexValue (c : Char) : Option Nat :=
  if '0' ≤ c && c ≤ '9' then some (c.toNat - '0'.toNat)
  else if 'a' ≤ c && c ≤ 'f' then some (c.toNat - 'a'.toNat + 10)
  else if 'A' ≤ c && c ≤ 'F' then some (c.toNat - 'A'.toNat + 10)
  else none

/-! ## Strings -/

/-- A piece of a string: a character, or an escaped 16-bit unit. -/
inductive Piece where
  | char (c : Char)
  | unit (n : Nat)
  deriving DecidableEq, Repr

/-- The character that a one-letter escape names. -/
def escapeOf (c : Char) : Option Char :=
  if c = '\x22' || c = '\\' || c = '/' then some c
  else if c = 'b' then some '\x08'
  else if c = 'f' then some '\x0c'
  else if c = 'n' then some '\n'
  else if c = 'r' then some '\r'
  else if c = 't' then some '\t'
  else none

/-- The pieces up to the closing quote, and the text after it. -/
def pieces : List Char → Option (List Piece × List Char)
  | [] => none
  | '\\' :: 'u' :: a :: b :: c :: d :: rest => do
    let n := ((← hexValue a) * 16 + (← hexValue b)) * 256 + ((← hexValue c) * 16 + (← hexValue d))
    let (ps, rest) ← pieces rest
    some (.unit n :: ps, rest)
  | '\\' :: c :: rest => do
    let e ← escapeOf c
    let (ps, rest) ← pieces rest
    some (.char e :: ps, rest)
  | c :: rest =>
    if c = '\x22' then some ([], rest)
    else if c.toNat < 0x20 || c = '\\' then none
    else do
      let (ps, rest) ← pieces rest
      some (.char c :: ps, rest)

/-- Is it the first half of a surrogate pair? -/
def isHigh (n : Nat) : Bool := 0xd800 ≤ n && n < 0xdc00

/-- Is it the second half of a surrogate pair? -/
def isLow (n : Nat) : Bool := 0xdc00 ≤ n && n < 0xe000

/-- The text of the pieces, unless half a pair stands alone. -/
def join : List Piece → Option (List Char)
  | [] => some []
  | .char c :: ps => (join ps).map (c :: ·)
  | .unit h :: ps =>
    if isHigh h then
      match ps with
      | .unit l :: ps =>
        if isLow l then
          (join ps).map (Char.ofNat (0x10000 + (h - 0xd800) * 0x400 + (l - 0xdc00)) :: ·)
        else none
      | _ => none
    else if isLow h then none
    else (join ps).map (Char.ofNat h :: ·)

/-- A string, from behind its opening quote. -/
def stringTail (cs : List Char) : Option (Option String × List Char) := do
  let (ps, rest) ← pieces cs
  some ((join ps).map String.ofList, rest)

/-! ## Numbers -/

/-- One digit or more. -/
def digits1 (cs : List Char) : Option (List Char × List Char) :=
  match cs.takeWhile Char.isDigit with
  | [] => none
  | ds => some (ds, cs.dropWhile Char.isDigit)

/-- The whole part: a zero, or digits that do not start with one. -/
def wholePart : List Char → Option (List Char × List Char)
  | '0' :: rest => some (['0'], rest)
  | cs => digits1 cs

/-- The fraction, if a point follows. -/
def fractionPart : List Char → Option (List Char × List Char)
  | '.' :: rest => digits1 rest
  | cs => some ([], cs)

/-- A sign and digits. -/
def exponentDigits : List Char → Option ((Bool × List Char) × List Char)
  | '-' :: rest => (digits1 rest).map fun r => ((true, r.1), r.2)
  | '+' :: rest => (digits1 rest).map fun r => ((false, r.1), r.2)
  | cs => (digits1 cs).map fun r => ((false, r.1), r.2)

/-- The exponent, if its letter follows. -/
def exponentPart : List Char → Option (Option (Bool × List Char) × List Char)
  | 'e' :: rest => (exponentDigits rest).map fun r => (some r.1, r.2)
  | 'E' :: rest => (exponentDigits rest).map fun r => (some r.1, r.2)
  | cs => some (none, cs)

/-- A number without its sign. -/
def unsigned (negative : Bool) (cs : List Char) : Option (Number × List Char) := do
  let (whole, cs) ← wholePart cs
  let (fraction, cs) ← fractionPart cs
  let (exponent, cs) ← exponentPart cs
  some (⟨negative, whole, fraction, exponent⟩, cs)

/-- A number. -/
def numeral : List Char → Option (Number × List Char)
  | '-' :: rest => unsigned true rest
  | cs => unsigned false cs

/-! ## Documents -/

mutual

/-- A document, and the text after it. -/
def value : (fuel : Nat) → List Char → Option (Json × List Char)
  | 0, _ => none
  | fuel + 1, cs =>
    match skipSpace cs with
    | '\x22' :: rest => (stringTail rest).map fun r => (.string r.1, r.2)
    | '[' :: rest =>
      match skipSpace rest with
      | ']' :: rest => some (.array [], rest)
      | _ => (items fuel rest).map fun r => (.array r.1, r.2)
    | '\x7b' :: rest =>
      match skipSpace rest with
      | '\x7d' :: rest => some (.object [], rest)
      | _ => (members fuel rest).map fun r => (.object r.1, r.2)
    | 'n' :: 'u' :: 'l' :: 'l' :: rest => some (.null, rest)
    | 't' :: 'r' :: 'u' :: 'e' :: rest => some (.bool true, rest)
    | 'f' :: 'a' :: 'l' :: 's' :: 'e' :: rest => some (.bool false, rest)
    | rest => (numeral rest).map fun r => (.number r.1, r.2)

/-- The items of an array up to its bracket. -/
def items : (fuel : Nat) → List Char → Option (List Json × List Char)
  | 0, _ => none
  | fuel + 1, cs => do
    let (v, rest) ← value fuel cs
    match skipSpace rest with
    | ',' :: rest =>
      let (vs, rest) ← items fuel rest
      some (v :: vs, rest)
    | ']' :: rest => some ([v], rest)
    | _ => none

/-- The members of an object up to its brace. -/
def members : (fuel : Nat) → List Char → Option (List (Option String × Json) × List Char)
  | 0, _ => none
  | fuel + 1, cs =>
    match skipSpace cs with
    | '\x22' :: rest => do
      let (name, rest) ← stringTail rest
      match skipSpace rest with
      | ':' :: rest =>
        let (v, rest) ← value fuel rest
        match skipSpace rest with
        | ',' :: rest =>
          let (ms, rest) ← members fuel rest
          some ((name, v) :: ms, rest)
        | '\x7d' :: rest => some ([(name, v)], rest)
        | _ => none
      | _ => none
    | _ => none

end

/-- The document that a text spells, if it spells one. -/
def parse (s : String) : Option Json :=
  match value (2 * s.length + 2) s.toList with
  | some (v, rest) => if (skipSpace rest).isEmpty then some v else none
  | none => none

end TunnelSession.Json

/-
  Writing TOML text.

  STRINGS.  A string takes the first of four forms that needs no escape and fits: one line between
  double quotes, one line between apostrophes, three double quotes, three apostrophes; else it is
  escaped, on several lines if it has a line break and on one if not (`Form.of`).  Three double
  quotes never stand in a row inside a string: every third is escaped.

  ARRAYS.  Up to one item on one line; more, each on a line of its own, indented by four places
  and with a comma behind it.

  DOCUMENTS.  Assignments, then each section with an empty line and its header in front.
-/
import TunnelSession.Toml.Text

namespace TunnelSession.Toml

/-! ## Strings -/

/-- Does it need an escape wherever it stands? -/
def isControl (c : Char) : Bool := (c.toNat < 0x20 && c != '\t' && c != '\n') || c.toNat == 0x7f

/-- The longest run of a character, where `here` of them stand in front already and `best` is the
longest run so far. -/
def longestOf (c : Char) : (here best : Nat) → List Char → Nat
  | here, best, [] => max here best
  | here, best, d :: ds =>
    if d = c then longestOf c (here + 1) best ds else longestOf c 0 (max here best) ds

/-- The form of a written string. -/
inductive Form where
  | basic
  | literal
  | basicLines
  | literalLines
  deriving DecidableEq, Repr

/-- The form that a string takes. -/
def Form.of (cs : List Char) : Form :=
  let controls := cs.any isControl
  let backslash := cs.contains '\\'
  let breaks := cs.contains '\n'
  let quotes := longestOf '\x22' 0 0 cs
  let apostrophes := longestOf apostrophe 0 0 cs
  if !controls && !backslash && quotes == 0 && !breaks then .basic
  else if !controls && apostrophes == 0 && !breaks then .literal
  else if !controls && !backslash && quotes ≤ 2 then .basicLines
  else if !controls && apostrophes ≤ 2 then .literalLines
  else if breaks then .basicLines
  else .basic

/-- An upper-case hexadecimal digit. -/
def upperHex (n : Nat) : Char := (Nat.digitChar (n % 16)).toUpper

/-- The escape of a character that is never written as it is, if it is one. -/
def escape? (c : Char) : Option (List Char) :=
  if c = '\x08' then some ['\\', 'b']
  else if c = '\t' then some ['\\', 't']
  else if c = '\x0c' then some ['\\', 'f']
  else if c = '\r' then some ['\\', 'r']
  else if c = '\\' then some ['\\', '\\']
  else if isControl c then some ['\\', 'u', '0', '0', upperHex (c.toNat / 16), upperHex c.toNat]
  else none

/-- A character of a string on one line. -/
def escapeChar (c : Char) : List Char :=
  if c = '\x22' then ['\\', '\x22']
  else if c = '\n' then ['\\', 'n']
  else (escape? c).getD [c]

/-- The characters of a string on several lines, behind `quotes` double quotes in a row. -/
def escapeLines : (quotes : Nat) → List Char → List Char
  | _, [] => []
  | quotes, c :: cs =>
    if c = '\x22' then
      if quotes = 2 then '\\' :: '\x22' :: escapeLines 0 cs
      else '\x22' :: escapeLines (quotes + 1) cs
    else (escape? c).getD [c] ++ escapeLines 0 cs

/-- A line break in front of a string that has one. -/
def leadingBreak (cs : List Char) : List Char := if cs.contains '\n' then ['\n'] else []

/-- A string between its quotes. -/
def printText (cs : List Char) : List Char :=
  match Form.of cs with
  | .basic => '\x22' :: (cs.flatMap escapeChar ++ ['\x22'])
  | .literal => apostrophe :: (cs ++ [apostrophe])
  | .basicLines =>
    List.replicate 3 '\x22' ++ leadingBreak cs ++ escapeLines 0 cs ++ List.replicate 3 '\x22'
  | .literalLines =>
    List.replicate 3 apostrophe ++ leadingBreak cs ++ cs ++ List.replicate 3 apostrophe

/-! ## Documents -/

/-- The values that this library writes. -/
inductive Field where
  | flag (b : Bool)
  | natural (n : Nat)
  | text (s : String)
  | texts (l : List String)
  deriving DecidableEq, Repr

/-- A string. -/
def printString (s : String) : List Char := printText s.toList

/-- An array of strings. -/
def printTexts : List String → List Char
  | [] => ['[', ']']
  | [s] => '[' :: (printString s ++ [']'])
  | l =>
    '[' :: '\n' ::
      (l.flatMap (fun s => List.replicate 4 ' ' ++ printString s ++ [',', '\n']) ++ [']'])

/-- A value. -/
def printField : Field → List Char
  | .flag true => "true".toList
  | .flag false => "false".toList
  | .natural n => Nat.toDigits 10 n
  | .text s => printString s
  | .texts l => printTexts l

/-- Assignments, one a line. -/
def printFields (fields : List (String × Field)) : List Char :=
  fields.flatMap fun f => f.1.toList ++ " = ".toList ++ printField f.2 ++ ['\n']

/-- Assignments and sections. -/
def printDocument (fields : List (String × Field))
    (sections : List (String × List (String × Field))) : List Char :=
  printFields fields ++ sections.flatMap fun s =>
    '\n' :: '[' :: (s.1.toList ++ [']', '\n'] ++ printFields s.2)

/-- Is the value one that can be written?  A number has to fit into 64 bits with sign. -/
def Field.fits : Field → Bool
  | .natural n => n ≤ integerMax
  | _ => true

end TunnelSession.Toml

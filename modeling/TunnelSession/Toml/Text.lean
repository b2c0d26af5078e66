/-
  TOML strings and keys.

  STRINGS.  Four forms: between double quotes, with escapes; between apostrophes, without; and
  both with three quotes, on several lines.  Forms on several lines drop a line break right behind
  the opening quotes, read every break as a line feed, and may have one or two quotes before the
  closing three.  A backslash at the end of a line drops the blanks and breaks after it.

  KEYS.  A key is a path of names with points between them, each bare or between single quotes of
  either kind.
-/
import TunnelSession.Toml.Scalar

namespace TunnelSession.Toml

/-- The apostrophe. -/
def apostrophe : Char := '\x27'

/-- Is it a blank within a line? -/
def isSpace (c : Char) : Bool := c == ' ' || c == '\t'

/-- The text from the next character that is not a blank. -/
def skipSpace (cs : List Char) : List Char := cs.dropWhile isSpace

/-- May it stand in a string or a comment as it is? -/
def isPrintable (c : Char) : Bool := c == '\t' || (0x20 ≤ c.toNat && c.toNat != 0x7f)

/-- The character of hexadecimal digits. -/
def codePoint (ds : List Char) : Option Char :=
  if ds.all isHexDigit then
    let n := digitsValue 16 ds
    if n.isValidChar then some (Char.ofNat n) else none
  else none

/-- The character that a one-letter escape names. -/
def escapeOf (c : Char) : Option Char :=
  if c = '\x22' || c = '\\' then some c
  else if c = 'b' then some '\x08'
  else if c = 'f' then some '\x0c'
  else if c = 'n' then some '\n'
  else if c = 'r' then some '\r'
  else if c = 't' then some '\t'
  else none

/-- Put a character in front of what was found. -/
def push (c : Char) (r : Option (List Char × List Char)) : Option (List Char × List Char) :=
  r.map fun r => (c :: r.1, r.2)

/-! ## On one line -/

/-- A string with escapes, from behind its quote. -/
def basicTail : List Char → Option (List Char × List Char)
  | '\\' :: 'u' :: a :: b :: c :: d :: rest =>
    (codePoint [a, b, c, d]).bind fun e => push e (basicTail rest)
  | '\\' :: 'U' :: a :: b :: c :: d :: e :: f :: g :: h :: rest =>
    (codePoint [a, b, c, d, e, f, g, h]).bind fun e => push e (basicTail rest)
  | '\\' :: c :: rest => (escapeOf c).bind fun e => push e (basicTail rest)
  | c :: rest =>
    if c = '\x22' then some ([], rest)
    else if isPrintable c && c != '\\' then push c (basicTail rest)
    else none
  | [] => none

/-- A string without escapes, from behind its apostrophe. -/
def literalTail : List Char → Option (List Char × List Char)
  | [] => none
  | c :: rest =>
    if c = apostrophe then some ([], rest)
    else if isPrintable c then push c (literalTail rest)
    else none

/-! ## On several lines -/

/-- Drop a line break. -/
def dropBreak : List Char → List Char
  | '\n' :: rest => rest
  | '\r' :: '\n' :: rest => rest
  | cs => cs

/-- Is only a line break left on the line? -/
def endsLine (cs : List Char) : Bool :=
  match skipSpace cs with
  | '\n' :: _ => true
  | '\r' :: '\n' :: _ => true
  | _ => false

/-- What follows three closing quotes: up to two quotes more belong to the string. -/
def closing (quote : Char) : List Char → List Char × List Char
  | c :: d :: rest =>
    if c = quote then
      if d = quote then ([quote, quote], rest) else ([quote], d :: rest)
    else ([], c :: d :: rest)
  | [c] => if c = quote then ([quote], []) else ([], [c])
  | [] => ([], [])

/-- Do three quotes stand here? -/
def closes (quote : Char) : List Char → Bool
  | a :: b :: c :: _ => a == quote && b == quote && c == quote
  | _ => false

/-- A string with escapes on several lines.  While `skipping`, blanks and breaks are dropped. -/
def basicLines : (skipping : Bool) → List Char → Option (List Char × List Char)
  | skipping, '\r' :: '\n' :: rest =>
    if skipping then basicLines true rest else push '\n' (basicLines false rest)
  | _, '\\' :: 'u' :: a :: b :: c :: d :: rest =>
    (codePoint [a, b, c, d]).bind fun e => push e (basicLines false rest)
  | _, '\\' :: 'U' :: a :: b :: c :: d :: e :: f :: g :: h :: rest =>
    (codePoint [a, b, c, d, e, f, g, h]).bind fun e => push e (basicLines false rest)
  | _, '\\' :: c :: rest =>
    match escapeOf c with
    | some e => push e (basicLines false rest)
    -- a backslash that names nothing has to be the last on its line
    | none => if endsLine (c :: rest) then basicLines true (c :: rest) else none
  | skipping, c :: rest =>
    if closes '\x22' (c :: rest) then some (closing '\x22' (rest.drop 2))
    else if c = '\n' then
      if skipping then basicLines true rest else push '\n' (basicLines false rest)
    else if skipping && isSpace c then basicLines true rest
    else if isPrintable c && c != '\\' then push c (basicLines false rest)
    else none
  | _, [] => none
  termination_by _ cs => cs.length

/-- A string without escapes on several lines. -/
def literalLines : List Char → Option (List Char × List Char)
  | '\r' :: '\n' :: rest => push '\n' (literalLines rest)
  | c :: rest =>
    if closes apostrophe (c :: rest) then some (closing apostrophe (rest.drop 2))
    else if c = '\n' || isPrintable c then push c (literalLines rest)
    else none
  | [] => none

/-- A string of any form. -/
def text (cs : List Char) : Option (String × List Char) :=
  let found :=
    if closes '\x22' cs then basicLines false (dropBreak (cs.drop 3))
    else if closes apostrophe cs then literalLines (dropBreak (cs.drop 3))
    else match cs with
      | c :: rest =>
        if c = '\x22' then basicTail rest
        else if c = apostrophe then literalTail rest
        else none
      | [] => none
  found.map fun r => (String.ofList r.1, r.2)

/-! ## Keys -/

/-- May it stand in a bare name? -/
def isBare (c : Char) : Bool := c.isAlphanum || c == '-' || c == '_'

/-- A name. -/
def name (cs : List Char) : Option (String × List Char) :=
  match cs with
  | [] => none
  | c :: rest =>
    if c = '\x22' then (basicTail rest).map fun r => (String.ofList r.1, r.2)
    else if c = apostrophe then (literalTail rest).map fun r => (String.ofList r.1, r.2)
    else if isBare c then some (String.ofList (cs.takeWhile isBare), cs.dropWhile isBare)
    else none

/-- The names of a key, blanks around each of them dropped. -/
def names : (fuel : Nat) → List Char → Option (List String × List Char)
  | 0, _ => none
  | fuel + 1, cs => do
    let (n, rest) ← name (skipSpace cs)
    match skipSpace rest with
    | '.' :: rest =>
      let (ns, rest) ← names fuel rest
      some (n :: ns, rest)
    | rest => some ([n], rest)

/-- A key: the path before its last name, and the last name. -/
def key (cs : List Char) : Option ((List String × String) × List Char) := do
  let (ns, rest) ← names (cs.length + 1) cs
  if ns.length ≤ depthMax then
    match ns.getLast? with
    | some last => some ((ns.dropLast, last), rest)
    | none => none
  else none

end TunnelSession.Toml

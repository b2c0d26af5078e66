/-
  TOML numbers, dates and times.

  NUMBERS.  Digits may have single underscores between them.  An integer has an optional sign and
  no leading zero, or a lower-case prefix for base 16, 8 or 2 and no sign; it fits into 64 bits
  with sign.  A float has a fraction, an exponent or both, and does not overflow upwards.

  DATES.  A day exists in its month, leap years counted; a minute may have 60 as its last second;
  an offset has at most 24 hours.
-/
import TunnelSession.Toml.Basic

namespace TunnelSession.Toml

/-- A scanner of a text: what it found, and the text after it. -/
abbrev Scan (α : Type) := List Char → Option (α × List Char)

/-! ## Digits -/

/-- Digits with single underscores between them, without the underscores. -/
def digitRun (isDigit : Char → Bool) : List Char → List Char × List Char
  | '_' :: c :: rest =>
    if isDigit c then
      let r := digitRun isDigit rest
      (c :: r.1, r.2)
    else ([], '_' :: c :: rest)
  | c :: rest =>
    if isDigit c then
      let r := digitRun isDigit rest
      (c :: r.1, r.2)
    else ([], c :: rest)
  | [] => ([], [])

/-- A run that starts with a digit. -/
def digits1 (isDigit : Char → Bool) : Scan (List Char)
  | c :: rest => if isDigit c then some (digitRun isDigit (c :: rest)) else none
  | [] => none

/-- Exactly `n` digits, as a number. -/
def fixedDigits (n : Nat) (cs : List Char) : Option (Nat × List Char) :=
  let ds := cs.take n
  if ds.length = n && ds.all Char.isDigit then some (Nat.ofDigitChars 10 ds 0, cs.drop n) else none

/-- One given character. -/
def expect (c : Char) : List Char → Option (List Char)
  | d :: rest => if c = d then some rest else none
  | [] => none

/-! ## Integers -/

/-- Is it a digit of base 16? -/
def isHexDigit (c : Char) : Bool :=
  c.isDigit || ('a' ≤ c && c ≤ 'f') || ('A' ≤ c && c ≤ 'F')

/-- The value of a digit of base 16. -/
def hexDigitValue (c : Char) : Nat :=
  if c.isDigit then c.toNat - '0'.toNat
  else if 'a' ≤ c && c ≤ 'f' then c.toNat - 'a'.toNat + 10
  else c.toNat - 'A'.toNat + 10

/-- The value of digits in a base up to 16. -/
def digitsValue (base : Nat) (ds : List Char) : Nat :=
  ds.foldl (fun n d => n * base + hexDigitValue d) 0

/-- A sign, if there is one: is it negative? -/
def sign : List Char → Bool × List Char
  | '-' :: rest => (true, rest)
  | '+' :: rest => (false, rest)
  | cs => (false, cs)

/-- Decimal digits without a leading zero. -/
def plainDigits : Scan (List Char)
  | '0' :: rest => some (['0'], rest)
  | cs => digits1 Char.isDigit cs

/-- An integer in a base that has a prefix. -/
def prefixedInteger (base : Nat) (isDigit : Char → Bool) (cs : List Char) :
    Option (Int × List Char) := do
  let (ds, rest) ← digits1 isDigit cs
  let n := digitsValue base ds
  if n ≤ integerMax then some ((n : Int), rest) else none

/-- An integer. -/
def integer : Scan Int
  | '0' :: 'x' :: rest => prefixedInteger 16 isHexDigit rest
  | '0' :: 'o' :: rest => prefixedInteger 8 (fun c => '0' ≤ c && c ≤ '7') rest
  | '0' :: 'b' :: rest => prefixedInteger 2 (fun c => c == '0' || c == '1') rest
  | cs => do
    let (negative, cs) := sign cs
    let (ds, rest) ← plainDigits cs
    let n := Nat.ofDigitChars 10 ds 0
    if negative then
      if n ≤ integerMax + 1 then some (-(n : Int), rest) else none
    else if n ≤ integerMax then some ((n : Int), rest) else none

/-! ## Floats -/

/-- The digits after a point. -/
def fraction : Scan (List Char)
  | '.' :: rest => digits1 Char.isDigit rest
  | _ => none

/-- The number after the letter of an exponent. -/
def exponent (cs : List Char) : Option (Int × List Char) :=
  match cs with
  | [] => none
  | c :: rest =>
    if c = 'e' || c = 'E' then
      let (negative, rest) := sign rest
      (digits1 Char.isDigit rest).map fun (ds, rest) =>
        let n : Int := Nat.ofDigitChars 10 ds 0
        (if negative then -n else n, rest)
    else none

/-- A float with digits. -/
def decimal (cs : List Char) : Option (Binary64 × List Char) := do
  let (negative, cs) := sign cs
  let (whole, cs) ← plainDigits cs
  let (digits, e, rest) ←
    match fraction cs with
    | some (ds, cs) =>
      match exponent cs with
      | some (e, cs) => some (ds, e, cs)
      | none => some (ds, 0, cs)
    | none => (exponent cs).map fun (e, cs) => ([], e, cs)
  let all := whole ++ digits
  let significand := Nat.ofDigitChars 10 all 0
  let x := Binary64.ofDecimal negative significand all.length (e - (digits.length : Int))
  -- a float too large is refused, but one too far below zero is an infinity
  if x = .infinity false then none else some (x, rest)

/-- A float by name. -/
def namedFloat (cs : List Char) : Option (Binary64 × List Char) :=
  let (negative, cs) := sign cs
  match cs with
  | 'i' :: 'n' :: 'f' :: rest => some (.infinity negative, rest)
  | 'n' :: 'a' :: 'n' :: rest => some (.nan, rest)
  | _ => none

/-! ## Dates and times -/

/-- Has the year a 29th of February? -/
def isLeapYear (year : Nat) : Bool := year % 4 == 0 && (year % 100 != 0 || year % 400 == 0)

/-- How many days a month has. -/
def daysInMonth (year month : Nat) : Nat :=
  if month = 2 then if isLeapYear year then 29 else 28
  else if month = 4 ∨ month = 6 ∨ month = 9 ∨ month = 11 then 30
  else 31

/-- A day. -/
def date (cs : List Char) : Option (Date × List Char) := do
  let (year, cs) ← fixedDigits 4 cs
  let cs ← expect '-' cs
  let (month, cs) ← fixedDigits 2 cs
  let cs ← expect '-' cs
  let (day, cs) ← fixedDigits 2 cs
  if 1 ≤ month && month ≤ 12 && 1 ≤ day && day ≤ daysInMonth year month then
    some (⟨year, month, day⟩, cs)
  else none

/-- The fraction of a second, if there is one. -/
def secondFraction (cs : List Char) : List Char × List Char :=
  match cs with
  | '.' :: rest =>
    if (rest.takeWhile Char.isDigit).isEmpty then ([], cs)
    else (rest.takeWhile Char.isDigit, rest.dropWhile Char.isDigit)
  | _ => ([], cs)

/-- A time of day. -/
def time (cs : List Char) : Option (Time × List Char) := do
  let (hour, cs) ← fixedDigits 2 cs
  let cs ← expect ':' cs
  let (minute, cs) ← fixedDigits 2 cs
  let cs ← expect ':' cs
  let (second, cs) ← fixedDigits 2 cs
  let (fraction, cs) := secondFraction cs
  if hour ≤ 23 && minute ≤ 59 && second ≤ 60 then some (⟨hour, minute, second, fraction⟩, cs)
  else none

/-- An offset in minutes. -/
def offset (cs : List Char) : Option (Int × List Char) :=
  match cs with
  | [] => none
  | c :: rest =>
    if c = 'Z' || c = 'z' then some (0, rest)
    else if c = '+' || c = '-' then do
      let (hour, rest) ← fixedDigits 2 rest
      let rest ← expect ':' rest
      let (minute, rest) ← fixedDigits 2 rest
      let total : Int := (hour * 60 + minute : Nat)
      if hour ≤ 23 && minute ≤ 59 then some (if c = '-' then -total else total, rest) else none
    else none

/-- The time behind a date, if it is there. -/
def timeBehind (d : Date) (cs : List Char) : Option (Moment × List Char) :=
  match cs with
  | [] => none
  | c :: rest =>
    if c = 'T' || c = 't' || c = ' ' then do
      let (t, rest) ← time rest
      match offset rest with
      | some (o, rest) => some (.both d t (some o), rest)
      | none => some (.both d t none, rest)
    else none

/-- A date, a time or both. -/
def moment (cs : List Char) : Option (Moment × List Char) :=
  match date cs with
  | some (d, rest) =>
    match timeBehind d rest with
    | some r => some r
    | none => some (.date d, rest)
  | none => (time cs).map fun (t, rest) => (.time t, rest)

/-- A number, a date or a time. -/
def numeric (cs : List Char) : Option (Value × List Char) :=
  -- longest form first: a date starts like a number, and a float like an integer
  match moment cs with
  | some (m, rest) => some (.moment m, rest)
  | none =>
    match decimal cs with
    | some (x, rest) => some (.float x, rest)
    | none =>
      match namedFloat cs with
      | some (x, rest) => some (.float x, rest)
      | none => (integer cs).map fun (n, rest) => (.integer n, rest)

end TunnelSession.Toml

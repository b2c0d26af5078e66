/-
  Writing JSON text.

  FORM.  No blanks; members in their order; a string escapes the quote, the backslash and control
  characters, and writes every other character as it is.  A string without a text is written as the
  lone surrogate that made it so.
-/
import TunnelSession.Json.Basic

namespace TunnelSession.Json

/-- A lower-case hexadecimal digit. -/
def hexDigit (n : Nat) : Char := Nat.digitChar (n % 16)

/-- A character inside a string. -/
def escapeChar (c : Char) : List Char :=
  if c = '\x22' then ['\\', '\x22']
  else if c = '\\' then ['\\', '\\']
  else if c.toNat < 0x20 then
    ['\\', 'u', '0', '0', hexDigit (c.toNat / 16), hexDigit c.toNat]
  else [c]

/-- A string between quotes. -/
def quote (s : String) : List Char :=
  '\x22' :: (s.toList.flatMap escapeChar ++ ['\x22'])

/-- A string, or the escape that spells none. -/
def renderString : Option String → List Char
  | some s => quote s
  | none => '\x22' :: '\\' :: 'u' :: 'd' :: '8' :: '0' :: '0' :: ['\x22']

/-- A number as it is spelled. -/
def renderNumber (n : Number) : List Char :=
  (if n.negative then ['-'] else []) ++ n.whole ++
    (if n.fraction.isEmpty then [] else '.' :: n.fraction) ++
    match n.exponent with
    | none => []
    | some (down, ds) => 'e' :: ((if down then ['-'] else []) ++ ds)

mutual

/-- A document as text. -/
def render : Json → List Char
  | .null => "null".toList
  | .bool true => "true".toList
  | .bool false => "false".toList
  | .number n => renderNumber n
  | .string s => renderString s
  | .array vs => '[' :: (renderItems vs ++ [']'])
  | .object ms => '\x7b' :: (renderMembers ms ++ ['\x7d'])

/-- Items with commas between them. -/
def renderItems : List Json → List Char
  | [] => []
  | [v] => render v
  | v :: w :: vs => render v ++ ',' :: renderItems (w :: vs)

/-- Members with commas between them. -/
def renderMembers : List (Option String × Json) → List Char
  | [] => []
  | [m] => renderString m.1 ++ ':' :: render m.2
  | m :: n :: ms => renderString m.1 ++ ':' :: (render m.2 ++ ',' :: renderMembers (n :: ms))

end

/-- A document as a string. -/
def print (v : Json) : String := String.ofList v.render

end TunnelSession.Json

/-
  Reading TOML text.

  LINES.  A document is a sequence of lines: an assignment, a header, a comment, or nothing.
  `lines` adds them to the document one by one; an assignment goes into the table of the latest
  header.

  VALUES.  Arrays may be spread over lines with comments in them and a comma behind the last item;
  tables between braces may not.  Both nest to `depthMax` levels.

  TERMINATION.  Values nest, so their readers take fuel, and so does the loop over lines; the
  length of the text suffices for both.
-/
import TunnelSession.Toml.Text

namespace TunnelSession.Toml

/-- Drop blanks, line breaks and comments; stops where something else stands. -/
def skipGap : (inComment : Bool) → List Char → List Char
  | _, '\r' :: '\n' :: rest => skipGap false rest
  | inComment, c :: rest =>
    if c = '\n' then skipGap false rest
    else if inComment then if isPrintable c then skipGap true rest else c :: rest
    else if isSpace c then skipGap false rest
    else if c = '#' then skipGap true rest
    else c :: rest
  | _, [] => []

/-- The rest of a line: blanks and a comment at most.  The text after its break. -/
def lineEnd (cs : List Char) : Option (List Char) :=
  let rest :=
    match skipSpace cs with
    | '#' :: rest => rest.dropWhile isPrintable
    | rest => rest
  match rest with
  | [] => some []
  | '\n' :: rest => some rest
  | '\r' :: '\n' :: rest => some rest
  | _ => none

/-! ## Values -/

mutual

/-- A value; `depth` levels may nest in it. -/
def value : (fuel depth : Nat) → List Char → Option (Value × List Char)
  | 0, _, _ => none
  | fuel + 1, depth, cs =>
    match cs with
    | [] => none
    | '[' :: rest =>
      match depth with
      | 0 => none
      | depth + 1 => (items fuel depth rest).map fun r => (.array r.1, r.2)
    | '\x7b' :: rest =>
      match depth with
      | 0 => none
      | depth + 1 =>
        match skipSpace rest with
        | '\x7d' :: rest => some (.table .inline [], rest)
        | rest => do
          let (ms, rest) ← braces fuel depth [] rest
          some (.table .inline ms, rest)
    | 't' :: 'r' :: 'u' :: 'e' :: rest => some (.boolean true, rest)
    | 'f' :: 'a' :: 'l' :: 's' :: 'e' :: rest => some (.boolean false, rest)
    | c :: rest =>
      if c = '\x22' || c = apostrophe then (text (c :: rest)).map fun r => (.string r.1, r.2)
      else numeric (c :: rest)

/-- The items of an array up to its bracket. -/
def items : (fuel depth : Nat) → List Char → Option (List Value × List Char)
  | 0, _, _ => none
  | fuel + 1, depth, cs =>
    match skipGap false cs with
    | ']' :: rest => some ([], rest)
    | rest => do
      let (v, rest) ← value fuel depth rest
      match skipGap false rest with
      | ',' :: rest =>
        let (vs, rest) ← items fuel depth rest
        some (v :: vs, rest)
      | ']' :: rest => some ([v], rest)
      | _ => none

/-- The members of a table up to its brace, behind those already read. -/
def braces : (fuel depth : Nat) → Members → List Char → Option (Members × List Char)
  | 0, _, _, _ => none
  | fuel + 1, depth, ms, cs => do
    let ((path, last), rest) ← key cs
    let rest ← expect '=' rest
    let (v, rest) ← value fuel depth (skipSpace rest)
    let ms ← assign .braces path last v .inline ms
    match skipSpace rest with
    | ',' :: rest => braces fuel depth ms rest
    | '\x7d' :: rest => some (ms, rest)
    | _ => none

end

/-! ## Lines -/

/-- A line. -/
inductive Line where
  | empty
  | assignment (path : List String) (last : String) (v : Value)
  | table (path : List String) (last : String)
  | row (path : List String) (last : String)

/-- The next line, and the text after it. -/
def line (cs : List Char) : Option (Line × List Char) :=
  match skipSpace cs with
  | [] => some (.empty, [])
  | '[' :: '[' :: rest => do
    let ((path, last), rest) ← key rest
    let rest ← lineEnd (← expect ']' (← expect ']' rest))
    some (.row path last, rest)
  | '[' :: rest => do
    let ((path, last), rest) ← key rest
    let rest ← lineEnd (← expect ']' rest)
    some (.table path last, rest)
  | c :: rest =>
    if c = '#' || c = '\n' || c = '\r' then (lineEnd (c :: rest)).map fun rest => (.empty, rest)
    else do
      let ((path, last), rest) ← key (c :: rest)
      let rest ← expect '=' rest
      let (v, rest) ← value (2 * rest.length + 2) depthMax (skipSpace rest)
      let rest ← lineEnd rest
      some (.assignment path last v, rest)

/-- A document that is being read: what was defined, and the path of the latest header. -/
structure Draft where
  members : Members
  header : List String

/-- Add a line. -/
def Draft.add (d : Draft) : Line → Option Draft
  | .empty => some d
  | .assignment path last v =>
    (within .header d.header (assign .dotted path last v) .header d.members).map
      fun ms => { d with members := ms }
  | .table path last => (openTable path last d.members).map fun ms => ⟨ms, path ++ [last]⟩
  | .row path last => (openRow path last d.members).map fun ms => ⟨ms, path ++ [last]⟩

/-- Add the lines of a text. -/
def lines : (fuel : Nat) → Draft → List Char → Option Draft
  | 0, d, cs => if cs.isEmpty then some d else none
  | fuel + 1, d, cs =>
    if cs.isEmpty then some d
    else do
      let (l, rest) ← line cs
      lines fuel (← d.add l) rest

/-- Drop a byte-order mark. -/
def dropMark : List Char → List Char
  | c :: rest => if c.toNat = 0xfeff then rest else c :: rest
  | [] => []

/-- The document that a text spells, as one table. -/
def parse (s : String) : Option Value :=
  let cs := dropMark s.toList
  (lines cs.length ⟨[], []⟩ cs).map fun d => .table .header d.members

end TunnelSession.Toml

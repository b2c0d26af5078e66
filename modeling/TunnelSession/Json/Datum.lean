/-
  JSON documents as record sources.

  RULES.  `null` is the empty value.  A value without content is its name as a string, or an
  object with that name as its only member and `null` behind it.  A record written by position has
  no item too many.  A string that spells no text is refused as a value and as a name.
-/
import TunnelSession.Datum
import TunnelSession.Json.Basic

namespace TunnelSession.Json

/-- The members of an object whose names all spell a text. -/
def namedMembers (members : List (Option String × Json)) : Option (List (String × Json)) :=
  members.mapM fun m => m.1.map fun name => (name, m.2)

instance : Datum Json where
  flag
    | .bool b => some b
    | _ => none
  natural
    | .number n => n.toNat?
    | _ => none
  real
    | .number n => n.toBinary64
    | _ => none
  text
    | .string s => s
    | _ => none
  list
    | .array items => some items
    | _ => none
  variant
    | .string s => s
    | .object [(name, .null)] => name
    | _ => none
  shape
    | .array items => some (.positional items)
    | .object members => (namedMembers members).map .named
    | _ => none
  isEmpty
    | .null => true
    | _ => false
  surplus := false

end TunnelSession.Json

/-
  TOML values as record sources.

  RULES.  No value is empty.  A value without content is its name as a string, or a table with
  that name as its only member and an empty table or array behind it.  A record may be written by
  position, and items past its last field are not looked at.  A date or time is a record as well,
  with parts that no record of this library declares; so it leaves every field to its default.
-/
import TunnelSession.Datum
import TunnelSession.Toml.Basic

namespace TunnelSession.Toml

/-- Is it an empty table or array? -/
def Value.isHollow : Value → Bool
  | .table _ [] => true
  | .array [] => true
  | _ => false

/-- The name of a value without content. -/
def Value.variantName : Value → Option String
  | .string s => some s
  | .table _ [(name, v)] => if v.isHollow then some name else none
  | _ => none

instance : Datum Value where
  flag
    | .boolean b => some b
    | _ => none
  natural
    | .integer n => if 0 ≤ n then some n.toNat else none
    | _ => none
  real
    | .float x => some x
    | .integer n => some (.ofRatio (decide (n < 0)) n.natAbs 1)
    | _ => none
  text
    | .string s => some s
    | _ => none
  list
    | .array items => some items
    | .rows tables => some (tables.map (.table .header))
    | _ => none
  variant := Value.variantName
  shape
    | .table _ members => some (.named members)
    | .array items => some (.positional items)
    | .rows tables => some (.positional (tables.map (.table .header)))
    | .moment _ => some (.named [])
    | _ => none
  isEmpty _ := false
  surplus := true

end TunnelSession.Toml

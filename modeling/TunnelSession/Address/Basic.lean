/-
  Internet addresses.

  VALUES.  An address is four bytes or eight groups of sixteen bits.

  TEXT.  `parse` and `print` are in `Address.Parser` and `Address.Printer`; every address has one
  canonical text, and the parser also takes other spellings of the longer form.
-/

namespace TunnelSession

/-- Four bytes, the first of the text first. -/
structure Address.Quad where
  a : UInt8
  b : UInt8
  c : UInt8
  d : UInt8
  deriving DecidableEq, Repr

/-- An address of either version. -/
inductive Address where
  | v4 (quad : Address.Quad)
  | v6 (groups : Vector UInt16 8)
  deriving DecidableEq, Repr

namespace Address

instance : Inhabited Address := ⟨.v4 ⟨0, 0, 0, 0⟩⟩

/-- The two groups that four bytes fill. -/
def Quad.groups (q : Quad) : List UInt16 :=
  [q.a.toUInt16 * 256 + q.b.toUInt16, q.c.toUInt16 * 256 + q.d.toUInt16]

/-- The four bytes in two groups. -/
def Quad.ofGroups (g h : UInt16) : Quad :=
  ⟨(g / 256).toUInt8, g.toUInt8, (h / 256).toUInt8, h.toUInt8⟩

/-- The address with the given groups, if there are eight. -/
def ofGroups? (gs : List UInt16) : Option Address :=
  if h : gs.length = 8 then some (.v6 ⟨gs.toArray, by simpa using h⟩) else none

/-- The groups of a longer address. -/
def groupList (groups : Vector UInt16 8) : List UInt16 := groups.toList

end Address

end TunnelSession

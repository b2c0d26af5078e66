/-
  Log filters.

  A filter is a level, in any case, or "off"; an empty text lets errors through only.  Directives
  for single parts of a program, `part` or `part=level`, let nothing of this program through; a
  text with a wrong level or a second equals sign is no filter.

  What is let through is written for a terminal (`Text.forTerminal`), because lines that come from
  outside are quoted in it.
-/
import TunnelSession.Notice
import TunnelSession.Text.Split
import TunnelSession.Text.Terminal

namespace TunnelSession

/-- A log filter: the level that is let through, or nothing. -/
structure LogFilter where
  level : Option Level
  deriving DecidableEq, Repr

namespace LogFilter

/-- The filter that a word names. -/
def ofWord? (s : String) : Option LogFilter :=
  let lower := String.ofList (s.toList.map Char.toLower)
  if lower = "off" then some ⟨none⟩
  else
    (Level.all.find? fun l => l.name == String.ofList (s.toList.map Char.toUpper)).map
      fun l => ⟨some l⟩

/-- A directive: a word, or a part with an optional word, which says nothing of this program. -/
def directive? (cs : List Char) : Option (Option LogFilter) :=
  match Text.splitAll '=' cs with
  | [word] => some (ofWord? (String.ofList word))
  | [_, word] => if (ofWord? (String.ofList word)).isSome then some none else none
  | _ => none

/-- The filter of directives, of which the last counts. -/
def ofDirectives (ds : List (Option LogFilter)) : LogFilter :=
  ((ds.filterMap id).getLast?).getD ⟨none⟩

/-- The filter that a text spells. -/
def parse (s : String) : Option LogFilter :=
  let parts := (Text.splitAll ',' s.toList).filter (!·.isEmpty)
  if parts.isEmpty then some ⟨some .error⟩ else (parts.mapM directive?).map ofDirectives

/-- The lines that the filter lets through, written for a terminal. -/
def lines (f : LogFilter) (log : List Notice) : List String :=
  match f.level with
  | some level => (Notice.lines level log).map Text.forTerminal
  | none => []

end LogFilter

end TunnelSession

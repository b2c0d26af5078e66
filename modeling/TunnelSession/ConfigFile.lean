/-
  Configuration files.

  FORMAT.  It is chosen by the extension of the path, in any case: what follows the last point of
  the last part of the path, unless the part starts with its only point.  Empty parts and single
  points do not count as parts, and a last part of two points has no extension.

  ORDER.  The extension is looked at before the file.
-/
import TunnelSession.Config

namespace TunnelSession

/-- A format that configurations are written in. -/
inductive ConfigFormat where
  | toml
  | json
  deriving DecidableEq, Repr

namespace ConfigFormat

/-- The name of the format, which is also its extension. -/
def name : ConfigFormat → String
  | .toml => "toml"
  | .json => "json"

/-- The last part of a path that is a name. -/
def fileName (path : String) : Option (List Char) :=
  let parts := (Text.splitAll '/' path.toList).filter fun p => !p.isEmpty && p != ['.']
  match parts.getLast? with
  | some p => if p = ['.', '.'] then none else some p
  | none => none

/-- What follows the last point of a file name, if something stands in front of it. -/
def extension (file : List Char) : Option (List Char) :=
  let back := file.reverse
  match back.dropWhile (· != '.') with
  | '.' :: _ :: _ => some (back.takeWhile (· != '.')).reverse
  | _ => none

/-- The format of the file at a path. -/
def ofPath? (path : String) : Option ConfigFormat := do
  let ext := String.ofList ((← extension (← fileName path)).map Char.toLower)
  if ext = "toml" then some .toml
  else if ext = "json" then some .json
  else none

end ConfigFormat

/-- What stands at a path. -/
inductive FileContent where
  | missing
  | directory
  | bytes (content : ByteArray)

/-- Why a file has no text. -/
inductive FileFault where
  | missing
  | directory
  | encoding
  deriving DecidableEq, Repr

/-- The system's text for it. -/
def FileFault.message : FileFault → String
  | .missing => "No such file or directory (os error 2)"
  | .directory => "Is a directory (os error 21)"
  | .encoding => "stream did not contain valid UTF-8"

/-- The text of a file. -/
def FileContent.text : FileContent → Except FileFault String
  | .missing => .error .missing
  | .directory => .error .directory
  | .bytes content =>
    match String.fromUTF8? content with
    | some s => .ok s
    | none => .error .encoding

/-- The configuration in a file. -/
def Config.ofFile (path : String) (content : FileContent) : Except ConfigError Config :=
  match ConfigFormat.ofPath? path with
  | none => .error (.unsupportedFormat path)
  | some format =>
    match content.text with
    | .error fault => .error (.io (path ++ ": " ++ fault.message))
    | .ok text =>
      match format with
      | .toml => Config.ofToml text
      | .json => Config.ofJson text

end TunnelSession

/-
  The command line: a daemon that obeys the lines of standard input.

  The only argument is the path of a configuration file.  The log goes to standard output as it is
  made.  Time passes for the client as it passes between lines.
-/
import TunnelSession.Daemon.Basic

namespace TunnelSession

/-- What stands at a path of the file system. -/
def readContent (path : String) : IO FileContent := do
  try
    return .bytes (← IO.FS.readBinFile path)
  catch
    | .noFileOrDirectory .. => return .missing
    | _ => return .directory

/-- Print the notices that were made since `shown` of them were printed. -/
def printNew (filter : LogFilter) (w : Client) (shown : Nat) : IO Nat := do
  for l in filter.lines (w.log.take (w.log.length - shown)).reverse do
    IO.println l
  return w.log.length

/-- Obey lines until there are no more. -/
partial def obey (filter : LogFilter) (input : IO.FS.Stream) (d : Daemon) (clock shown : Nat) :
    IO (Daemon × Nat) := do
  let text ← input.getLine
  if text.isEmpty || !d.reading then return (d, shown)
  let now ← IO.monoMsNow
  let d := (d.take (.pause (now - clock))).take (.line text)
  obey filter input d now (← printNew filter d.client shown)

end TunnelSession

open TunnelSession in
def main (args : List String) : IO UInt32 := do
  let file ← match args with
    | [] => pure none
    | path :: _ => do pure (some (path, ← readContent path))
  match Daemon.setUp file (← IO.getEnv "RUST_LOG") with
  | .error complaint =>
    for l in complaint do
      IO.eprintln l
    return 1
  | .ok (config, filter) =>
    let d := Daemon.start config
    let shown ← printNew filter d.client 0
    let (d, shown) ← obey filter (← IO.getStdin) d (← IO.monoMsNow) shown
    let _ ← printNew filter d.stop shown
    return 0

/-
  Connection statistics.

  RECORD.  Bytes received and sent on the current tunnel, how long it has been up in whole
  seconds, and the rates since the last look in bytes per second.

  TEXT.  `format` shows megabytes with two places and kilobytes per second with one, both in
  binary units and rounded from the exact value.
-/
import TunnelSession.Datum

namespace TunnelSession

/-- Statistics of a tunnel.

The counters and the duration are numbers without a bound.  What is read of a written form is below
2^64 (`read`), and so is what a backend counts in fewer than 2^46 looks (`Tunnel`). -/
structure Stats where
  bytesIn : Nat
  bytesOut : Nat
  durationSecs : Nat
  downloadRate : Binary64
  uploadRate : Binary64
  deriving DecidableEq, Repr

namespace Stats

/-- Nothing received, nothing sent. -/
def zero : Stats := ⟨0, 0, 0, .zero false, .zero false⟩

instance : Inhabited Stats := ⟨zero⟩

/-- Equality of the numbers, in which the two zeros of a rate are one. -/
def numEq (s t : Stats) : Bool :=
  s.bytesIn == t.bytesIn && s.bytesOut == t.bytesOut && s.durationSecs == t.durationSecs &&
    s.downloadRate.numEq t.downloadRate && s.uploadRate.numEq t.uploadRate

/-- Bytes as megabytes. -/
def megabytes (bytes : Nat) : Binary64 := (Binary64.ofNat bytes).div (.ofNat (1024 * 1024))

/-- Bytes per second as kilobytes per second. -/
def kilobytes (rate : Binary64) : Binary64 := rate.div (.ofNat 1024)

/-- One direction: the total, and the rate in brackets. -/
def formatFlow (label : String) (bytes : Nat) (rate : Binary64) : String :=
  label ++ ": " ++ (megabytes bytes).toFixed 2 ++ "MB (" ++ (kilobytes rate).toFixed 1 ++ "KB/s)"

/-- One line for people. -/
def format (s : Stats) : String :=
  formatFlow "RX" s.bytesIn s.downloadRate ++ ", " ++ formatFlow "TX" s.bytesOut s.uploadRate ++
    ", up " ++ toString s.durationSecs ++ "s"

/-! ## Written form -/

/-- Names of the fields, in order. -/
def fieldNames : List String :=
  ["bytes_in", "bytes_out", "duration_secs", "download_rate", "upload_rate"]

/-- Read statistics. -/
def read {V : Type} [Datum V] (v : V) : Option Stats := do
  match ← Datum.slots fieldNames v with
  | [bytesIn, bytesOut, durationSecs, downloadRate, uploadRate] =>
    some {
      bytesIn := ← Datum.required (Datum.below UInt64.size) bytesIn
      bytesOut := ← Datum.required (Datum.below UInt64.size) bytesOut
      durationSecs := ← Datum.required (Datum.below UInt64.size) durationSecs
      downloadRate := ← Datum.required Datum.real downloadRate
      uploadRate := ← Datum.required Datum.real uploadRate }
  | _ => none

end Stats

end TunnelSession

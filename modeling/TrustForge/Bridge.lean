import TrustForge.Foundation.Text

/-!
# Bridges

What the bridges to other trust systems share: the errors of `bridges.rs`, and the texts of times
and percent escapes, of which every bridge of the source has a copy.
-/

namespace TrustForge

inductive BridgeError where
  | unsupported (what : String)
  | invalidInput (what : String)
  | rejected (what : String)
  | internal (what : String)
  deriving DecidableEq

/-- Letters and digits and the given characters stay, other bytes are escaped. -/
def percentEncode (plain : List Char) (s : String) : String :=
  String.ofList <| (Text.utf8 s).flatMap fun b =>
    let c := Char.ofNat b.toNat
    if b < 128 ∧ (c.isAlphanum ∨ c ∈ plain) then [c]
    else '%' :: (Text.hexByte b).map Char.toUpper

/-- A number with zeros on the left; a sign counts as a digit. -/
def zeroPadded (width : Nat) (n : Int) : String :=
  let digits := Nat.toDigits 10 n.natAbs
  if n < 0 then String.ofList ('-' :: List.replicate (width - 1 - digits.length) '0' ++ digits)
  else String.ofList (List.replicate (width - digits.length) '0' ++ digits)

/-- `secs_to_ymdhms`, the date first.  The year is cut to 32 bits. -/
def secsToYmdhms (secs : Int) : (Int × Nat × Nat) × Int × Int × Int :=
  let days := secs / 86400
  let time := secs % 86400
  let z := days + 719468
  let era := (if z ≥ 0 then z else z - 146096).tdiv 146097
  let doe := (z - era * 146097).toNat
  let yoe := (doe - doe / 1460 + doe / 36524 - doe / 146096) / 365
  let y := yoe + era * 400
  let doy := doe - (365 * yoe + yoe / 4 - yoe / 100)
  let mp := (5 * doy + 2) / 153
  let d := doy - (153 * mp + 2) / 5 + 1
  let m := if mp < 10 then mp + 3 else mp - 9
  let year := if m ≤ 2 then y + 1 else y
  ((year.bmod (2 ^ 32), m, d), time / 3600, time % 3600 / 60, time % 60)

/-- A time in seconds as a text in UTC. -/
def utcText (secs : Int) : String :=
  let ((y, m, d), h, mi, s) := secsToYmdhms secs
  zeroPadded 4 y ++ "-" ++ zeroPadded 2 m ++ "-" ++ zeroPadded 2 d ++ "T" ++
    zeroPadded 2 h ++ ":" ++ zeroPadded 2 mi ++ ":" ++ zeroPadded 2 s ++ "Z"

example : utcText 1704067200 = "2024-01-01T00:00:00Z" := by
  decide +kernel

end TrustForge

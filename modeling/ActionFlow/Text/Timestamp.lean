/-!
# Time stamps and run identifiers

The text of a moment in universal time, counted in nanoseconds from the start of 1970, and the
identifier of a run that starts at a moment: its milliseconds and a random number, written in a base
of 32 so that identifiers sort by time.
-/
namespace ActionFlow.Text

def padded (width n : Nat) : String :=
  let digits := Nat.toDigits 10 n
  String.ofList (List.replicate (width - digits.length) '0' ++ digits)

/-- Year, month and day of the day that lies so many days after the start of 1970.  Years are
counted from March, in cycles of four centuries, so that the leap day comes last. -/
def civilDate (days : Nat) : Nat × Nat × Nat :=
  let shifted := days + 719468
  let cycle := shifted / 146097
  let dayOfCycle := shifted % 146097
  let yearOfCycle :=
    (dayOfCycle - dayOfCycle / 1460 + dayOfCycle / 36524 - dayOfCycle / 146096) / 365
  let dayOfYear := dayOfCycle - (365 * yearOfCycle + yearOfCycle / 4 - yearOfCycle / 100)
  let shiftedMonth := (5 * dayOfYear + 2) / 153
  let day := dayOfYear - (153 * shiftedMonth + 2) / 5 + 1
  let month := if shiftedMonth < 10 then shiftedMonth + 3 else shiftedMonth - 9
  let year := 400 * cycle + yearOfCycle + (if month ≤ 2 then 1 else 0)
  (year, month, day)

/-- A fraction of a second, with as many groups of three digits as it needs. -/
def fractionText (nanoseconds : Nat) : String :=
  if nanoseconds = 0 then ""
  else if nanoseconds % 1000000 = 0 then "." ++ padded 3 (nanoseconds / 1000000)
  else if nanoseconds % 1000 = 0 then "." ++ padded 6 (nanoseconds / 1000)
  else "." ++ padded 9 nanoseconds

def timestamp (nanoseconds : Nat) : String :=
  let seconds := nanoseconds / 1000000000
  let (year, month, day) := civilDate (seconds / 86400)
  let time := seconds % 86400
  padded 4 year ++ "-" ++ padded 2 month ++ "-" ++ padded 2 day ++ "T" ++
    padded 2 (time / 3600) ++ ":" ++ padded 2 (time / 60 % 60) ++ ":" ++ padded 2 (time % 60) ++
    fractionText (nanoseconds % 1000000000) ++ "Z"

/-- The digits of the base of 32, without letters that look like digits. -/
def base32Digits : List Char := "0123456789ABCDEFGHJKMNPQRSTVWXYZ".toList

def base32 (width n : Nat) : List Char :=
  match width with
  | 0 => []
  | width + 1 => base32 width (n / 32) ++ [base32Digits.getD (n % 32) '0']

/-- The identifier of a run: 48 bits of time, then 80 random bits. -/
def runId (nanoseconds random : Nat) : String :=
  String.ofList (base32 26
    (nanoseconds / 1000000 % Nat.pow 2 48 * Nat.pow 2 80 + random % Nat.pow 2 80))

theorem length_base32 (width n : Nat) : (base32 width n).length = width := by
  induction width generalizing n with
  | zero => rfl
  | succ width ih => simp [base32, ih]

theorem length_runId (nanoseconds random : Nat) : (runId nanoseconds random).length = 26 := by
  simp [runId, length_base32]

end ActionFlow.Text

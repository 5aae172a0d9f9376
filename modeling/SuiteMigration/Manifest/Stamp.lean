import SuiteMigration.Manifest

/-!
# Stamps of runs

A run is told from others by a random identifier and the instant at which it began.
-/
namespace SuiteMigration.Manifest.Stamp

def hexDigit (n : Nat) : Char :=
  Nat.digitChar n

/-- A byte as two hexadecimal digits. -/
def hexByte (byte : Nat) : List Char :=
  [hexDigit (byte / 16 % 16), hexDigit (byte % 16)]

/-- The identifier of sixteen random bytes, in groups of hexadecimal digits. The first digit of the
third group is 4 and the first of the fourth is one of 8, 9, a and b. -/
def identifier (bytes : List Nat) : String :=
  let marked := bytes.mapIdx fun index byte =>
    if index = 6 then 0x40 + byte % 16 else if index = 8 then 0x80 + byte % 64 else byte
  let group (start size : Nat) := String.ofList ((marked.drop start |>.take size).flatMap hexByte)
  "-".intercalate [group 0 4, group 4 2, group 6 2, group 8 2, group 10 6]

/-- Year, month and day of the days since the first of January 1970. Years are counted from March,
so that a leap day is the last of its year, in eras of four hundred years. -/
def civilDate (days : Nat) : Nat × Nat × Nat :=
  let shifted := days + 719468
  let day := shifted % 146097
  let year := (day - day / 1460 + day / 36524 - day / 146096) / 365
  let dayOfYear := day - (365 * year + year / 4 - year / 100)
  let month := (5 * dayOfYear + 2) / 153
  let fromMarch := shifted / 146097 * 400 + year
  (if month < 10 then fromMarch else fromMarch + 1,
    if month < 10 then month + 3 else month - 9,
    dayOfYear - (153 * month + 2) / 5 + 1)

/-- A number with leading zeros. -/
def padded (width n : Nat) : String :=
  let digits := Nat.toDigits 10 n
  String.ofList (List.replicate (width - digits.length) '0' ++ digits)

/-- The part of a second behind the point, in as few groups of three digits as hold it. -/
def fraction (nanoseconds : Nat) : String :=
  if nanoseconds = 0 then ""
  else if nanoseconds % 1000000 = 0 then "." ++ padded 3 (nanoseconds / 1000000)
  else if nanoseconds % 1000 = 0 then "." ++ padded 6 (nanoseconds / 1000)
  else "." ++ padded 9 nanoseconds

/-- The date and time of day in universal time, of the nanoseconds since the start of 1970. -/
def instant (nanoseconds : Nat) : String :=
  let seconds := nanoseconds / 1000000000
  let (year, month, day) := civilDate (seconds / 86400)
  let time := seconds % 86400
  padded 4 year ++ "-" ++ padded 2 month ++ "-" ++ padded 2 day ++ "T"
    ++ padded 2 (time / 3600) ++ ":" ++ padded 2 (time / 60 % 60) ++ ":" ++ padded 2 (time % 60)
    ++ fraction (nanoseconds % 1000000000) ++ "Z"

example : civilDate 0 = (1970, 1, 1) := by decide

example : civilDate 11016 = (2000, 2, 29) := by decide

end SuiteMigration.Manifest.Stamp

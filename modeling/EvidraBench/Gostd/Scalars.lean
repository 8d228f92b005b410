import EvidraBench.Gostd.Strings

/-!
# Integers, floats and timestamps from their text

The conversions `encoding/json` makes for scalar targets, as integer arithmetic.
-/

namespace EvidraBench.Gostd

/-! ### Integers -/

def natOfDigits (ds : List Char) : Nat := ds.foldl (fun n c => n * 10 + (c.toNat - '0'.toNat)) 0

def takeSign : List Char → Bool × List Char
  | '-' :: rest => (true, rest)
  | '+' :: rest => (false, rest)
  | s => (false, s)

/-- `strconv.ParseInt(s, 10, 64)`: a signed decimal within 64 bits. -/
def parseInt64 (s : List Char) : Option Int :=
  let (neg, ds) := takeSign s
  if ds.isEmpty || !ds.all Char.isDigit then none
  else
    let n : Int := if neg then -(natOfDigits ds : Int) else natOfDigits ds
    if -(2 ^ 63) ≤ n && n < 2 ^ 63 then some n else none

/-- `strconv.Atoi` with its error dropped: on malformed text the result is `0`, out of range it is
the nearest representable value. -/
def atoi (s : String) : Int :=
  let (neg, ds) := takeSign s.toList
  if ds.isEmpty || !ds.all Char.isDigit then 0
  else
    let n : Int := if neg then -(natOfDigits ds : Int) else natOfDigits ds
    max (-(2 ^ 63)) (min n (2 ^ 63 - 1))

/-! ### Floats -/

/-- A finite binary64 number `± mant * 2 ^ exp`: `mant` has 53 bits unless `exp` is the smallest
exponent, and zero has exponent `0`. -/
structure Float64 where
  /-- The sign; `-0` and `0` differ. -/
  neg : Bool
  /-- The significand. -/
  mant : Nat
  /-- The exponent of two. -/
  exp : Int
deriving DecidableEq, Repr

/-- The integer nearest to `n / d`, ties to even. -/
def divRoundEven (n d : Nat) : Nat :=
  let q := n / d
  let r := n % d
  if 2 * r < d then q
  else if d < 2 * r then q + 1
  else if q % 2 = 0 then q else q + 1

/-- `n / d` scaled by `2 ^ -e`, as a fraction of naturals. -/
def scaleFraction (n d : Nat) (e : Int) : Nat × Nat :=
  if 0 ≤ e then (n, d * 2 ^ e.toNat) else (n * 2 ^ (-e).toNat, d)

/-- The largest `e` with `2 ^ e ≤ n / d`, for positive `n` and `d`. -/
def floorLog2 (n d : Nat) : Int :=
  let e : Int := (n.log2 : Int) - d.log2
  let (a, b) := scaleFraction n d e
  if b ≤ a then e else e - 1

/-- Round the positive fraction `n / d` to binary64. -/
def roundFraction (neg : Bool) (n d : Nat) : Option Float64 :=
  let e := max (-1074) (floorLog2 n d - 52)
  let (a, b) := scaleFraction n d e
  let m := divRoundEven a b
  -- rounding up may reach the next power of two
  let (m, e) := if m = 2 ^ 53 then (2 ^ 52, e + 1) else (m, e)
  if e > 971 then none
  else if m = 0 then some ⟨neg, 0, 0⟩
  else some ⟨neg, m, e⟩

/-- `strconv.ParseFloat(s, 64)` on a JSON number literal. -/
def parseFloat (lit : List Char) : Option Float64 :=
  let (neg, s) := takeSign lit
  let (int, s) := s.span Char.isDigit
  let (frac, s) := match s with
    | '.' :: rest => rest.span Char.isDigit
    | s => ([], s)
  let e : Int := match s with
    | _ :: rest =>
        let (eneg, ds) := takeSign rest
        if eneg then -(natOfDigits ds : Int) else natOfDigits ds
    | [] => 0
  let n := natOfDigits (int ++ frac)
  let e := e - frac.length
  if n = 0 then some ⟨neg, 0, 0⟩
  else if 0 ≤ e then roundFraction neg (n * 10 ^ e.toNat) 1
  else roundFraction neg n (10 ^ (-e).toNat)

/-! ### Timestamps -/

/-- An instant: nanoseconds since Go's zero time, 1 January of year 1, 00:00 UTC. -/
abbrev Time := Int

/-- Leap years of the proleptic Gregorian calendar. -/
def isLeap (y : Nat) : Bool := y % 4 = 0 && (y % 100 ≠ 0 || y % 400 = 0)

def daysIn (y m : Nat) : Nat :=
  if m = 2 then (if isLeap y then 29 else 28)
  else if m = 4 || m = 6 || m = 9 || m = 11 then 30
  else 31

def daysFromCivil (y m d : Nat) : Int :=
  let p : Int := (y : Int) - 1
  let before := ((List.range (m - 1)).map fun i => daysIn y (i + 1)).sum
  365 * p + p / 4 - p / 100 + p / 400 + before + (d : Int) - 1

/-- Exactly `k` digits. -/
def takeDigits (k : Nat) (s : List Char) : Option (Nat × List Char) :=
  let ds := s.take k
  if ds.length = k && ds.all Char.isDigit then some (natOfDigits ds, s.drop k) else none

def expect (c : Char) : List Char → Option (List Char)
  | x :: rest => if x = c then some rest else none
  | [] => none

def takeHour (s : List Char) : Option (Nat × List Char) :=
  (takeDigits 2 s).or (takeDigits 1 s)

/-- The optional fraction of a second, in nanoseconds; digits beyond the ninth are dropped. -/
def takeNanos : List Char → Nat × List Char
  | c :: d :: rest =>
      if (c = '.' || c = ',') && d.isDigit then
        let (ds, s) := (d :: rest).span Char.isDigit
        (natOfDigits ((ds ++ List.replicate 9 '0').take 9), s)
      else (0, c :: d :: rest)
  | s => (0, s)

/-- The zone: `Z` or a signed offset, in seconds east of UTC. -/
def takeZone : List Char → Option (Int × List Char)
  | 'Z' :: rest => some (0, rest)
  | c :: rest => do
      let sign : Int ← if c = '+' then some 1 else if c = '-' then some (-1) else none
      let (hh, s) ← takeDigits 2 rest
      let s ← expect ':' s
      let (mm, s) ← takeDigits 2 s
      if hh ≤ 24 && mm ≤ 60 then some (sign * ((hh * 60 + mm) * 60 : Nat), s) else none
  | [] => none

/-- `time.Time.UnmarshalJSON` on the text between the quotes. -/
def parseTime (s : List Char) : Option Time := do
  let (year, s) ← takeDigits 4 s
  let s ← expect '-' s
  let (month, s) ← takeDigits 2 s
  let s ← expect '-' s
  let (day, s) ← takeDigits 2 s
  let s ← expect 'T' s
  let (hour, s) ← takeHour s
  let s ← expect ':' s
  let (minute, s) ← takeDigits 2 s
  let s ← expect ':' s
  let (second, s) ← takeDigits 2 s
  let (nanos, s) := takeNanos s
  let (zone, s) ← takeZone s
  if s.isEmpty && 1 ≤ month && month ≤ 12 && 1 ≤ day && day ≤ daysIn year month && hour < 24 &&
      minute < 60 && second < 60 then
    let secs : Int :=
      daysFromCivil year month day * 86400 + (hour * 3600 + minute * 60 + second : Nat)
    some ((secs - zone) * 1000000000 + nanos)
  else none

end EvidraBench.Gostd

import RowStore.Calendar
import RowStore.Text.Blank

/-! Points in time, in seconds from 1970-01-01T00:00:00Z, and their text. -/
namespace RowStore

structure Date where
  seconds : Int64
  deriving DecidableEq, Repr

namespace Date

def secondsPerDay : Int := 86400

/-- The last and the first second that have a calendar text. -/
def lastSecond : Int := 8210266876799

def firstSecond : Int := -8334601228800

def padded (width n : Nat) : List Char :=
  let digits := Nat.toDigits 10 n
  List.replicate (width - digits.length) '0' ++ digits

/-- Years of more than four digits, and those before year 0, carry a sign. -/
def yearText (year : Int) : List Char :=
  if year < 0 then '-' :: padded 4 year.natAbs
  else if 9999 < year then '+' :: padded 4 year.toNat
  else padded 4 year.toNat

def dayText (d : Calendar.Day) : List Char :=
  yearText d.year ++ ['-'] ++ padded 2 d.month ++ ['-'] ++ padded 2 d.day

def clockText (second : Nat) : List Char :=
  padded 2 (second / 3600) ++ [':'] ++ padded 2 (second / 60 % 60) ++ [':'] ++ padded 2 (second % 60)

def render (d : Date) : String :=
  let seconds := d.seconds.toInt
  if firstSecond ≤ seconds ∧ seconds ≤ lastSecond then
    let day := Calendar.ofNumber (seconds / secondsPerDay)
    String.ofList (dayText day ++ ['T'] ++ clockText (seconds % secondsPerDay).toNat ++ ['Z'])
  else "@" ++ toString seconds

/-- Up to `most` digits, and at least one; the number and what follows it. -/
def number? (most : Nat) (cs : List Char) : Option (Nat × List Char) :=
  let digits := (cs.take most).takeWhile Char.isDigit
  if digits.isEmpty then none
  else some (Nat.ofDigitChars 10 digits 0, cs.drop digits.length)

def exactly? (width : Nat) (cs : List Char) : Option (Nat × List Char) :=
  let digits := (cs.take width).takeWhile Char.isDigit
  if digits.length = width then some (Nat.ofDigitChars 10 digits 0, cs.drop width) else none

def char? (c : Char) : List Char → Option (List Char)
  | [] => none
  | d :: cs => if d = c then some cs else none

/-- A moment from its day and the second of that day. -/
def moment? (day : Calendar.Day) (second : Int) : Option Date :=
  if day.Valid then some ⟨Int64.ofInt (day.number * secondsPerDay + second)⟩ else none

/-- Hours and minutes east of Greenwich, as seconds. Nothing may follow. -/
def zone? : List Char → Option Int
  | ['Z'] | ['z'] => some 0
  | sign :: cs => do
      let (hours, cs) ← exactly? 2 cs
      let cs ← char? ':' cs
      let (minutes, cs) ← exactly? 2 cs
      let offset : Int := hours * 3600 + minutes * 60
      if !cs.isEmpty || 23 < hours || 59 < minutes then none
      else if sign = '+' then some offset
      else if sign = '-' ∨ sign = '−' then some (-offset)
      else none
  | [] => none

/-- Drops a fraction of a second: a point and at least one digit. -/
def afterFraction? : List Char → Option (List Char)
  | '.' :: d :: cs => if d.isDigit then some (cs.dropWhile Char.isDigit) else none
  | ['.'] => none
  | cs => some cs

/-- A date and a time with its zone. The second 60 counts as 59. -/
def timestamp? (cs : List Char) : Option Date := do
  let (year, cs) ← exactly? 4 cs
  let cs ← char? '-' cs
  let (month, cs) ← exactly? 2 cs
  let cs ← char? '-' cs
  let (day, cs) ← exactly? 2 cs
  let cs ← (char? 'T' cs).or ((char? 't' cs).or (char? ' ' cs))
  let (hour, cs) ← exactly? 2 cs
  let cs ← char? ':' cs
  let (minute, cs) ← exactly? 2 cs
  let cs ← char? ':' cs
  let (second, cs) ← exactly? 2 cs
  let cs ← afterFraction? cs
  let offset ← zone? cs
  if 23 < hour ∨ 59 < minute ∨ 60 < second then none
  else moment? ⟨year, month, day⟩ ((hour * 3600 + minute * 60 + min second 59 : Nat) - offset)

/-- A year of up to four digits, or of any number of digits after a sign. -/
def year? (cs : List Char) : Option (Int × List Char) :=
  match cs with
  | '-' :: cs => (number? cs.length cs).map fun (n, rest) => (-(n : Int), rest)
  | '+' :: cs => (number? cs.length cs).map fun (n, rest) => ((n : Int), rest)
  | cs => (number? 4 cs).map fun (n, rest) => ((n : Int), rest)

def firstYear : Int := -262143

def lastYear : Int := 262142

/-- A bare day, at its first second. Blanks may stand before each number. -/
def bareDay? (cs : List Char) : Option Date := do
  let (year, cs) ← year? (Text.trimStart cs)
  let cs ← char? '-' cs
  let (month, cs) ← number? 2 (Text.trimStart cs)
  let cs ← char? '-' cs
  let (day, cs) ← number? 2 (Text.trimStart cs)
  if !cs.isEmpty || year < firstYear || lastYear < year then none
  else moment? ⟨year, month, day⟩ 0

def parse? (text : String) : Option Date := (timestamp? text.toList).or (bareDay? text.toList)

end Date
end RowStore

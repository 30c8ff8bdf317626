import TestBeam.Decimal.Reading

/-!
# Dates and times

A document may hold a date, a time of day, or both with an offset. Settings cannot be dates, so dates
are only read, checked against the calendar and shown in messages.
-/

namespace TestBeam.Toml

structure Date where
  year : Nat
  month : Nat
  day : Nat
  deriving DecidableEq, Repr

structure Time where
  hour : Nat
  minute : Nat
  second : Nat
  nanosecond : Nat
  deriving DecidableEq, Repr

/-- The distance from universal time. -/
inductive Offset where
  | zulu
  | minutes (value : Int)
  deriving DecidableEq, Repr

inductive Datetime where
  | date (date : Date)
  | time (time : Time)
  | both (date : Date) (time : Time) (offset : Option Offset)
  deriving DecidableEq, Repr

/-! ## The calendar -/

def isLeapYear (year : Nat) : Bool :=
  year % 4 == 0 && (year % 100 != 0 || year % 400 == 0)

def daysInMonth (year month : Nat) : Nat :=
  if month = 2 then if isLeapYear year then 29 else 28
  else if month ∈ [4, 6, 9, 11] then 30
  else 31

/-! ## Reading -/

/-- Exactly `count` digits with a value in a range. -/
def readField (count low high : Nat) (cs : List Char) : Option (Nat × List Char) :=
  let ds := cs.take count
  let n := Decimal.value ds
  if ds.length = count && ds.all Char.isDigit && low ≤ n && n ≤ high then some (n, cs.drop count)
  else none

/-- Takes a given character. -/
def readChar (c : Char) : List Char → Option (List Char)
  | d :: cs => if d = c then some cs else none
  | [] => none

def readDate (cs : List Char) : Option (Date × List Char) := do
  let (year, cs) ← readField 4 0 9999 cs
  let cs ← readChar '-' cs
  let (month, cs) ← readField 2 1 12 cs
  let cs ← readChar '-' cs
  let (day, cs) ← readField 2 1 (daysInMonth year month) cs
  return (⟨year, month, day⟩, cs)

/-- The value of the first nine digits of a fraction of a second. -/
def nanoseconds (ds : List Char) : Nat :=
  let kept := ds.take 9
  Decimal.value kept * Nat.pow 10 (9 - kept.length)

/-- A fraction needs at least one digit. -/
def readSecondFraction : List Char → Option (Nat × List Char)
  | '.' :: cs =>
    let (ds, rest) := Decimal.spanDigits cs
    if ds.isEmpty then none else some (nanoseconds ds, rest)
  | cs => some (0, cs)

def readTime (cs : List Char) : Option (Time × List Char) := do
  let (hour, cs) ← readField 2 0 23 cs
  let cs ← readChar ':' cs
  let (minute, cs) ← readField 2 0 59 cs
  let cs ← readChar ':' cs
  let (second, cs) ← readField 2 0 60 cs
  let (nanosecond, cs) ← readSecondFraction cs
  return (⟨hour, minute, second, nanosecond⟩, cs)

def readMinutes (sign : Int) (cs : List Char) : Option (Offset × List Char) := do
  let (hour, cs) ← readField 2 0 23 cs
  let cs ← readChar ':' cs
  let (minute, cs) ← readField 2 0 59 cs
  return (.minutes (sign * (60 * hour + minute)), cs)

/-- An offset may be missing. -/
def readOffset : List Char → Option (Option Offset × List Char)
  | [] => some (none, [])
  | c :: cs =>
    if c = 'Z' || c = 'z' then some (some .zulu, cs)
    else if c = '+' || c = '-' then
      (readMinutes (if c = '-' then -1 else 1) cs).map fun (offset, cs) => (some offset, cs)
    else some (none, c :: cs)

/-- The time behind a date, after a letter or a blank. -/
def readTimePart : List Char → Option ((Time × Option Offset) × List Char)
  | [] => none
  | c :: cs =>
    if c = 'T' || c = 't' || c = ' ' then do
      let (time, cs) ← readTime cs
      let (offset, cs) ← readOffset cs
      return ((time, offset), cs)
    else none

def readDatetime (cs : List Char) : Option (Datetime × List Char) :=
  match readDate cs with
  | some (date, rest) =>
    match readTimePart rest with
    | some ((time, offset), rest) => some (.both date time offset, rest)
    | none => some (.date date, rest)
  | none => (readTime cs).map fun (time, rest) => (.time time, rest)

/-- The date or time that a whole text is. -/
def Datetime.parse? (text : String) : Option Datetime :=
  match readDatetime text.toList with
  | some (d, []) => some d
  | _ => none

/-! ## Writing -/

/-- A number padded with zeros. -/
def padded (count n : Nat) : List Char :=
  let ds := Decimal.digits n
  List.replicate (count - ds.length) '0' ++ ds

def Date.print (d : Date) : List Char :=
  padded 4 d.year ++ '-' :: padded 2 d.month ++ '-' :: padded 2 d.day

/-- Zeros at the end of a fraction are dropped. -/
def Time.print (t : Time) : List Char :=
  let fraction := ((padded 9 t.nanosecond).reverse.dropWhile (· == '0')).reverse
  padded 2 t.hour ++ ':' :: padded 2 t.minute ++ ':' :: padded 2 t.second ++
    (if fraction.isEmpty then [] else '.' :: fraction)

def Offset.print : Offset → List Char
  | .zulu => ['Z']
  | .minutes m =>
    (if m < 0 then '-' else '+') :: (padded 2 (m.natAbs / 60) ++ ':' :: padded 2 (m.natAbs % 60))

def Datetime.print : Datetime → List Char
  | .date d => d.print
  | .time t => t.print
  | .both d t offset => d.print ++ 'T' :: t.print ++ ((offset.map Offset.print).getD [])

end TestBeam.Toml

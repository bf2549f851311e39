import LeadTime.Text.Chars

/-! Instants of universal time to the nanosecond, read from and written as RFC 3339 text. Second 60 is a
leap second. Reading accepts blanks between the parts and any offset below a day, and shifts to
universal time. -/
namespace LeadTime

def isLeapYear (year : Int) : Bool := year % 4 = 0 && (year % 100 != 0 || year % 400 = 0)

def daysInMonth (year : Int) (month : Nat) : Nat :=
  match month with
  | 2 => if isLeapYear year then 29 else 28
  | 4 | 6 | 9 | 11 => 30
  | _ => 31

structure Day where
  year : Int
  month : Nat
  day : Nat
  deriving DecidableEq, Repr

namespace Day

/-- The years that instants may lie in. -/
def firstYear : Int := -262143

def lastYear : Int := 262142

def Valid (d : Day) : Prop :=
  firstYear ≤ d.year ∧ d.year ≤ lastYear ∧ 1 ≤ d.month ∧ d.month ≤ 12 ∧ 1 ≤ d.day ∧
    d.day ≤ daysInMonth d.year d.month

instance (d : Day) : Decidable d.Valid := by unfold Valid; infer_instance

def next (d : Day) : Day :=
  if d.day < daysInMonth d.year d.month then { d with day := d.day + 1 }
  else if d.month < 12 then ⟨d.year, d.month + 1, 1⟩
  else ⟨d.year + 1, 1, 1⟩

def previous (d : Day) : Day :=
  if 1 < d.day then { d with day := d.day - 1 }
  else if 1 < d.month then ⟨d.year, d.month - 1, daysInMonth d.year (d.month - 1)⟩
  else ⟨d.year - 1, 12, 31⟩

def sinceEpoch (d : Day) : Int :=
  let y := d.year - 1
  let before : Nat := (List.range (d.month - 1)).foldl (fun days m => days + daysInMonth d.year (m + 1)) 0
  365 * y + y / 4 - y / 100 + y / 400 + before + d.day - 719163

end Day

/-- A moment of universal time: a day and the time of it. -/
structure Moment where
  date : Day
  hour : Nat
  minute : Nat
  second : Nat
  nano : Nat
  deriving DecidableEq, Repr

def Moment.Valid (m : Moment) : Prop :=
  m.date.Valid ∧ m.hour < 24 ∧ m.minute < 60 ∧ m.second ≤ 60 ∧ m.nano < 1000000000

instance (m : Moment) : Decidable m.Valid := by unfold Moment.Valid; infer_instance

/-- A moment that the calendar and the clock have. -/
structure Instant where
  moment : Moment
  valid : moment.Valid
  deriving DecidableEq

namespace Instant

def ofMoment? (m : Moment) : Option Instant := if h : m.Valid then some ⟨m, h⟩ else none

/-- Seconds since the start of 1970, rounded down; a leap second counts as the one before it. -/
def seconds (i : Instant) : Int :=
  let m := i.moment
  m.date.sinceEpoch * 86400 + m.hour * 3600 + m.minute * 60 + (min m.second 59 : Nat)

def padded (width n : Nat) : List Char :=
  let digits := Nat.toDigits 10 n
  List.replicate (width - digits.length) '0' ++ digits

/-- Four digits, or a sign and at least four outside the years 0 to 9999. -/
def yearText (year : Int) : List Char :=
  if 0 ≤ year ∧ year ≤ 9999 then padded 4 year.toNat
  else (if year < 0 then '-' else '+') :: padded 4 year.natAbs

/-- The fraction of a second in the fewest of 0, 3, 6 and 9 digits. -/
def fractionText (nano : Nat) : List Char :=
  if nano = 0 then []
  else if nano % 1000000 = 0 then '.' :: padded 3 (nano / 1000000)
  else if nano % 1000 = 0 then '.' :: padded 6 (nano / 1000)
  else '.' :: padded 9 nano

def text (i : Instant) : String :=
  let m := i.moment
  String.ofList (yearText m.date.year ++ '-' :: padded 2 m.date.month ++ '-' :: padded 2 m.date.day ++
    'T' :: padded 2 m.hour ++ ':' :: padded 2 m.minute ++ ':' :: padded 2 m.second ++
    fractionText m.nano ++ ['Z'])

/-- One to `width` digits after blanks. -/
def number? (width : Nat) (s : List Char) : Option (Nat × List Char) :=
  let s := Text.trimLeft s
  let ds := (s.take width).takeWhile Text.isDigit
  if ds.isEmpty then none else some (Text.natOfDigits ds, s.drop ds.length)

/-- A year of up to four digits, or with a sign of as many as there are. -/
def year? (s : List Char) : Option (Int × List Char) :=
  match Text.trimLeft s with
  | '-' :: rest =>
    if (rest.head?.map Text.isDigit).getD false then
      (number? rest.length rest).map fun (n, rest) => (-(n : Int), rest)
    else none
  | '+' :: rest =>
    if (rest.head?.map Text.isDigit).getD false then
      (number? rest.length rest).map fun (n, rest) => ((n : Int), rest)
    else none
  | rest => (number? 4 rest).map fun (n, rest) => ((n : Int), rest)

def mark? (c : Char) (s : List Char) : Option (List Char) :=
  match Text.trimLeft s with
  | [] => none
  | d :: rest => if d = c then some rest else none

/-- Nanoseconds of a fraction; digits after the ninth are dropped. -/
def fraction? : List Char → Option (Nat × List Char)
  | '.' :: rest =>
    let ds := rest.takeWhile Text.isDigit
    if ds.isEmpty then none
    else
      let kept := ds.take 9
      some (Text.natOfDigits kept * Nat.pow 10 (9 - kept.length), rest.drop ds.length)
  | rest => some (0, rest)

/-- Minutes east of universal time: a zone letter or word, or a sign, hours and minutes. -/
def offset? (s : List Char) : Option (Int × List Char) :=
  match s with
  | [] => none
  | c :: rest =>
    if (s.take 3).map Char.toUpper = ['U', 'T', 'C'] then some (0, s.drop 3)
    else if c = 'Z' ∨ c = 'z' then some (0, rest)
    else if c = '+' ∨ c = '-' ∨ c = '−' then
      match rest with
      | h :: h' :: rest =>
        match rest.dropWhile fun c => c = ':' || Text.isBlank c with
        | m :: m' :: rest =>
          if [h, h', m, m'].all Text.isDigit ∧ m ≤ '5' then
            let minutes : Int := Text.natOfDigits [h, h'] * 60 + Text.natOfDigits [m, m']
            if minutes < 1440 then some (if c = '+' then minutes else -minutes, rest) else none
          else none
        | _ => none
      | _ => none
    else none

def shift (m : Moment) (offset : Int) : Moment :=
  let minutes : Int := m.hour * 60 + m.minute - offset
  let clock := (minutes % 1440).toNat
  { m with
    date := if minutes < 0 then m.date.previous else if minutes < 1440 then m.date else m.date.next
    hour := clock / 60
    minute := clock % 60 }

def ofText? (text : String) : Option Instant := do
  let (year, s) ← year? text.toList
  let s ← mark? '-' s
  let (month, s) ← number? 2 s
  let s ← mark? '-' s
  let (day, s) ← number? 2 s
  let s ← match s with
    | c :: rest => if c = 'T' ∨ c = 't' ∨ c = ' ' then some rest else none
    | [] => none
  let (hour, s) ← number? 2 s
  let s ← mark? ':' s
  let (minute, s) ← number? 2 s
  let s ← mark? ':' s
  let (second, s) ← number? 2 s
  let (nano, s) ← fraction? s
  let (offset, s) ← offset? (Text.trimLeft s)
  if !(Text.trimLeft s).isEmpty then none
  let written ← ofMoment? ⟨⟨year, month, day⟩, hour, minute, second, nano⟩
  ofMoment? (shift written.moment offset)

end Instant
end LeadTime

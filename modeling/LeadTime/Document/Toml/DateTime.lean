import LeadTime.Document.Datum
import LeadTime.Instant

/-! Dates and times in TOML: a day, a time of day, or both with the offset from universal time that they may name.
Each number has its fixed count of digits, second 60 is a leap second, and a fraction has any number of digits, of
which nine count. -/
namespace LeadTime.Toml

/-- A time of day to the nanosecond. -/
structure Clock where
  hour : Nat
  minute : Nat
  second : Nat
  nano : Nat
  deriving DecidableEq, Repr

def Clock.Valid (c : Clock) : Prop := c.hour < 24 ∧ c.minute < 60 ∧ c.second ≤ 60

instance (c : Clock) : Decidable c.Valid := by unfold Clock.Valid; infer_instance

inductive Offset where
  | universal
  | minutes (east : Int)
  deriving DecidableEq, Repr

inductive DateTime where
  | day (day : Day)
  | clock (clock : Clock)
  | both (day : Day) (clock : Clock) (offset : Option Offset)
  deriving DecidableEq, Repr

def dayText (d : Day) : List Char :=
  Instant.padded 4 d.year.toNat ++ '-' :: Instant.padded 2 d.month ++ '-' :: Instant.padded 2 d.day

/-- Nine digits without the zeros they end in, and no point where none is left. -/
def fractionText (nano : Nat) : List Char :=
  if nano = 0 then []
  else '.' :: ((Instant.padded 9 nano).reverse.dropWhile (· = '0')).reverse

def clockText (c : Clock) : List Char :=
  Instant.padded 2 c.hour ++ ':' :: Instant.padded 2 c.minute ++ ':' :: Instant.padded 2 c.second ++
    fractionText c.nano

def offsetText : Offset → List Char
  | .universal => ['Z']
  | .minutes east =>
    (if east < 0 then '-' else '+') :: Instant.padded 2 (east.natAbs / 60) ++
      ':' :: Instant.padded 2 (east.natAbs % 60)

namespace DateTime

def text : DateTime → String
  | .day d => String.ofList (dayText d)
  | .clock c => String.ofList (clockText c)
  | .both d c offset =>
    String.ofList (dayText d ++ 'T' :: clockText c ++ (offset.map offsetText).getD [])

/-- Data have no dates, so one is a table with the text as its only value. -/
def datum (t : DateTime) : Datum := .map [("$__toml_private_datetime", .text t.text)]

end DateTime

/-- A number of exactly `width` digits. -/
def numeral? (width : Nat) (s : List Char) : Option (Nat × List Char) :=
  let ds := s.take width
  if ds.length = width && ds.all Text.isDigit then some (Text.natOfDigits ds, s.drop width) else none

def after? (c : Char) : List Char → Option (List Char)
  | [] => none
  | d :: rest => if d = c then some rest else none

def day? (s : List Char) : Option (Day × List Char) := do
  let (year, s) ← numeral? 4 s
  let s ← after? '-' s
  let (month, s) ← numeral? 2 s
  let s ← after? '-' s
  let (day, s) ← numeral? 2 s
  let day : Day := ⟨year, month, day⟩
  if day.Valid then some (day, s) else none

def clock? (s : List Char) : Option (Clock × List Char) := do
  let (hour, s) ← numeral? 2 s
  let s ← after? ':' s
  let (minute, s) ← numeral? 2 s
  let s ← after? ':' s
  let (second, s) ← numeral? 2 s
  let (nano, s) ← Instant.fraction? s
  let clock : Clock := ⟨hour, minute, second, nano⟩
  if clock.Valid then some (clock, s) else none

/-- A letter, or a sign, hours and minutes; there may be neither. -/
def offset? (s : List Char) : Option (Option Offset × List Char) :=
  match s with
  | [] => some (none, [])
  | c :: rest =>
    if c = 'Z' || c = 'z' then some (some .universal, rest)
    else if c = '+' || c = '-' then do
      let (hours, rest) ← numeral? 2 rest
      let rest ← after? ':' rest
      let (minutes, rest) ← numeral? 2 rest
      let east : Int := hours * 60 + minutes
      if hours < 24 && minutes < 60 then some (some (.minutes (if c = '-' then -east else east)), rest)
      else none
    else some (none, s)

/-- Whether a time of day follows a day. A blank may stand between them where one does. -/
def isTimed (s : List Char) : Bool :=
  match s with
  | 'T' :: _ | 't' :: _ => true
  | ' ' :: rest => (clock? rest).isSome
  | _ => false

/-- A date, a time, or both, and the rest. -/
def dateTime? (s : List Char) : Option (DateTime × List Char) :=
  match day? s with
  | none => (clock? s).map fun (c, rest) => (.clock c, rest)
  | some (day, rest) =>
    if isTimed rest then do
      let (clock, rest) ← clock? rest.tail
      let (offset, rest) ← offset? rest
      return (.both day clock offset, rest)
    else some (.day day, rest)

end LeadTime.Toml

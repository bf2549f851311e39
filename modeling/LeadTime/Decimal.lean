/-! Decimal text of binary64 numbers, which are carried as their bit patterns. Reading keeps the digits
that fit 64 bits and scales them by a power of ten; writing takes the fewest digits that read back. -/
namespace LeadTime.Decimal

/-- A finite number as `significand · 2 ^ exponent`, sign apart. -/
structure Binary where
  negative : Bool
  significand : Nat
  exponent : Int

/-- The bit before the stored fraction, `2 ^ 52`: a significand has it unless the number is very small. -/
def implicitBit : Nat := 0x10000000000000

def Binary.ofBits (bits : UInt64) : Binary :=
  let n := bits.toNat
  let negative : Bool := n ≥ 0x8000000000000000
  let fraction : Nat := n % implicitBit
  let biased : Nat := n / implicitBit % 2048
  if biased = 0 then ⟨negative, fraction, -1074⟩
  else ⟨negative, fraction + implicitBit, (biased : Int) - 1075⟩

def isFinite (bits : UInt64) : Bool := bits.toNat / implicitBit % 2048 ≠ 2047

def infinity (negative : Bool) : UInt64 := if negative then 0xFFF0000000000000 else 0x7FF0000000000000

def undefinedBits : UInt64 := 0x7FF8000000000000

/-- Decimal digits standing for `digits · 10 ^ exponent`. -/
structure Digits where
  digits : Nat
  exponent : Int
  deriving DecidableEq, Repr

def digitCount (n : Nat) : Nat := (Nat.toDigits 10 n).length

/-- The interval of reals that round to a number, in quarters of its last place: the halves beside the
significand, or the nearer one below a power of two. -/
def Binary.quarters (b : Binary) : Nat × Nat :=
  let low := if b.significand = implicitBit ∧ b.exponent > -1074 then 1 else 2
  (4 * b.significand - low, 4 * b.significand + 2)

/-- Whether a point on the decimal grid, scaled like the bounds, rounds to the number. An even
significand owns the ends of its interval. -/
def within (even : Bool) (low high point : Nat) : Bool :=
  if even then low ≤ point && point ≤ high else low < point && point < high

/-- The position of the decimal point: the least `k` with the number below `10 ^ k`. -/
def Binary.point (b : Binary) : Int :=
  let shift : Nat := 400
  let scaled : Nat :=
    if b.exponent ≥ 0 then b.significand * Nat.pow 2 b.exponent.toNat * Nat.pow 10 shift
    else b.significand * Nat.pow 10 shift / Nat.pow 2 (-b.exponent).toNat
  (digitCount scaled : Int) - shift

/-- A grid point with one digit more than its place value allows, `10 ^ count`, is a single one. -/
def Digits.carried (d : Digits) (count : Nat) : Digits :=
  if d.digits = Nat.pow 10 count then ⟨1, d.exponent + count⟩ else d

/-- The grid point with `count` digits that lies nearest to the number, if it reads back; of two that lie
equally near, the even one. -/
def Binary.onGrid? (b : Binary) (count : Nat) : Option Digits :=
  let e := b.point - count
  let q := b.exponent - 2
  let left := Nat.pow 2 q.toNat * Nat.pow 10 (-e).toNat
  let right := Nat.pow 10 e.toNat * Nat.pow 2 (-q).toNat
  let (low, high) := b.quarters
  let value := 4 * b.significand * left
  let below := value / right
  let even := b.significand % 2 = 0
  let fits (c : Nat) : Bool := within even (low * left) (high * left) (c * right)
  let rest := 2 * (value % right)
  let nearer := if rest < right || (rest = right && below % 2 = 0) then below else below + 1
  let other := if nearer = below then below + 1 else below
  if fits nearer then some (Digits.carried ⟨nearer, e⟩ count)
  else if fits other then some (Digits.carried ⟨other, e⟩ count)
  else none

/-- The fewest digits that read back as the number, and of those the nearest. -/
def Binary.shortest (b : Binary) : Digits :=
  if b.significand = 0 then ⟨0, 0⟩
  else ((List.range 17).findSome? fun i => b.onGrid? (i + 1)).getD ⟨b.significand, 0⟩

/-- Digits with the point after place `k`, always with a fraction. -/
def positional (digits : List Char) (k : Int) : List Char :=
  if k ≤ 0 then ['0', '.'] ++ List.replicate (-k).toNat '0' ++ digits
  else
    let whole := digits.take k.toNat
    let fraction := digits.drop k.toNat
    whole ++ List.replicate (k.toNat - whole.length) '0' ++ ['.'] ++
      (if fraction.isEmpty then ['0'] else fraction)

/-- One digit before the point and a power of ten with its sign after, without a fraction when there is one
digit. -/
def scientific (digits : List Char) (k : Int) : List Char :=
  let exponent := 'e' :: (if k < 1 then '-' else '+') :: Nat.toDigits 10 (k - 1).natAbs
  match digits with
  | [d] => d :: exponent
  | d :: rest => d :: '.' :: rest ++ exponent
  | [] => []

def signed (b : Binary) (digits : List Char) : String :=
  String.ofList (if b.negative then '-' :: digits else digits)

/-- The text of a number: positional while the point falls within five places before the digits and sixteen
after their start, else with a power of ten. -/
def text (bits : UInt64) : String :=
  let b := Binary.ofBits bits
  let d := b.shortest
  let digits := Nat.toDigits 10 d.digits
  let k : Int := digits.length + d.exponent
  signed b (if -5 < k ∧ k ≤ 16 then positional digits k else scientific digits k)

def digitValue (c : Char) : Nat := c.toNat - '0'.toNat

/-- Reads digits into a 64-bit significand until the next one would not fit; yields it and the digits
left over. -/
def significand (acc : Nat) : List Char → Nat × List Char
  | [] => (acc, [])
  | c :: cs =>
    let next := acc * 10 + digitValue c
    if next < 0x10000000000000000 then significand next cs else (acc, c :: cs)

/-- `f / 10 ^ n`, in steps that stay within range. -/
def divide (f : Float) (n : Nat) : Float :=
  if n ≤ 308 then f / Float.ofScientific 1 false n
  else if f == 0.0 then f
  else divide (f / 1e308) (n - 308)
termination_by n
decreasing_by omega

def multiply? (f : Float) (n : Nat) : Option Float :=
  if n ≤ 308 then
    let scaled := f * Float.ofScientific 1 false n
    if scaled.isInf then none else some scaled
  else if f == 0.0 then some f
  else none

/-- The number written with these digits before and after the point and this exponent, as bits; nothing
when it is too large. -/
def bits? (negative : Bool) (whole fraction : List Char) (exponent : Int) : Option UInt64 :=
  let (kept, dropped) := significand 0 whole
  let (kept, unread) := significand kept fraction
  let used := fraction.length - unread.length
  let exponent := exponent + dropped.length - used
  let size := kept.toUInt64.toFloat
  let scaled :=
    if exponent ≥ 0 then multiply? size exponent.toNat else some (divide size (-exponent).toNat)
  scaled.map fun f => (if negative then -f else f).toBits

def nearest? (negative : Bool) (digits : Nat) (exponent : Int) : Option UInt64 :=
  let size := digitCount digits + exponent
  if digits = 0 ∨ size < -330 then some (if negative then -0.0 else 0.0 : Float).toBits
  else if size > 310 then none
  else
    let f := Float.ofScientific digits (exponent < 0) exponent.natAbs
    if f.isInf then none else some (if negative then -f else f).toBits

end LeadTime.Decimal

/-! Kinds of characters: sets of them as runs of code points, the blank ones, which have the Unicode property White_Space,
and digits with the numbers they stand for. -/
namespace LeadTime.Text

/-- The first and last code point of each run, ascending. -/
abbrev Runs := List (Nat × Nat)

def isIn (runs : Runs) (c : Char) : Bool := runs.any fun run => run.1 ≤ c.toNat && c.toNat ≤ run.2

/-- The code points that Unicode calls white space. -/
def isBlank (c : Char) : Bool :=
  let n := c.toNat
  (9 ≤ n && n ≤ 13) || n == 0x20 || n == 0x85 || n == 0xA0 || n == 0x1680 ||
    (0x2000 ≤ n && n ≤ 0x200A) || n == 0x2028 || n == 0x2029 || n == 0x202F || n == 0x205F ||
    n == 0x3000

def trimLeft (cs : List Char) : List Char := cs.dropWhile isBlank

def trimRight (cs : List Char) : List Char := (cs.reverse.dropWhile isBlank).reverse

def trim (text : String) : String := String.ofList (trimRight (trimLeft text.toList))

def isDigit (c : Char) : Bool := '0' ≤ c ∧ c ≤ '9'

def hexValue? (c : Char) : Option Nat :=
  if '0' ≤ c ∧ c ≤ '9' then some (c.toNat - '0'.toNat)
  else if 'a' ≤ c ∧ c ≤ 'f' then some (c.toNat - 'a'.toNat + 10)
  else if 'A' ≤ c ∧ c ≤ 'F' then some (c.toNat - 'A'.toNat + 10)
  else none

def digitValue? (base : Nat) (c : Char) : Option Nat := (hexValue? c).filter (· < base)

def natOfDigits (ds : List Char) : Nat := ds.foldl (fun n c => n * 10 + (c.toNat - '0'.toNat)) 0

/-- The number written in digits of a base; there has to be a digit. -/
def natInBase? (base : Nat) (ds : List Char) : Option Nat :=
  if ds.isEmpty then none
  else ds.foldlM (fun n c => (digitValue? base c).map (n * base + ·)) 0

def charOfCode? (n : Nat) : Option Char := if h : n.isValidChar then some (Char.ofNatAux n h) else none

def charOfHex? (ds : List Char) : Option Char := do charOfCode? (← natInBase? 16 ds)

end LeadTime.Text

import LeadTime.Text.WidthRuns

/-! How many columns of a terminal a text takes: two for a wide character, none for one that extends the character
before it, one for any other. Emoji that make one picture take two columns together, and letters that are drawn as one
take one. -/
namespace LeadTime.Text

def charWidth (c : Char) : Nat :=
  if c.toNat < 0xAD then 1
  else if isIn zeroRuns c then 0
  else if isIn wideRuns c then 2
  else if c = '\u17D8' then 3
  else 1

def isFlagLetter (c : Char) : Bool := isIn [(0x1f1e6, 0x1f1ff)] c

def isSkinTone (c : Char) : Bool := isIn [(0x1f3fb, 0x1f3ff)] c

def isTifinaghLetter (c : Char) : Bool := isIn [(0x2d31, 0x2d65), (0x2d6f, 0x2d6f)] c

/-- The last part of letters that are drawn as one. -/
inductive Ligature where
  | hebrewLamed
  | khmerLetter
  | bugineseYa
  /-- The vowel in front of the letter ya. -/
  | bugineseVowel
  | tifinaghLetter
  /-- The joiner in front of a letter. -/
  | tifinaghJoiner
  | lisuTone
  | orkhonI
  deriving DecidableEq, Repr

def Ligature.ofChar? (c : Char) : Option Ligature :=
  if c = '\u05DC' then some .hebrewLamed
  else if isIn coengRuns c then some .khmerLetter
  else if c = '\u1A10' then some .bugineseYa
  else if isTifinaghLetter c then some .tifinaghLetter
  else if isIn [(0xa4fc, 0xa4fd)] c then some .lisuTone
  else if c.toNat = 0x10c03 then some .orkhonI
  else none

/-- What follows a character, as far as it changes the columns that the character takes. -/
inductive Follower where
  | other
  | emoji
  /-- The mark that makes an emoji of the character before it. -/
  | emojiMark
  /-- The mark that makes a plain character of the emoji before it. -/
  | plainMark
  | skinTone
  | flagLetter
  | flag
  | joiner
  /-- The mark for an emoji in front of such a joiner. -/
  | joinedMark
  | alef
  | ligature (part : Ligature) (hasJoiner : Bool)
  deriving DecidableEq, Repr

/-- A character by itself: its columns, and what it is to the character before it. -/
def alone (c : Char) : Int × Follower :=
  if c.toNat < 0xAD then (1, .other)
  else
    (charWidth c,
      if c = '\uFE0F' then .emojiMark
      else if c = '\uFE0E' then .plainMark
      else if isFlagLetter c then .flagLetter
      else if isSkinTone c then .skinTone
      else if isIn emojiRuns c then .emoji
      else if isIn alefRuns c then .alef
      else ((Ligature.ofChar? c).map (Follower.ligature · false)).getD .other)

/-- A character in front of the last part of a ligature; nothing where it does not belong to it. -/
def Ligature.before? (part : Ligature) (hasJoiner : Bool) (c : Char) : Option (Int × Follower) :=
  match part, hasJoiner with
  | .hebrewLamed, true => if c = '\u05D0' then some (0, .other) else none
  | .khmerLetter, _ => if c = '\u17D2' then some (-1, .other) else none
  | .bugineseYa, true => if c = '\u1A17' then some (0, .ligature .bugineseVowel false) else none
  | .bugineseVowel, _ => if c = '\u1A15' then some (0, .other) else none
  | .tifinaghLetter, _ =>
    if c = '\u2D7F' then some (1, .ligature .tifinaghJoiner false)
    else if hasJoiner && isTifinaghLetter c then some (0, .other)
    else none
  | .tifinaghJoiner, _ => if isTifinaghLetter c then some (-1, .other) else none
  | .lisuTone, _ => if isIn [(0xa4f8, 0xa4fb)] c then some (0, .other) else none
  | .orkhonI, true => if c.toNat = 0x10c32 then some (0, .other) else none
  | _, _ => none

def joined (c : Char) : Int × Follower :=
  if isSkinTone c then (0, .skinTone) else if isIn emojiRuns c then (0, .emoji) else alone c

/-- A character in front of what follows it: its columns, and what both are to the character before them. -/
def beside (c : Char) : Follower → Int × Follower
  | .other => alone c
  | .emoji => if c = '\u200D' then (0, .joiner) else alone c
  | .emojiMark => if isIn emojiFormRuns c then (2, .emoji) else alone c
  | .plainMark => if isIn plainFormRuns c then (1, .other) else alone c
  | .skinTone =>
    if isIn skinRuns c then (0, .emoji) else if c = '\u200D' then (0, .joiner) else alone c
  | .flagLetter => if isFlagLetter c then (1, .flag) else alone c
  | .flag => if isFlagLetter c then (1, .flag) else if c = '\u200D' then (0, .joiner) else alone c
  | .joiner => if c = '\uFE0F' then (0, .joinedMark) else joined c
  | .joinedMark => if isIn emojiFormRuns c then (0, .emoji) else joined c
  | .alef =>
    if isIn lamRuns c then (0, .other)
    else if charWidth c = 0 && c ≠ '\u200C' && c ≠ '\u200D' then (0, .alef)
    else alone c
  | .ligature part hasJoiner =>
    if c = '\u200D' then (0, .ligature part true)
    else if isIn unseenRuns c then (0, .ligature part hasJoiner)
    else (part.before? hasJoiner c).getD (alone c)

def columns : List Char → Int × Follower
  | [] => (0, .other)
  | c :: cs =>
    let (n, follower) := columns cs
    let (m, both) := beside c follower
    (m + n, both)

def width (text : String) : Nat := (columns text.toList).1.toNat

example : width "日本 ab\u0301" = 7 := by decide +kernel
example : width "\u2602\uFE0F" = 2 := by decide +kernel
example : width "👩🏽\u200D🔬" = 2 := by decide +kernel

end LeadTime.Text

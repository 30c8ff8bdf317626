/-!
# Blank characters

Settings are written by hand, so a value may be padded and a list may be separated by blanks or
commas. A blank is a character with the Unicode property White_Space. The table lists all of them.
-/

namespace TestBeam.Text

/-! ## The property -/

/-- The 25 characters with the property White_Space. -/
def isBlank (c : Char) : Bool :=
  let n := c.toNat
  (9 ≤ n && n ≤ 13) || n == 0x20 || n == 0x85 || n == 0xA0 || n == 0x1680 ||
    (0x2000 ≤ n && n ≤ 0x200A) || n == 0x2028 || n == 0x2029 || n == 0x202F || n == 0x205F ||
    n == 0x3000

/-- Blanks and commas separate the words of a list. -/
def isSeparator (c : Char) : Bool :=
  isBlank c || c == ','

/-! ## Trimming -/

/-- Removes the blanks at both ends. -/
def trimChars (cs : List Char) : List Char :=
  ((cs.dropWhile isBlank).reverse.dropWhile isBlank).reverse

def trim (text : String) : String :=
  String.ofList (trimChars text.toList)

/-! ## Words -/

/-- The pieces between separators, empty ones included. There is always at least one. -/
def pieces (separates : Char → Bool) : List Char → List (List Char)
  | [] => [[]]
  | c :: cs =>
    if separates c then [] :: pieces separates cs
    else
      match pieces separates cs with
      | [] => [[c]]
      | piece :: rest => (c :: piece) :: rest

/-- The words of a text, in order. Neighbouring separators count as one. -/
def words (text : String) : List String :=
  ((pieces isSeparator text.toList).filter (fun piece => !piece.isEmpty)).map String.ofList

theorem pieces_ne_nil (separates : Char → Bool) (cs : List Char) : pieces separates cs ≠ [] := by
  cases cs with
  | nil => simp [pieces]
  | cons c cs =>
    simp only [pieces]
    split
    · simp
    · split <;> simp

/-- Splits at the first `mark`, which belongs to neither part. -/
def splitOnce (mark : Char) : List Char → Option (List Char × List Char)
  | [] => none
  | c :: cs =>
    if c = mark then some ([], cs)
    else (splitOnce mark cs).map fun (before, after) => (c :: before, after)

end TestBeam.Text

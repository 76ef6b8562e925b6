/-!
# Blank characters and trimming

The white space of layer names and options is Unicode's `White_Space`, and option values may also be
wrapped in quotation marks. This module holds the character class and the trimming built on it, on
lists of characters and on strings.
-/

namespace ArtCanvas.Text

/-- The code points with Unicode's `White_Space` property, as inclusive ranges. -/
def blankRanges : List (Nat × Nat) :=
  [(0x09, 0x0D), (0x20, 0x20), (0x85, 0x85), (0xA0, 0xA0), (0x1680, 0x1680), (0x2000, 0x200A),
    (0x2028, 0x2029), (0x202F, 0x202F), (0x205F, 0x205F), (0x3000, 0x3000)]

/-- White space in Unicode's sense. -/
def isBlank (c : Char) : Bool :=
  blankRanges.any fun r => r.1 ≤ c.toNat && c.toNat ≤ r.2

/-- A single or a double quotation mark. -/
def isQuote (c : Char) : Bool :=
  c == '\x22' || c == '\x27'

/-- Drops the longest end of `cs` whose characters all satisfy `p`. -/
def dropEnd (p : Char → Bool) (cs : List Char) : List Char :=
  (cs.reverse.dropWhile p).reverse

/-- Drops the characters satisfying `p` from both ends of `cs`. -/
def stripChars (p : Char → Bool) (cs : List Char) : List Char :=
  dropEnd p (cs.dropWhile p)

/-- Drops white space from both ends. -/
def trimChars (cs : List Char) : List Char :=
  stripChars isBlank cs

/-- Drops white space, then quotation marks, then white space from both ends: what is left of an
option key or value once its wrapping is gone. -/
def cleanChars (cs : List Char) : List Char :=
  trimChars (stripChars isQuote (trimChars cs))

/-- `s` without white space at its ends. -/
def trim (s : String) : String :=
  String.ofList (trimChars s.toList)

/-- `s` without surrounding white space and quotation marks. -/
def clean (s : String) : String :=
  String.ofList (cleanChars s.toList)

/-- `s` with the capital letters of ASCII made small, and all else kept. -/
def lower (s : String) : String :=
  String.ofList (s.toList.map Char.toLower)

@[simp]
theorem dropEnd_nil (p : Char → Bool) : dropEnd p [] = [] := rfl

@[simp]
theorem toList_trim (s : String) : (trim s).toList = trimChars s.toList := by
  simp [trim]

@[simp]
theorem toList_clean (s : String) : (clean s).toList = cleanChars s.toList := by
  simp [clean]

@[simp]
theorem toList_lower (s : String) : (lower s).toList = s.toList.map Char.toLower := by
  simp [lower]

end ArtCanvas.Text

/-
  Blanks — the characters that separate words: Unicode white space together
  with the four information separators.

  * `isBlank` is the class; `trim` removes blanks at both ends;
  * `isNumeralBlank` is the smaller class that a numeral may be padded with:
    all blanks except the information separators.
-/
import Rulebook.Text.Ranges

namespace Rulebook.Text

/-- The ranges of blank characters. -/
def blankRanges : Ranges := #[
  (0x9, 0xD), (0x1C, 0x20), (0x85, 0x85), (0xA0, 0xA0), (0x1680, 0x1680), (0x2000, 0x200A),
  (0x2028, 0x2029), (0x202F, 0x202F), (0x205F, 0x205F), (0x3000, 0x3000)]

/-- A character that separates words. -/
def isBlank (c : Char) : Bool := inRanges blankRanges c

/-- One of the four information separators. -/
def isInformationSeparator (c : Char) : Bool := 0x1C ≤ c.toNat && c.toNat ≤ 0x1F

/-- A blank that a numeral may be padded with. -/
def isNumeralBlank (c : Char) : Bool := isBlank c && !isInformationSeparator c

/-- Characters without those of a class at both ends. -/
def stripBy (p : Char → Bool) (cs : List Char) : List Char :=
  ((cs.dropWhile p).reverse.dropWhile p).reverse

/-- Text without the blanks at both ends. -/
def trim (s : String) : String := String.ofList (stripBy isBlank s.toList)

end Rulebook.Text

import Mathlib.Data.List.Infix
import Mathlib.Tactic.Common

/-!
# Text

Trimming, splitting and searching, on characters, so that they compute.

## Main definitions

* `Text.trim`, `Text.isBlank` — surrounding white space
* `Text.split` — the pieces between separators
* `Text.toAsciiLower`, `Text.contains` — searching without regard to case
-/

namespace Foundations.Text

/-- The Unicode property `White_Space`. -/
def isWhitespace (c : Char) : Bool :=
  let n := c.toNat
  (9 ≤ n && n ≤ 13) || n == 0x20 || n == 0x85 || n == 0xA0 || n == 0x1680 ||
    (0x2000 ≤ n && n ≤ 0x200A) || n == 0x2028 || n == 0x2029 || n == 0x202F || n == 0x205F ||
    n == 0x3000

/-- The text without its leading white space. -/
def trimStart (s : String) : String := .ofList (s.toList.dropWhile isWhitespace)

/-- The text without its trailing white space. -/
def trimEnd (s : String) : String :=
  .ofList (s.toList.reverse.dropWhile isWhitespace).reverse

def trim (s : String) : String := trimEnd (trimStart s)

/-- The text is empty but for white space. -/
def isBlank (s : String) : Bool := s.toList.all isWhitespace

/-- The pieces between the separators: one more than there are separators. -/
def split (sep : Char) (s : String) : List String := (s.toList.splitOn sep).map .ofList

/-- Lower case, for the letters of ASCII. -/
def toAsciiLower (s : String) : String := .ofList (s.toList.map Char.toLower)

def contains (s needle : String) : Bool := decide (needle.toList <:+: s.toList)

end Foundations.Text

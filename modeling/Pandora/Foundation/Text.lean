import Mathlib.Data.List.Basic

/-!
# Text as the program handles it

The few string operations that validators use: trimming white space, upper-casing
ASCII letters, and matching a whole string against a character class with bounds
on its length.  A string is handled as its list of characters.
-/

namespace Pandora.Text

/-- The runes that `strings.TrimSpace` removes: `unicode.IsSpace`. -/
def isSpace (c : Char) : Bool :=
  c ∈ ['\t', '\n', '\x0b', '\x0c', '\r', ' ', '\u0085', '\u00a0', '\u1680', '\u2028',
      '\u2029', '\u202f', '\u205f', '\u3000'] || ('\u2000' ≤ c && c ≤ '\u200a')

/-- `strings.TrimSpace`, on runes. -/
def trimSpace (s : List Char) : List Char :=
  ((s.dropWhile isSpace).reverse.dropWhile isSpace).reverse

/-- One ASCII letter in upper case; every other character as it is. -/
def upperASCII (c : Char) : Char :=
  if 'a' ≤ c ∧ c ≤ 'z' then Char.ofNat (c.toNat - 32) else c

/-- `unicode.ToLower`, as far as the result is an ASCII letter: besides the capital letters these
are the dotted capital I and the Kelvin sign. -/
def lowerRune (c : Char) : Char :=
  if 'A' ≤ c ∧ c ≤ 'Z' then Char.ofNat (c.toNat + 32)
  else if c = '\u0130' then 'i'
  else if c = '\u212a' then 'k'
  else c

/-- `strings.ToLower`, for a comparison with an ASCII word. -/
def toLower (s : String) : String := String.ofList (s.toList.map lowerRune)

/-- What `strings.EqualFold` does not distinguish from an ASCII letter: the long s and the Kelvin
sign besides the capital letters. -/
def foldRune (c : Char) : Char :=
  if 'A' ≤ c ∧ c ≤ 'Z' then Char.ofNat (c.toNat + 32)
  else if c = '\u017f' then 's'
  else if c = '\u212a' then 'k'
  else c

/-- `strings.EqualFold`, for a comparison with an ASCII word. -/
def equalFold (s word : String) : Bool := s.toList.map foldRune = word.toList.map foldRune

/-- The pattern `^[class]{least,most}$`. -/
def matchesClass (inClass : Char → Bool) (least most : ℕ) (s : String) : Bool :=
  s.toList.all inClass && least ≤ s.length && s.length ≤ most

end Pandora.Text

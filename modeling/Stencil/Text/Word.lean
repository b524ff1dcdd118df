/-!
Names and digits. A name is a run of ASCII letters, ASCII digits and underscores, and digits are the
ten ASCII ones; no character beyond ASCII belongs to either.
-/

set_option autoImplicit false
set_option relaxedAutoImplicit false

namespace Stencil.Text

/-- A character that may stand in a name. -/
def isWord (c : Char) : Bool :=
  c.isAlphanum || c == '_'

/-- The longest run of word characters at the front of the text. -/
def leadingWord (text : List Char) : List Char :=
  text.takeWhile isWord

/-- What follows the longest run of word characters. -/
def afterWord (text : List Char) : List Char :=
  text.dropWhile isWord

/-- The longest run of digits at the front of the text. -/
def leadingDigits (text : List Char) : List Char :=
  text.takeWhile Char.isDigit

/-- What follows the longest run of digits. -/
def afterDigits (text : List Char) : List Char :=
  text.dropWhile Char.isDigit

/-- The value of a text that consists of digits only. -/
def natural? (text : List Char) : Option Nat :=
  if text ≠ [] ∧ text.all Char.isDigit then some (Nat.ofDigitChars 10 text 0) else none

/-- A text is its leading word and what is behind it. -/
theorem leadingWord_append_afterWord (text : List Char) :
    leadingWord text ++ afterWord text = text :=
  List.takeWhile_append_dropWhile

/-- A text is its leading digits and what is behind them. -/
theorem leadingDigits_append_afterDigits (text : List Char) :
    leadingDigits text ++ afterDigits text = text :=
  List.takeWhile_append_dropWhile

end Stencil.Text

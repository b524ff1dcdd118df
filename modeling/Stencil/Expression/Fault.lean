import Stencil.Text.Quoted

/-!
What can be wrong with the text of an expression. A fault names its cause and the place in the
text that it is about; an expression without any content has no such place. While a text is read,
a place is the part of the text that begins there; to the outside it is the number of bytes before
it in UTF-8. The wording of every fault is in `Fault.message`.
-/

set_option autoImplicit false
set_option relaxedAutoImplicit false

namespace Stencil

/-- What is wrong with a number literal. -/
inductive NumberFlaw where
  /-- A whole number above `2 ^ 63 - 1`. -/
  | tooLarge
  /-- A decimal that no finite double is near to. -/
  | outOfRange
  | secondPoint
  /-- A letter, digit or underscore right after the literal. -/
  | unexpected (found : Char)
deriving DecidableEq

/-- Why a text cannot be read on from a place. -/
inductive Problem where
  | unterminatedText
  | missingFilterName
  | malformedNumber (flaw : NumberFlaw)
  /-- A comma or a blank ends the expression, and more text follows. -/
  | unexpectedTerminator (found : Char)
  | unexpectedCharacter (found : Char)
  | emptySegment
  | missingArgument (filter : String)
deriving DecidableEq

/-- Why a text is not an expression. -/
inductive Fault (Place : Type) where
  | emptyExpression
  | located (place : Place) (problem : Problem)
deriving DecidableEq

/-- A fault while the text is being read, located by the text that is left. -/
abbrev Stop := Fault (List Char)

/-- A fault with the byte offset that it is about. -/
abbrev ScanError := Fault Nat

namespace NumberFlaw

/-- The reason that a report of the number gives. -/
def message : NumberFlaw → String
  | tooLarge => "number too large to fit in target type"
  | outOfRange => "out of range"
  | secondPoint => "second decimal point"
  | unexpected found => "unexpected " ++ Text.quotedChar found ++ " in number"

end NumberFlaw

namespace Fault

/-- The same fault with its place given in other terms. -/
def map {Place Other : Type} (describe : Place → Other) : Fault Place → Fault Other
  | emptyExpression => emptyExpression
  | located place problem => located (describe place) problem

/-- The text that reports a fault. -/
def message : ScanError → String
  | emptyExpression => "empty expression"
  | located offset problem =>
    let position := " at offset " ++ toString offset
    match problem with
    | .unterminatedText => "unterminated string literal starting" ++ position
    | .missingFilterName => "missing filter name" ++ position
    | .malformedNumber flaw => "malformed number" ++ position ++ ": " ++ flaw.message
    | .unexpectedTerminator found => "unexpected " ++ Text.quotedChar found ++ position
    | .unexpectedCharacter found => "unexpected character " ++ Text.quotedChar found ++ position
    | .emptySegment => "empty lookup segment" ++ position
    | .missingArgument filter => "filter '" ++ filter ++ "' expects an argument" ++ position

end Fault

end Stencil

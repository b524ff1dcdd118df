import Stencil.Text.Cased
import Stencil.Text.CaseTables

/-!
Upper case and lower case of whole texts. Each character is replaced by its full mapping, which
may be several characters long. One mapping looks at its surroundings: a capital sigma becomes the
final form `ς` where a word ends, that is after a cased character and not before one, with
case-ignorable characters in between passed over; elsewhere it becomes `σ`. No mapping depends on
a language.
-/

set_option autoImplicit false
set_option relaxedAutoImplicit false

namespace Stencil.Text

/-- The mapping that the two tables give a character; a character in neither is kept. -/
def mapCase (expansions : List (Nat × List Nat)) (runs : List CaseRun) (c : Char) : List Char :=
  match expansions.lookup c.toNat with
  | some codes => codes.map Char.ofNat
  | none =>
    match runs.findSome? fun run ↦ run.image? c.toNat with
    | some code => [Char.ofNat code]
    | none => [c]

/-- The upper-case form of one character. -/
def upperChar (c : Char) : List Char :=
  mapCase upperExpansions upperRuns c

/-- The lower-case form of one character, wherever it stands. -/
def lowerChar (c : Char) : List Char :=
  mapCase lowerExpansions lowerRuns c

/-- Whether the first character that is not case-ignorable exists and is cased. -/
def startsCased (text : List Char) : Bool :=
  match text.dropWhile isCaseIgnorable with
  | c :: _ => isCased c
  | [] => false

/-- The lower-case sigma between the characters before it, nearest first, and those after it. -/
def lowerSigma (before after : List Char) : Char :=
  if startsCased before && !startsCased after then 'ς' else 'σ'

/-- The lower-case form of a text that follows the characters `before`, nearest first. -/
def lowerAfter (before : List Char) : List Char → List Char
  | [] => []
  | c :: rest =>
    (if c = 'Σ' then [lowerSigma before rest] else lowerChar c) ++ lowerAfter (c :: before) rest

/-- The text in upper case. -/
def toUpper (text : String) : String :=
  String.ofList (text.toList.flatMap upperChar)

/-- The text in lower case. -/
def toLower (text : String) : String :=
  String.ofList (lowerAfter [] text.toList)

end Stencil.Text

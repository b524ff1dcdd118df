import Stencil.Expression.Literal
import Stencil.Text.Blank
import Stencil.Token.Basic

/-!
The arguments of a tag. Blanks part them, except inside quotes. A quote opens wherever it stands
outside quotes, also in the middle of an argument, and closes at the next quote of its kind that
no backslash escapes; one that never closes reaches to the end of the content. Outside quotes a
backslash is a character like any other.
-/

set_option autoImplicit false
set_option relaxedAutoImplicit false

namespace Stencil.TagToken

open Text

/-- Where a reader of arguments stands. -/
inductive Quoting where
  | outside
  | inside (quote : Char)
  /-- Inside quotes, right behind a backslash. -/
  | escaped (quote : Char)
deriving DecidableEq

namespace Quoting

/-- Where the reader stands behind one more character. -/
def after : Quoting → Char → Quoting
  | outside, c => if Literal.isQuote c then inside c else outside
  | inside quote, c =>
    if c = '\\' then escaped quote else if c = quote then outside else inside quote
  | escaped quote, _ => inside quote

end Quoting

/-- The text up to the first blank outside quotes, and the text from there on. -/
def splitArgument : Quoting → List Char → List Char × List Char
  | _, [] => ([], [])
  | quoting, c :: rest =>
    if quoting = .outside ∧ isBlank c = true then ([], c :: rest)
    else
      let split := splitArgument (quoting.after c) rest
      (c :: split.1, split.2)

theorem splitArgument_length_le (quoting : Quoting) (text : List Char) :
    (splitArgument quoting text).2.length ≤ text.length := by
  induction text generalizing quoting with
  | nil => simp [splitArgument]
  | cons c rest ih =>
    unfold splitArgument
    split
    · simp
    · have := ih (quoting.after c)
      simp only [List.length_cons]
      omega

/-- The arguments in a text. -/
def readArguments (text : List Char) : List (List Char) :=
  match hstart : skipBlanks text with
  | [] => []
  | c :: rest =>
    match hsplit : splitArgument (Quoting.outside.after c) rest with
    | (others, after) =>
      have : after.length < text.length := by
        have hlength := splitArgument_length_le (Quoting.outside.after c) rest
        have hskip := skipBlanks_length_le text
        rw [hstart, List.length_cons] at hskip
        simp only [hsplit] at hlength
        omega
      (c :: others) :: readArguments after
termination_by text.length

/-- Blanks, an argument and the others, as an equation to rewrite with. -/
theorem readArguments_eq (text : List Char) :
    readArguments text =
      match skipBlanks text with
      | [] => []
      | c :: rest =>
        (c :: (splitArgument (Quoting.outside.after c) rest).1) ::
          readArguments (splitArgument (Quoting.outside.after c) rest).2 := by
  rw [readArguments]
  split <;> rename_i hstart <;> simp only [hstart]

/-- The arguments of the tag, in order. -/
def arguments (token : TagToken) : List String :=
  (readArguments token.content.toList).map String.ofList

end Stencil.TagToken

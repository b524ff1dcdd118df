import Stencil.Expression.Scan

/-!
The language of expressions. A derivation says how a text is put together from names, digits, quotes
and blanks, without saying how it is found: an operand between blanks, and behind it filters, each
behind a bar, whose arguments stand behind a colon and then behind commas. `Derivation.text` is the
text that a derivation spells out and `Derivation.tree` the expression that it denotes. Every part
carries the proof that it is well formed, so that any value of these types is a derivation. Blanks
stand at the two ends, before arguments and inside quoted texts; a derivation is tight where they
stand inside quoted texts only (`Derivation.Tight`).
-/

set_option autoImplicit false
set_option relaxedAutoImplicit false

namespace Stencil

namespace Derivation

open Text

/-- White space, or nothing. -/
@[ext] structure Blanks where
  text : List Char
  isBlank_of_mem : ∀ c ∈ text, isBlank c = true

/-- Letters, digits and underscores, at least one of them. -/
@[ext] structure Name where
  text : List Char
  ne_nil : text ≠ []
  isWord_of_mem : ∀ c ∈ text, isWord c = true

/-- Decimal digits, or nothing. -/
@[ext] structure Digits where
  text : List Char
  isDigit_of_mem : ∀ c ∈ text, c.isDigit = true

/-- The number that the digits spell. -/
def Digits.value (digits : Digits) : Nat :=
  Nat.ofDigitChars 10 digits.text 0

/-- The double that digits around a point denote. Where no digit comes before the point, a zero is
read there. -/
def decimalValue (whole fraction : Digits) : Binary64 :=
  .ofDecimal (if whole.text = [] then ['0'] else whole.text) fraction.text

/-- A number: digits that fit into 63 bits, or a point with digits or nothing on either side and a
finite value. -/
inductive NumberForm where
  | integer (digits : Digits) (ne_nil : digits.text ≠ []) (bounded : digits.value ≤ Number.greatest)
  | decimal (whole fraction : Digits)
      (finite : ∃ rank, decimalValue whole fraction = .finite false rank)

namespace NumberForm

def text : NumberForm → List Char
  | integer digits _ _ => digits.text
  | decimal whole fraction _ => whole.text ++ '.' :: fraction.text

def value : NumberForm → Number
  | integer digits _ _ => .integer (Int64.ofNat digits.value)
  | decimal whole fraction _ => .decimal (decimalValue whole fraction)

end NumberForm

/-- What stands between quotes: characters, and pairs of a backslash and any character. -/
inductive QuotedItem where
  | plain (c : Char)
  | escaped (c : Char)

namespace QuotedItem

def text : QuotedItem → List Char
  | plain c => [c]
  | escaped c => ['\\', c]

/-- A pair stands for its second character where that is a quote or a backslash, and for both of its
characters elsewhere. -/
def value : QuotedItem → List Char
  | plain c => [c]
  | escaped c => if c = '\'' ∨ c = '"' ∨ c = '\\' then [c] else ['\\', c]

end QuotedItem

/-- A quoted text. Inside it neither its own quote nor a backslash stands alone. -/
structure TextForm where
  quote : Char
  items : List QuotedItem
  isQuote : quote = '\'' ∨ quote = '"'
  ne_of_plain_mem : ∀ c, .plain c ∈ items → c ≠ quote ∧ c ≠ '\\'

namespace TextForm

def text (form : TextForm) : List Char :=
  form.quote :: form.items.flatMap QuotedItem.text ++ [form.quote]

def value (form : TextForm) : List Char :=
  form.items.flatMap QuotedItem.value

end TextForm

/-- A lookup: names with points in between, the first of which does not start with a digit. -/
@[ext] structure LookupForm where
  first : Name
  others : List Name
  start : ∀ c ∈ first.text.head?, c.isDigit = false

namespace LookupForm

def text (form : LookupForm) : List Char :=
  form.first.text ++ form.others.flatMap fun name ↦ '.' :: name.text

def value (form : LookupForm) : List String :=
  (form.first :: form.others).map fun name ↦ String.ofList name.text

end LookupForm

/-- An operand as it is written. -/
inductive OperandForm where
  | number (form : NumberForm)
  | text (form : TextForm)
  | lookup (form : LookupForm)

namespace OperandForm

/-- The text of the operand. -/
def spelling : OperandForm → List Char
  | number form => form.text
  | text form => form.text
  | lookup form => form.text

def value : OperandForm → Operand
  | number form => .number form.value
  | text form => .text (String.ofList form.value)
  | lookup form => .lookup form.value

end OperandForm

/-- An operand with the blanks before it. -/
@[ext] structure ArgumentForm where
  blanks : Blanks
  operand : OperandForm

/-- The blanks before the operand, and its text. -/
def ArgumentForm.text (form : ArgumentForm) : List Char :=
  form.blanks.text ++ form.operand.spelling

/-- Arguments with a comma before each. -/
def laterArguments (forms : List ArgumentForm) : List Char :=
  forms.flatMap fun form ↦ ',' :: form.text

/-- A filter with its arguments; there need not be any. -/
@[ext] structure FilterForm where
  name : Name
  arguments : List ArgumentForm

namespace FilterForm

/-- The arguments with a colon before the first and a comma before each other. -/
def argumentText (form : FilterForm) : List Char :=
  match form.arguments with
  | [] => []
  | first :: others => ':' :: (first.text ++ laterArguments others)

def text (form : FilterForm) : List Char :=
  '|' :: (form.name.text ++ form.argumentText)

def value (form : FilterForm) : FilterCall :=
  ⟨String.ofList form.name.text, form.arguments.map fun argument ↦ argument.operand.value⟩

end FilterForm

end Derivation

open Stencil.Derivation in
/-- A text as an expression, with the blanks at its two ends. A filter takes several arguments only
where the options allow it. -/
@[ext] structure Derivation (options : Options) where
  leading : Blanks
  operand : OperandForm
  filters : List FilterForm
  trailing : Blanks
  length_arguments_le : options.multipleArguments = false →
    ∀ filter ∈ filters, filter.arguments.length ≤ 1

namespace Derivation

variable {options : Options}

/-- The text that is derived. -/
def text (derivation : Derivation options) : List Char :=
  derivation.leading.text ++ derivation.operand.spelling ++
    derivation.filters.flatMap FilterForm.text ++ derivation.trailing.text

/-- The expression that the text denotes by this derivation. -/
def tree (derivation : Derivation options) : Expression :=
  ⟨derivation.operand.value, derivation.filters.map FilterForm.value⟩

/-- A filter without blanks before its arguments. -/
def FilterForm.Tight (form : FilterForm) : Prop :=
  ∀ argument ∈ form.arguments, argument.blanks.text = []

/-- A text without blanks but those inside of its quoted texts. -/
structure Tight (derivation : Derivation options) : Prop where
  leading_eq : derivation.leading.text = []
  filters : ∀ filter ∈ derivation.filters, filter.Tight
  trailing_eq : derivation.trailing.text = []

end Derivation

end Stencil

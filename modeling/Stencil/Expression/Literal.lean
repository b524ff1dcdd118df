/-!
Quoted texts, as they are written and as they are read. A quoted text ends at the first quote of
its own kind that no backslash escapes. Behind a backslash, a quote of either kind or a backslash
stands for itself; before any other character the backslash is kept. Writing escapes the quote in
use and the backslash, and nothing else.
-/

set_option autoImplicit false
set_option relaxedAutoImplicit false

namespace Stencil.Literal

/-- A quote of either kind. -/
def isQuote (c : Char) : Bool :=
  c == '\'' || c == '"'

/-- What a backslash followed by the character stands for. -/
def unescape (c : Char) : List Char :=
  if isQuote c || c == '\\' then [c] else ['\\', c]

/-- The value of a quoted text, read from behind its opening quote, and what follows its closing
quote; nothing if the text ends before that. -/
def read? (quote : Char) : List Char → Option (List Char × List Char)
  | '\\' :: c :: rest =>
    (read? quote rest).map fun reading ↦ (unescape c ++ reading.1, reading.2)
  | c :: rest =>
    if c = quote then some ([], rest)
    else (read? quote rest).map fun reading ↦ (c :: reading.1, reading.2)
  | [] => none

/-- One character inside a written text with the given quotes. -/
def escape (quote c : Char) : List Char :=
  if c = quote ∨ c = '\\' then ['\\', c] else [c]

/-- The text between the given quotes. -/
def spell (quote : Char) (value : List Char) : List Char :=
  quote :: value.flatMap (escape quote) ++ [quote]

/-- Reading never gives back more than it was given. -/
theorem read?_length_le (quote : Char) (input value rest : List Char)
    (h : read? quote input = some (value, rest)) : rest.length ≤ input.length := by
  fun_induction read? quote input generalizing value rest with
  | case1 c tail ih =>
    obtain ⟨reading, hread, heq⟩ := Option.map_eq_some_iff.1 h
    cases heq
    have := ih _ _ hread
    simp only [List.length_cons]
    omega
  | case2 tail =>
    cases h
    simp
  | case3 c tail _ _ ih =>
    obtain ⟨reading, hread, heq⟩ := Option.map_eq_some_iff.1 h
    cases heq
    have := ih _ _ hread
    simp only [List.length_cons]
    omega
  | case4 => cases h

end Stencil.Literal

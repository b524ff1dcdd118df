import Stencil.Parser.Basic

/-!
What a parser does to its tokens, and its equations without a bound on the turns. Running a script
or reading nodes leaves a suffix of the tokens (`Script.run_suffix`, `Grammar.nodesWithin_suffix`,
`Parser.parseUntil_suffix`). As many turns as there are tokens are enough, since more of them change
nothing (`Grammar.nodesWithin_eq`); so `Parser.parseUntil` satisfies the equations of a reader that
simply goes on (`Parser.parseUntil_of_tokens_eq_nil`, `Parser.parseUntil_of_tokens_eq_cons`), and
where it does not fail it ends at a token that the test accepts or at no token at all
(`Parser.stop_of_parseUntil`).
-/

set_option autoImplicit false
set_option relaxedAutoImplicit false

namespace Stencil

namespace Script

variable {α β : Type}

/-- Two scripts one after the other: the second goes on where the first has stopped, unless it
failed. -/
theorem run_bind (compiler : Compiler) (reader : NodeReader) (script : Script α)
    (next : α → Script β) (parser : Parser) :
    (script.bind next).run compiler reader parser =
      match script.run compiler reader parser with
      | (.ok result, parser) => (next result).run compiler reader parser
      | (.error failure, parser) => (.error failure, parser) := by
  induction script generalizing parser with
  | done result => rfl
  | fail failure => rfl
  | look resume ih => exact ih _ _
  | take resume ih => exact ih _ _
  | readNodes stop resume ih => exact ih _ _
  | compile source resume ih => exact ih _ _

/-- A compiled expression is what the parser compiles. -/
theorem run_compiled_eq (compiler : Compiler) (reader : NodeReader) (source : String)
    (parser : Parser) :
    (compiled source).run compiler reader parser = parser.compile compiler source := by
  rw [compiled, run]
  rcases parser.compile compiler source with ⟨failure | first, middle⟩ <;> rfl

/-- Nodes up to a token are what the reader reads. -/
theorem run_nodesUntil_eq (compiler : Compiler) (reader : NodeReader) (stop : Token → Bool)
    (parser : Parser) :
    (nodesUntil stop).run compiler reader parser = reader stop parser := by
  rw [nodesUntil, run]
  rcases reader stop parser with ⟨failure | nodes, middle⟩ <;> rfl

/-- A handler can only take tokens from the front of the stream, whatever it asks for. -/
theorem run_suffix (compiler : Compiler) {reader : NodeReader}
    (hreader : ∀ stop parser, (reader stop parser).2.stream.tokens <:+ parser.stream.tokens)
    (script : Script α) (parser : Parser) :
    (script.run compiler reader parser).2.stream.tokens <:+ parser.stream.tokens := by
  induction script generalizing parser with
  | done result => exact List.suffix_refl _
  | fail failure => exact List.suffix_refl _
  | look resume ih => exact ih _ _
  | take resume ih => exact (ih _ _).trans (List.tail_suffix _)
  | readNodes stop resume ih => exact (ih _ _).trans (hreader stop parser)
  | compile source resume ih => exact ih _ _

/-- Readers that agree on short streams serve a script alike whose stream is short. -/
theorem run_congr (compiler : Compiler) {reader other : NodeReader} (bound : Nat)
    (hreader : ∀ stop parser, (reader stop parser).2.stream.tokens <:+ parser.stream.tokens)
    (heq : ∀ stop parser, parser.stream.size ≤ bound → reader stop parser = other stop parser)
    (script : Script α) (parser : Parser) (hsize : parser.stream.size ≤ bound) :
    script.run compiler reader parser = script.run compiler other parser := by
  induction script generalizing parser with
  | done result => rfl
  | fail failure => rfl
  | look resume ih => exact ih _ _ hsize
  | take resume ih =>
    refine ih _ _ (Nat.le_trans ?_ hsize)
    exact (List.tail_suffix _).length_le
  | readNodes stop resume ih =>
    have hread := (hreader stop parser).length_le
    simp only [run, ← heq stop parser hsize]
    exact ih _ _ (Nat.le_trans hread hsize)
  | compile source resume ih => exact ih _ _ hsize

end Script

namespace Grammar

theorem nodeOf_suffix (grammar : Grammar) {reader : NodeReader}
    (hreader : ∀ stop parser, (reader stop parser).2.stream.tokens <:+ parser.stream.tokens)
    (token : Token) (parser : Parser) :
    (grammar.nodeOf reader token parser).2.stream.tokens <:+ parser.stream.tokens := by
  unfold nodeOf
  split
  · exact List.suffix_refl _
  · exact List.suffix_refl _
  · exact List.suffix_refl _
  · split
    · exact List.suffix_refl _
    · exact Script.run_suffix _ hreader _ _

theorem nodeOf_congr (grammar : Grammar) {reader other : NodeReader} (bound : Nat)
    (hreader : ∀ stop parser, (reader stop parser).2.stream.tokens <:+ parser.stream.tokens)
    (heq : ∀ stop parser, parser.stream.size ≤ bound → reader stop parser = other stop parser)
    (token : Token) (parser : Parser) (hsize : parser.stream.size ≤ bound) :
    grammar.nodeOf reader token parser = grammar.nodeOf other token parser := by
  unfold nodeOf
  split
  · rfl
  · rfl
  · rfl
  · split
    · rfl
    · exact Script.run_congr _ bound hreader heq _ _ hsize

/-- Reading nodes takes tokens from the front of the stream. -/
theorem nodesWithin_suffix (grammar : Grammar) (turns : Nat) (stop : Token → Bool)
    (parser : Parser) :
    (grammar.nodesWithin turns stop parser).2.stream.tokens <:+ parser.stream.tokens := by
  induction turns generalizing stop parser with
  | zero => exact List.suffix_refl _
  | succ turns ih =>
    unfold nodesWithin
    split
    · exact List.suffix_refl _
    rename_i token rest htokens
    split
    · exact List.suffix_refl _
    have hnode := grammar.nodeOf_suffix ih token { parser with stream := ⟨rest⟩ }
    have hrest : rest <:+ parser.stream.tokens := htokens ▸ List.suffix_cons token rest
    split
    · rename_i failure after heq
      rw [heq] at hnode
      exact hnode.trans hrest
    · rename_i node after heq
      rw [heq] at hnode
      have hmore := ih stop after
      split <;> rename_i hresult <;> rw [hresult] at hmore <;>
        exact hmore.trans (hnode.trans hrest)

/-- With a turn for every token, further turns change nothing. -/
theorem nodesWithin_eq (grammar : Grammar) (turns others : Nat) (stop : Token → Bool)
    (parser : Parser) (hturns : parser.stream.size ≤ turns)
    (hothers : parser.stream.size ≤ others) :
    grammar.nodesWithin turns stop parser = grammar.nodesWithin others stop parser := by
  induction turns generalizing others stop parser with
  | zero =>
    have hnil : parser.stream.tokens = [] := List.eq_nil_of_length_eq_zero (Nat.le_zero.1 hturns)
    cases others with
    | zero => rfl
    | succ others => simp [nodesWithin, hnil]
  | succ turns ih =>
    cases others with
    | zero =>
      have hnil : parser.stream.tokens = [] := List.eq_nil_of_length_eq_zero (Nat.le_zero.1 hothers)
      simp [nodesWithin, hnil]
    | succ others =>
      unfold nodesWithin
      split
      · rfl
      rename_i token rest htokens
      split
      · rfl
      have hlength : parser.stream.size = rest.length + 1 := by
        simp [TokenStream.size, htokens]
      have hnode := grammar.nodeOf_congr rest.length (grammar.nodesWithin_suffix turns)
        (fun stop parser hsize ↦ ih others stop parser (by omega) (by omega)) token
        { parser with stream := ⟨rest⟩ } (Nat.le_refl _)
      have hshort := (grammar.nodeOf_suffix (grammar.nodesWithin_suffix turns) token
        { parser with stream := ⟨rest⟩ }).length_le
      rw [← hnode]
      split
      · rfl
      · rename_i node after heq
        rw [heq] at hshort
        have hafter : after.stream.size ≤ rest.length := hshort
        rw [ih others stop after (by omega) (by omega)]

/-- Where reading has ended well, there is no token left or the next one is to stop at. -/
theorem stop_of_nodesWithin {grammar : Grammar} {turns : Nat} {stop : Token → Bool}
    {parser after : Parser} {nodes : List Node}
    (hnodes : grammar.nodesWithin turns stop parser = (.ok nodes, after))
    (hturns : parser.stream.size ≤ turns) :
    ∀ token ∈ after.stream.tokens.head?, stop token = true := by
  induction turns generalizing parser nodes with
  | zero =>
    have hnil : parser.stream.tokens = [] := List.eq_nil_of_length_eq_zero (Nat.le_zero.1 hturns)
    cases hnodes
    rw [hnil]
    rintro token ⟨⟩
  | succ turns ih =>
    unfold nodesWithin at hnodes
    split at hnodes
    · rename_i htokens
      cases hnodes
      rw [htokens]
      rintro token ⟨⟩
    rename_i token rest htokens
    split at hnodes
    · rename_i hstop
      cases hnodes
      rw [htokens]
      rintro other ⟨⟩
      exact hstop
    have hsize : parser.stream.size = rest.length + 1 := by simp [TokenStream.size, htokens]
    have hshort := (grammar.nodeOf_suffix (grammar.nodesWithin_suffix turns) token
      { parser with stream := ⟨rest⟩ }).length_le
    split at hnodes
    · cases hnodes
    rename_i node middle hnode
    rw [hnode] at hshort
    split at hnodes
    · cases hnodes
    rename_i more left hmore
    cases hnodes
    have hmiddle : middle.stream.size ≤ rest.length := hshort
    exact ih hmore (by omega)

end Grammar

namespace Parser

theorem parseUntil_suffix (grammar : Grammar) (stop : Token → Bool) (parser : Parser) :
    (parser.parseUntil grammar stop).2.stream.tokens <:+ parser.stream.tokens :=
  grammar.nodesWithin_suffix _ stop parser

theorem intoNode_suffix (grammar : Grammar) (token : Token) (parser : Parser) :
    (parser.intoNode grammar token).2.stream.tokens <:+ parser.stream.tokens :=
  grammar.nodeOf_suffix (parseUntil_suffix grammar) token parser

/-- Where nodes are read without failure, the test accepts the token that stays. -/
theorem stop_of_parseUntil {grammar : Grammar} {stop : Token → Bool} {parser after : Parser}
    {nodes : List Node} (hparse : parser.parseUntil grammar stop = (.ok nodes, after)) :
    ∀ token ∈ after.stream.tokens.head?, stop token = true :=
  Grammar.stop_of_nodesWithin hparse (Nat.le_refl _)

theorem parseUntil_of_tokens_eq_nil (grammar : Grammar) (stop : Token → Bool) (parser : Parser)
    (htokens : parser.stream.tokens = []) :
    parser.parseUntil grammar stop = (.ok [], parser) := by
  simp [parseUntil, TokenStream.size, htokens, Grammar.nodesWithin]

/-- Reading nodes stops at the next token or takes it, as an equation to rewrite with. -/
theorem parseUntil_of_tokens_eq_cons (grammar : Grammar) (stop : Token → Bool) (parser : Parser)
    (token : Token) (rest : List Token) (htokens : parser.stream.tokens = token :: rest) :
    parser.parseUntil grammar stop =
      if stop token then (.ok [], parser)
      else
        match intoNode grammar token { parser with stream := ⟨rest⟩ } with
        | (.error failure, parser) => (.error failure, parser)
        | (.ok node, parser) =>
          match parser.parseUntil grammar stop with
          | (.error failure, parser) => (.error failure, parser)
          | (.ok nodes, parser) => (.ok (node.toList ++ nodes), parser) := by
  have hsize : parser.stream.size = rest.length + 1 := by simp [TokenStream.size, htokens]
  have hnode : grammar.nodeOf (grammar.nodesWithin rest.length) token
      { parser with stream := ⟨rest⟩ } = intoNode grammar token { parser with stream := ⟨rest⟩ } :=
    grammar.nodeOf_congr rest.length (grammar.nodesWithin_suffix _)
      (fun stop parser hle ↦ grammar.nodesWithin_eq _ _ stop parser hle (Nat.le_refl _)) token _
      (Nat.le_refl _)
  have hshort := (grammar.nodeOf_suffix (grammar.nodesWithin_suffix rest.length) token
    { parser with stream := ⟨rest⟩ }).length_le
  rw [hnode] at hshort
  rw [parseUntil, hsize, Grammar.nodesWithin, htokens]
  simp only [hnode]
  rcases hresult : intoNode grammar token { parser with stream := ⟨rest⟩ } with ⟨_ | node, after⟩
  · rfl
  · rw [hresult] at hshort
    have hmore : grammar.nodesWithin rest.length stop after = after.parseUntil grammar stop :=
      grammar.nodesWithin_eq _ _ stop after hshort (Nat.le_refl _)
    rcases hparse : after.parseUntil grammar stop with ⟨_ | nodes, left⟩ <;>
      simp only [hmore, hparse]

end Parser

end Stencil

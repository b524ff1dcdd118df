import Stencil.Proofs.Parser.Nesting

/-!
What a parser does with its tokens in the long run. Whatever is asked of it, in whatever order and
with whatever failures in between, it takes tokens from the front and nothing else, so that what is
left is a suffix of what it had (`Parser.serveAll_suffix`).

Reading nodes goes in turns (`Parser.TakesTurns`). A turn takes one token, and whatever is taken
while that token becomes a node is inside of the turn. The test is for the tokens of the turns,
which it refuses, and for the token that is left, which it accepts; the tokens inside the turns are
not tested, and any test that agrees on the others reads the same nodes. Reading nodes succeeds
exactly where it gets through its turns (`Parser.parseUntil_eq_ok_iff_takesTurns`).

With a registry of blocks and markers a turn is settled by the tokens inside it, whatever follows
them (`Grammar.localWithin_ofRegistrations`). The nodes that are read up to a token are thus those
that parsing gives for the tokens before it alone (`Parser.serveAll_conserves`).
-/

set_option autoImplicit false
set_option relaxedAutoImplicit false

namespace Stencil

/-- One turn of reading nodes: the token that it takes, the tokens that are taken while that one
becomes a node, and the node, if there is one. -/
structure Turn where
  token : Token
  inside : List Token
  node : Option Node

/-- The tokens that a turn takes in all. -/
def Turn.tokens (turn : Turn) : List Token :=
  turn.token :: turn.inside

/-- Inside of a turn there are fewer tokens than in all the turns. -/
theorem Turn.length_inside_lt {turns : List Turn} {turn : Turn} (hturn : turn ∈ turns) :
    turn.inside.length < (turns.flatMap Turn.tokens).length := by
  have hsublist : turn.tokens.Sublist (turns.flatMap Turn.tokens) :=
    List.sublist_flatten_of_mem (List.mem_map_of_mem hturn)
  exact hsublist.length_le

namespace Parser

variable {grammar : Grammar} {parser after : Parser}

/-! ### Requests -/

/-- What can be asked of a parser. -/
inductive Request where
  | next
  | peek
  | parse
  | parseUntil (stop : Token → Bool)
  | intoNode (token : Token)

/-- The parser after a request, also where the request fails. -/
def serve (grammar : Grammar) (parser : Parser) : Request → Parser
  | .next => parser.next.2
  | .peek => parser
  | .parse => (parser.parse grammar).2
  | .parseUntil stop => (parser.parseUntil grammar stop).2
  | .intoNode token => (parser.intoNode grammar token).2

/-- The parser after requests, first to last. -/
def serveAll (grammar : Grammar) (parser : Parser) (requests : List Request) : Parser :=
  requests.foldl (serve grammar) parser

theorem tokens_eq_peek?_append (parser : Parser) :
    parser.stream.tokens = parser.peek?.toList ++ parser.next.2.stream.tokens := by
  obtain ⟨⟨tokens⟩, store⟩ := parser
  cases tokens <;> rfl

theorem serve_suffix (grammar : Grammar) (parser : Parser) (request : Request) :
    (parser.serve grammar request).stream.tokens <:+ parser.stream.tokens := by
  cases request with
  | next => exact List.tail_suffix _
  | peek => exact List.suffix_refl _
  | parse => exact parseUntil_suffix grammar _ parser
  | parseUntil stop => exact parseUntil_suffix grammar stop parser
  | intoNode token => exact intoNode_suffix grammar token parser

/-- Requests leave a suffix of the tokens. -/
theorem serveAll_suffix (grammar : Grammar) (parser : Parser) (requests : List Request) :
    (parser.serveAll grammar requests).stream.tokens <:+ parser.stream.tokens := by
  induction requests generalizing parser with
  | nil => exact List.suffix_refl _
  | cons request requests ih => exact (ih _).trans (serve_suffix grammar parser request)

/-! ### Turns -/

/-- The turns that a parser takes with a test. They end at a token that the test accepts or at the
end of the tokens. -/
inductive TakesTurns (grammar : Grammar) (stop : Token → Bool) : Parser → List Turn → Parser → Prop
  where
  | ended {parser : Parser} (accepts : ∀ token ∈ parser.stream.tokens.head?, stop token = true) :
    TakesTurns grammar stop parser [] parser
  | turn {token : Token} {inside : List Token} {store : Store} {node : Option Node}
      {middle after : Parser} {turns : List Turn} (refuses : stop token = false)
      (intoNode_eq : intoNode grammar token ⟨⟨inside ++ middle.stream.tokens⟩, store⟩ =
        (.ok node, middle))
      (others : TakesTurns grammar stop middle turns after) :
    TakesTurns grammar stop ⟨⟨token :: (inside ++ middle.stream.tokens)⟩, store⟩
      (⟨token, inside, node⟩ :: turns) after

variable {stop : Token → Bool} {turns : List Turn}

/-- The tokens are those of the turns and those that are left. -/
theorem TakesTurns.tokens_eq (hturns : TakesTurns grammar stop parser turns after) :
    parser.stream.tokens = turns.flatMap Turn.tokens ++ after.stream.tokens := by
  induction hturns with
  | ended => rfl
  | turn _ _ _ ih =>
    rw [List.flatMap_cons, List.append_assoc, ← ih]
    rfl

/-- Behind the turns there is no token, or one to stop at. -/
theorem TakesTurns.accepts (hturns : TakesTurns grammar stop parser turns after) :
    ∀ token ∈ after.stream.tokens.head?, stop token = true := by
  induction hturns with
  | ended haccepts => exact haccepts
  | turn _ _ _ ih => exact ih

/-- No turn begins with a token to stop at. -/
theorem TakesTurns.refuses (hturns : TakesTurns grammar stop parser turns after) :
    ∀ turn ∈ turns, stop turn.token = false := by
  induction hturns with
  | ended => simp
  | turn hrefuses _ _ ih => exact List.forall_mem_cons.2 ⟨hrefuses, ih⟩

/-- The turns are the same for every test that refuses their tokens and accepts the token left. -/
theorem TakesTurns.congr (hturns : TakesTurns grammar stop parser turns after)
    {other : Token → Bool} (hrefuses : ∀ turn ∈ turns, other turn.token = false)
    (haccepts : ∀ token ∈ after.stream.tokens.head?, other token = true) :
    TakesTurns grammar other parser turns after := by
  induction hturns with
  | ended => exact .ended haccepts
  | turn _ hnode _ ih =>
    obtain ⟨hfirst, hothers⟩ := List.forall_mem_cons.1 hrefuses
    exact .turn hfirst hnode (ih hothers haccepts)

/-- Reading nodes gives those of the turns, and stops behind them. -/
theorem TakesTurns.parseUntil_eq (hturns : TakesTurns grammar stop parser turns after) :
    parser.parseUntil grammar stop = (.ok (turns.flatMap fun turn ↦ turn.node.toList), after) := by
  induction hturns with
  | @ended parser haccepts =>
    cases htokens : parser.stream.tokens with
    | nil => exact parseUntil_of_tokens_eq_nil grammar stop parser htokens
    | cons token rest =>
      rw [parseUntil_of_tokens_eq_cons grammar stop parser token rest htokens]
      exact if_pos (haccepts token (by rw [htokens]; rfl))
  | @turn token inside store node middle after turns hrefuses hnode _ ih =>
    have hstop : ¬stop token = true := Bool.eq_false_iff.1 hrefuses
    exact (parseUntil_eq_ok_iff hstop).2 ⟨_, _, _, hnode, ih, rfl⟩

/-- The induction is on the number of tokens, as each turn takes one at least. -/
theorem exists_takesTurns {bound : Nat} {nodes : List Node}
    (hparse : parser.parseUntil grammar stop = (.ok nodes, after))
    (hbound : parser.stream.tokens.length ≤ bound) :
    ∃ turns, TakesTurns grammar stop parser turns after ∧
      nodes = turns.flatMap fun turn ↦ turn.node.toList := by
  induction bound generalizing parser nodes with
  | zero =>
    have hnil := List.eq_nil_of_length_eq_zero (Nat.le_zero.1 hbound)
    rw [parseUntil_of_tokens_eq_nil grammar stop parser hnil] at hparse
    cases hparse
    refine ⟨[], .ended ?_, rfl⟩
    rw [hnil]
    rintro token ⟨⟩
  | succ bound ih =>
    obtain ⟨⟨tokens⟩, store⟩ := parser
    cases tokens with
    | nil =>
      rw [parseUntil_of_tokens_eq_nil grammar stop _ rfl] at hparse
      cases hparse
      exact ⟨[], .ended (by rintro token ⟨⟩), rfl⟩
    | cons token rest =>
      by_cases hstop : stop token = true
      · rw [parseUntil_of_tokens_eq_cons grammar stop _ token rest rfl, if_pos hstop] at hparse
        cases hparse
        refine ⟨[], .ended ?_, rfl⟩
        rintro other ⟨⟩
        exact hstop
      · obtain ⟨node, middle, more, hnode, hmore, rfl⟩ := (parseUntil_eq_ok_iff hstop).1 hparse
        have hsuffix := intoNode_suffix grammar token ⟨⟨rest⟩, store⟩
        rw [hnode] at hsuffix
        obtain ⟨inside, rfl⟩ := hsuffix
        have hmiddle : middle.stream.tokens.length ≤ bound := by
          simp only [List.length_cons, List.length_append] at hbound
          omega
        obtain ⟨turns, hturns, rfl⟩ := ih hmore hmiddle
        exact ⟨_, .turn (Bool.eq_false_iff.2 hstop) hnode hturns, rfl⟩

/-- Nodes are read without failure exactly where the parser gets through its turns, and they are the
nodes of the turns. -/
theorem parseUntil_eq_ok_iff_takesTurns {nodes : List Node} :
    parser.parseUntil grammar stop = (.ok nodes, after) ↔
      ∃ turns, TakesTurns grammar stop parser turns after ∧
        nodes = turns.flatMap fun turn ↦ turn.node.toList := by
  constructor
  · intro hparse
    exact exists_takesTurns hparse (Nat.le_refl _)
  · rintro ⟨turns, hturns, rfl⟩
    exact hturns.parseUntil_eq

end Parser

/-! ### Turns that are settled by what is inside -/

/-- A token becomes the same node whatever follows the tokens that are taken with it, as long as
those are fewer than the bound. -/
def Grammar.LocalWithin (grammar : Grammar) (bound : Nat) : Prop :=
  ∀ (token : Token) (inside left : List Token) (store after : Store) (node : Option Node),
    inside.length < bound →
    Parser.intoNode grammar token ⟨⟨inside ++ left⟩, store⟩ = (.ok node, ⟨⟨left⟩, after⟩) →
    ∀ other : List Token,
      Parser.intoNode grammar token ⟨⟨inside ++ other⟩, store⟩ = (.ok node, ⟨⟨other⟩, after⟩)

/-- Turns that are settled by what is inside can be followed by other tokens. -/
theorem Parser.TakesTurns.replace {grammar : Grammar} {bound : Nat} {stop : Token → Bool}
    {parser after : Parser} {turns : List Turn} (hlocal : grammar.LocalWithin bound)
    (hturns : TakesTurns grammar stop parser turns after)
    (hinside : ∀ turn ∈ turns, turn.inside.length < bound) {tokens : List Token}
    (haccepts : ∀ token ∈ tokens.head?, stop token = true) :
    TakesTurns grammar stop ⟨⟨turns.flatMap Turn.tokens ++ tokens⟩, parser.store⟩ turns
      ⟨⟨tokens⟩, after.store⟩ := by
  induction hturns with
  | ended => exact .ended haccepts
  | @turn token inside store node middle after turns hrefuses hnode _ ih =>
    obtain ⟨hfirst, hothers⟩ := List.forall_mem_cons.1 hinside
    obtain ⟨⟨left⟩, behind⟩ := middle
    have hnode := hlocal token inside left store behind node hfirst hnode
      (turns.flatMap Turn.tokens ++ tokens)
    rw [List.flatMap_cons, List.append_assoc]
    exact .turn hrefuses hnode (ih hothers)

namespace Grammar

variable {compiler : Compiler} {registrations : List Registration}

/-- The induction is on the number of tokens inside. Those inside a block are the turns of its body
and the token that closes it. -/
theorem localWithin_ofRegistrations (compiler : Compiler) (registrations : List Registration)
    (bound : Nat) : (ofRegistrations compiler registrations).LocalWithin bound := by
  induction bound with
  | zero =>
    intro token inside left store after node hinside
    exact absurd hinside (Nat.not_lt_zero _)
  | succ bound ih =>
    intro token inside left store after node hinside hnode other
    have hnil (htokens : inside ++ left = left) : inside = [] :=
      List.append_cancel_right (htokens.trans (List.nil_append left).symm)
    have hunmoved {found : Option Node} (hfound : ∀ parser : Parser,
        Parser.intoNode (ofRegistrations compiler registrations) token parser =
          (.ok found, parser)) :
        Parser.intoNode (ofRegistrations compiler registrations) token ⟨⟨inside ++ other⟩, store⟩ =
          (.ok node, ⟨⟨other⟩, after⟩) := by
      rw [hfound] at hnode ⊢
      simp only [Prod.mk.injEq, Except.ok.injEq, Parser.mk.injEq, TokenStream.mk.injEq] at hnode
      obtain ⟨rfl, htokens, rfl⟩ := hnode
      rw [hnil htokens]
      rfl
    cases token with
    | text value => exact hunmoved fun _ ↦ rfl
    | comment value => exact hunmoved fun _ ↦ rfl
    | placeholder source =>
      obtain ⟨compiled, hcompile, hstream, rfl⟩ := Parser.intoNode_placeholder_eq_ok_iff.1 hnode
      rw [hnil (congrArg TokenStream.tokens hstream).symm]
      exact Parser.intoNode_placeholder_eq_ok_iff.2 ⟨compiled, hcompile, rfl, rfl⟩
    | tag token =>
      rcases hkind : kind? registrations token.name with _ | closing | _
      · rw [intoNode_unknown hkind] at hnode
        cases hnode
      · rw [intoNode_block hkind] at hnode ⊢
        obtain ⟨arguments, inner, children, behind, last, rest, harguments, hbody, hlast, rfl,
          hafter⟩ := TagHandler.run_block_eq_ok_iff.1 hnode
        obtain ⟨⟨tokens⟩, final⟩ := behind
        obtain rfl : tokens = last :: rest := hlast
        cases hafter
        obtain ⟨turns, hturns, rfl⟩ := Parser.parseUntil_eq_ok_iff_takesTurns.1 hbody
        have htokens : inside = turns.flatMap Turn.tokens ++ [last] := by
          have hsplit : inside ++ left = turns.flatMap Turn.tokens ++ last :: left :=
            hturns.tokens_eq
          rw [← List.singleton_append, ← List.append_assoc] at hsplit
          exact List.append_cancel_right hsplit
        have hbound : ∀ turn ∈ turns, turn.inside.length < bound := by
          intro turn hturn
          have hlength := Turn.length_inside_lt hturn
          rw [htokens, List.length_append] at hinside
          simp only [List.length_singleton] at hinside
          omega
        have haccepts : ∀ token ∈ (last :: other).head?, Token.isTag [closing] token = true :=
          hturns.accepts
        have hreplaced := (hturns.replace ih hbound haccepts).parseUntil_eq
        refine TagHandler.run_block_eq_ok_iff.2 ⟨arguments, inner, _, ⟨⟨last :: other⟩, final⟩,
          last, other, harguments, ?_, rfl, rfl, rfl⟩
        rw [htokens, List.append_assoc]
        exact hreplaced
      · exact hunmoved (intoNode_marker hkind)

end Grammar

/-! ### Reading a level -/

namespace Parser

/-- Reading nodes up to a token, in turns. The nodes are those of the turns, in order, and the
tokens are those of the turns and then the ones that are left. The test refuses the tokens that the
turns take and accepts the one that is left, and the tokens inside the turns are not tested: every
test that agrees on the others reads the same. With a registry of blocks and markers, parsing the
tokens of the turns alone gives the same nodes and the same store. -/
structure ReadsLevel (grammar : Grammar) (stop : Token → Bool) (parser : Parser)
    (nodes : List Node) (after : Parser) (turns : List Turn) : Prop where
  takesTurns : TakesTurns grammar stop parser turns after
  nodes_eq : nodes = turns.flatMap fun turn ↦ turn.node.toList
  tokens_eq : parser.stream.tokens = turns.flatMap Turn.tokens ++ after.stream.tokens
  refuses : ∀ turn ∈ turns, stop turn.token = false
  accepts : ∀ token ∈ after.stream.tokens.head?, stop token = true
  untested : ∀ other : Token → Bool, (∀ turn ∈ turns, other turn.token = false) →
    (∀ token ∈ after.stream.tokens.head?, other token = true) →
    parser.parseUntil grammar other = (.ok nodes, after)
  alone : ∀ registrations, grammar.tags = .ofRegistrations registrations →
    Parser.parse grammar ⟨⟨turns.flatMap Turn.tokens⟩, parser.store⟩ =
      (.ok nodes, ⟨⟨[]⟩, after.store⟩)

/-- The tokens of the turns are parsed alone into the nodes of the turns. -/
theorem TakesTurns.parse_alone {grammar : Grammar} {stop : Token → Bool} {parser after : Parser}
    {turns : List Turn} {registrations : List Registration}
    (hturns : TakesTurns grammar stop parser turns after)
    (htags : grammar.tags = .ofRegistrations registrations) :
    Parser.parse grammar ⟨⟨turns.flatMap Turn.tokens⟩, parser.store⟩ =
      (.ok (turns.flatMap fun turn ↦ turn.node.toList), ⟨⟨[]⟩, after.store⟩) := by
  have hgrammar : grammar = .ofRegistrations grammar.compiler registrations := by
    rw [Grammar.ofRegistrations, ← htags]
  have hlocal : grammar.LocalWithin (turns.flatMap Turn.tokens).length := by
    rw [hgrammar]
    exact Grammar.localWithin_ofRegistrations _ _ _
  have hreplaced : TakesTurns grammar stop ⟨⟨turns.flatMap Turn.tokens ++ []⟩, parser.store⟩ turns
      ⟨⟨[]⟩, after.store⟩ :=
    hturns.replace hlocal (fun turn hturn ↦ Turn.length_inside_lt hturn) (by rintro token ⟨⟩)
  have hparse : TakesTurns grammar (fun _ ↦ false)
      ⟨⟨turns.flatMap Turn.tokens ++ []⟩, parser.store⟩ turns ⟨⟨[]⟩, after.store⟩ :=
    hreplaced.congr (fun _ _ ↦ rfl) (by rintro token ⟨⟩)
  rw [List.append_nil] at hparse
  exact hparse.parseUntil_eq

/-- Requests take tokens from the front of a parser and do nothing else to them. Looking at the next
token shows the one that is taken next, and it is the first of those left. Whenever nodes are then
read up to a token without failure, they are read in turns. -/
theorem serveAll_conserves (grammar : Grammar) (parser : Parser) (requests : List Request) :
    (parser.serveAll grammar requests).stream.tokens <:+ parser.stream.tokens ∧
    (parser.serveAll grammar requests).peek? = (parser.serveAll grammar requests).next.1 ∧
    (parser.serveAll grammar requests).stream.tokens =
      (parser.serveAll grammar requests).peek?.toList ++
        (parser.serveAll grammar requests).next.2.stream.tokens ∧
    ∀ stop nodes after,
      (parser.serveAll grammar requests).parseUntil grammar stop = (.ok nodes, after) →
      ∃ turns, ReadsLevel grammar stop (parser.serveAll grammar requests) nodes after turns := by
  refine ⟨serveAll_suffix grammar parser requests, rfl, tokens_eq_peek?_append _,
    fun stop nodes after hparse ↦ ?_⟩
  obtain ⟨turns, hturns, rfl⟩ := parseUntil_eq_ok_iff_takesTurns.1 hparse
  refine ⟨turns, hturns, rfl, hturns.tokens_eq, hturns.refuses, hturns.accepts, ?_, ?_⟩
  · intro other hrefuses haccepts
    exact (hturns.congr hrefuses haccepts).parseUntil_eq
  · intro registrations htags
    exact hturns.parse_alone htags

/-- A block whose closing tag is also the one that the test accepts, behind a comment that has been
taken. -/
theorem serveAll_conserves_block :
    ∃ turns, ReadsLevel (.ofRegistrations ⟨{}, .builtin, ⟨0⟩⟩ [⟨"if", .block "end"⟩])
      (Token.isTag ["end"])
      (serveAll (.ofRegistrations ⟨{}, .builtin, ⟨0⟩⟩ [⟨"if", .block "end"⟩])
        ⟨⟨[.comment "", .tag ⟨"if", ""⟩, .text "yes", .tag ⟨"end", ""⟩, .tag ⟨"end", ""⟩]⟩, {}⟩
        [.peek, .next])
      [.tag "if" [] [.text "yes"]] ⟨⟨[.tag ⟨"end", ""⟩]⟩, {}⟩ turns := by
  have harguments : TagToken.arguments ⟨"if", ""⟩ = [] := by
    simp [TagToken.arguments, TagToken.readArguments_eq, Text.skipBlanks]
  have hadmissible : (Document.block ⟨"if", ""⟩ (.text "yes" .nil) ⟨"end", ""⟩ .nil).Admissible
      [⟨"if", .block "end"⟩] {} (some "end") := by
    refine ⟨by simp, rfl, ?_, trivial, trivial⟩
    rw [harguments]
    exact fun argument hargument ↦ (List.not_mem_nil hargument).elim
  have hbuilds : (Document.block ⟨"if", ""⟩ (.text "yes" .nil) ⟨"end", ""⟩ .nil).Builds
      ⟨{}, .builtin, ⟨0⟩⟩ {} [.tag "if" [] [.text "yes"]] {} := by
    refine .block ?_ (.text .nil) .nil
    rw [harguments]
    exact .nil
  exact (serveAll_conserves _ _ [.peek, .next]).2.2.2 _ _ _
    (Document.parseUntil_tokens hadmissible hbuilds (halts_tag ⟨"end", ""⟩ []))

end Parser

end Stencil

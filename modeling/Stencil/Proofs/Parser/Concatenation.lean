import Stencil.Proofs.Parser.Nesting

/-!
Tokens one behind another. With a registry of blocks and markers, what a parser does with its tokens
does not depend on tokens further behind (`Parser.Local`): a token becomes the same node, or fails
in the same way, and the further tokens are left. The one thing that shows where the tokens end is a
block that they end inside of (`Failure.IsUnclosed`). Reading nodes may come to the end of the
tokens without failure, and then it goes on with the further ones (`Parser.ReadsOn`).

So the tokens of two streams, one behind the other, are parsed as the first stream and then the
second, from the store that the first one leaves (`Grammar.parse_append`).
-/

set_option autoImplicit false
set_option relaxedAutoImplicit false

namespace Stencil

/-- The failure of a block that the tokens end inside of. -/
def Failure.IsUnclosed (failure : Failure) : Prop :=
  ∃ name closing, failure = .unclosedTag name closing

namespace Parser

/-- The parser with further tokens behind its own. -/
def extend (parser : Parser) (further : List Token) : Parser :=
  ⟨⟨parser.stream.tokens ++ further⟩, parser.store⟩

/-- What is read behind nodes that have been read. -/
def behind (nodes : List Node) : Outcome (List Node) → Outcome (List Node)
  | (.ok others, after) => (.ok (nodes ++ others), after)
  | (.error failure, after) => (.error failure, after)

theorem behind_nil (outcome : Outcome (List Node)) : behind [] outcome = outcome := by
  rcases outcome with ⟨_ | _, after⟩ <;> rfl

theorem behind_behind (nodes others : List Node) (outcome : Outcome (List Node)) :
    behind nodes (behind others outcome) = behind (nodes ++ others) outcome := by
  rcases outcome with ⟨failure | more, after⟩
  · rfl
  · simp only [behind, List.append_assoc]

/-- Reading behind a token that the test refuses. -/
theorem parseUntil_eq_behind (grammar : Grammar) {stop : Token → Bool} {token : Token}
    {rest : List Token} (hstop : ¬stop token = true) (store : Store) :
    parseUntil grammar stop ⟨⟨token :: rest⟩, store⟩ =
      match intoNode grammar token ⟨⟨rest⟩, store⟩ with
      | (.error failure, middle) => (.error failure, middle)
      | (.ok node, middle) => behind node.toList (middle.parseUntil grammar stop) := by
  rw [parseUntil_of_tokens_eq_cons grammar stop _ token rest rfl, if_neg hstop]
  rcases intoNode grammar token ⟨⟨rest⟩, store⟩ with ⟨failure | node, middle⟩
  · rfl
  simp only
  rcases middle.parseUntil grammar stop with ⟨failure | nodes, left⟩ <;> rfl

/-- Compiling does not look at the tokens. -/
theorem compile_extend (parser : Parser) (compiler : Compiler) (source : String)
    (further : List Token) :
    (parser.extend further).compile compiler source =
      ((parser.compile compiler source).1, (parser.compile compiler source).2.extend further) :=
  rfl

theorem extend_nil_eq {parser : Parser} (htokens : parser.stream.tokens = [])
    (further : List Token) : parser.extend further = ⟨⟨further⟩, parser.store⟩ := by
  rw [extend, htokens, List.nil_append]

/-- A run that leaves further tokens as they are, unless it fails for want of tokens. -/
def Local {α : Type} (run : Parser → Outcome α) (parser : Parser) : Prop :=
  ∀ result after, run parser = (result, after) →
    (∀ failure, result = .error failure → ¬failure.IsUnclosed) →
    ∀ further, run (parser.extend further) = (result, after.extend further)

/-- Nodes that are read in the same way with further tokens behind. Where they are read without
failure, reading goes on with what is left and the further tokens. -/
structure ReadsOn (grammar : Grammar) (stop : Token → Bool) (parser : Parser) : Prop where
  ok : ∀ nodes after, parser.parseUntil grammar stop = (.ok nodes, after) → ∀ further,
    (parser.extend further).parseUntil grammar stop =
      behind nodes ((after.extend further).parseUntil grammar stop)
  error : ∀ failure after, parser.parseUntil grammar stop = (.error failure, after) →
    ¬failure.IsUnclosed → ∀ further,
    (parser.extend further).parseUntil grammar stop = (.error failure, after.extend further)

variable {grammar : Grammar} {stop : Token → Bool} {parser after : Parser}

/-- Reading that ends without a node, at the end of the tokens or before one of them. -/
theorem ReadsOn.of_unmoved (hparse : parser.parseUntil grammar stop = (.ok [], parser)) :
    ReadsOn grammar stop parser := by
  constructor
  · intro nodes after heq further
    rw [hparse] at heq
    cases heq
    exact (behind_nil _).symm
  · intro failure after heq
    rw [hparse] at heq
    cases heq

/-- Where a token is left, reading ends before it also with further tokens behind. -/
theorem ReadsOn.ok_of_tokens_eq_cons {nodes : List Node} {token : Token} {rest : List Token}
    (hreads : ReadsOn grammar stop parser)
    (hparse : parser.parseUntil grammar stop = (.ok nodes, after))
    (htokens : after.stream.tokens = token :: rest) (further : List Token) :
    (parser.extend further).parseUntil grammar stop = (.ok nodes, after.extend further) := by
  have hstop : stop token = true := stop_of_parseUntil hparse token (by rw [htokens]; rfl)
  have hmore : (after.extend further).stream.tokens = token :: (rest ++ further) := by
    rw [extend, htokens, List.cons_append]
  rw [hreads.ok nodes after hparse, parseUntil_of_tokens_eq_cons grammar stop _ _ _ hmore,
    if_pos hstop, behind, List.append_nil]

/-- Reading behind a token that the test refuses. -/
theorem ReadsOn.cons {token : Token} {rest : List Token} {store : Store}
    (hstop : ¬stop token = true) (hlocal : Local (intoNode grammar token) ⟨⟨rest⟩, store⟩)
    (hbehind : ∀ node middle, intoNode grammar token ⟨⟨rest⟩, store⟩ = (.ok node, middle) →
      ReadsOn grammar stop middle) :
    ReadsOn grammar stop ⟨⟨token :: rest⟩, store⟩ := by
  have hextend (further : List Token) :
      (Parser.mk ⟨token :: rest⟩ store).extend further = ⟨⟨token :: (rest ++ further)⟩, store⟩ :=
    rfl
  rcases hnode : intoNode grammar token ⟨⟨rest⟩, store⟩ with ⟨failure | node, middle⟩
  · have hown : parseUntil grammar stop ⟨⟨token :: rest⟩, store⟩ = (.error failure, middle) := by
      rw [parseUntil_eq_behind grammar hstop, hnode]
    constructor
    · intro nodes after heq
      rw [hown] at heq
      cases heq
    · intro found after heq hclosed further
      rw [hown] at heq
      cases heq
      have hfails : intoNode grammar token ⟨⟨rest ++ further⟩, store⟩ =
          (.error failure, middle.extend further) :=
        hlocal _ _ hnode (by rintro _ ⟨⟩; exact hclosed) further
      rw [hextend, parseUntil_eq_behind grammar hstop, hfails]
  · have hown : parseUntil grammar stop ⟨⟨token :: rest⟩, store⟩ =
        behind node.toList (middle.parseUntil grammar stop) := by
      rw [parseUntil_eq_behind grammar hstop, hnode]
    have hlonger (further : List Token) :
        parseUntil grammar stop ((Parser.mk ⟨token :: rest⟩ store).extend further) =
          behind node.toList ((middle.extend further).parseUntil grammar stop) := by
      have hmore : intoNode grammar token ⟨⟨rest ++ further⟩, store⟩ =
          (.ok node, middle.extend further) := hlocal _ _ hnode (by rintro _ ⟨⟩) further
      rw [hextend, parseUntil_eq_behind grammar hstop, hmore]
    have hmiddle := hbehind node middle hnode
    rcases hrest : middle.parseUntil grammar stop with ⟨failure | others, left⟩
    · rw [hrest] at hown
      constructor
      · intro nodes after heq
        rw [hown] at heq
        cases heq
      · intro found after heq hclosed further
        rw [hown] at heq
        cases heq
        rw [hlonger, hmiddle.error failure left hrest hclosed]
        rfl
    · rw [hrest] at hown
      constructor
      · intro nodes after heq further
        rw [hown] at heq
        cases heq
        rw [hlonger, hmiddle.ok others left hrest, behind_behind]
      · intro failure after heq
        rw [hown] at heq
        cases heq

end Parser

/-! ### Blocks -/

open Stencil.Parser

/-- Compiling arguments does not look at the tokens. -/
theorem Script.compileAll_local (compiler : Compiler) (reader : NodeReader) (sources : List String)
    (parser : Parser) (further : List Token) :
    (compileAll sources).run compiler reader (parser.extend further) =
      (((compileAll sources).run compiler reader parser).1,
        ((compileAll sources).run compiler reader parser).2.extend further) := by
  induction sources generalizing parser with
  | nil => rfl
  | cons source sources ih =>
    have hrun (start : Parser) : (compileAll (source :: sources)).run compiler reader start =
        ((compiled source).bind fun first ↦ (compileAll sources).bind fun others ↦
          done (first :: others)).run compiler reader start := rfl
    rw [hrun, hrun, run_bind, run_bind, run_compiled_eq, run_compiled_eq, compile_extend]
    rcases parser.compile compiler source with ⟨failure | first, middle⟩
    · rfl
    simp only [run_bind, ih middle]
    rcases (compileAll sources).run compiler reader middle with ⟨failure | others, left⟩ <;> rfl

namespace Grammar

variable {compiler : Compiler} {registrations : List Registration} {parser : Parser}

/-- A block leaves further tokens as they are, if reading its body goes on with them. The token that
closes it is taken before they are reached. -/
theorem block_local {grammar : Grammar} (closing : String) (opening : TagToken)
    (hbody : ∀ store, ReadsOn grammar (Token.isTag [closing]) { parser with store }) :
    Local ((TagHandler.block closing opening).run compiler (Parser.parseUntil grammar)) parser := by
  intro result after hrun hclosed further
  rw [TagHandler.run_block_eq] at hrun ⊢
  rw [Script.compileAll_local]
  rcases harguments : (Script.compileAll opening.arguments).run compiler
    (Parser.parseUntil grammar) parser with ⟨failure | arguments, middle⟩
  · rw [harguments] at hrun
    cases hrun
    rfl
  obtain ⟨-, hstream⟩ := Script.run_compileAll_eq_ok_iff.1 harguments
  have hreads : ReadsOn grammar (Token.isTag [closing]) middle := by
    have hmiddle := hbody middle.store
    rwa [← hstream] at hmiddle
  simp only [harguments] at hrun ⊢
  rcases hparse : middle.parseUntil grammar (Token.isTag [closing]) with ⟨failure | body, left⟩
  · simp only [hparse] at hrun
    cases hrun
    rw [hreads.error failure _ hparse (hclosed failure rfl)]
  · simp only [hparse] at hrun
    cases htokens : left.stream.tokens with
    | nil =>
      simp only [htokens] at hrun
      cases hrun
      exact absurd ⟨_, _, rfl⟩ (hclosed _ rfl)
    | cons last rest =>
      simp only [htokens] at hrun
      cases hrun
      rw [hreads.ok_of_tokens_eq_cons hparse htokens]
      simp only [extend, htokens, List.cons_append]

/-- A token leaves further tokens as they are, if reading nodes behind it does. -/
theorem intoNode_local (token : Token)
    (hreads : ∀ stop store,
      ReadsOn (ofRegistrations compiler registrations) stop { parser with store }) :
    Local (intoNode (ofRegistrations compiler registrations) token) parser := by
  cases token with
  | text value =>
    rintro result after ⟨⟩ - further
    rfl
  | comment value =>
    rintro result after ⟨⟩ - further
    rfl
  | placeholder source =>
    intro result after hnode _ further
    rw [intoNode_placeholder] at hnode ⊢
    cases hnode
    rw [compile_extend]
  | tag token =>
    rcases hkind : kind? registrations token.name with _ | closing | _
    · intro result after hnode _ further
      rw [intoNode_unknown hkind] at hnode ⊢
      cases hnode
      rfl
    · intro result after hnode hclosed further
      rw [intoNode_block hkind] at hnode ⊢
      exact block_local closing token (hreads _) result after hnode hclosed further
    · intro result after hnode _ further
      rw [intoNode_marker hkind] at hnode ⊢
      cases hnode
      rfl

/-! ### Reading on -/

/-- The recursion is on the number of tokens. Behind a token that became a node, and inside of a
block, there are fewer. -/
theorem readsOn (compiler : Compiler) (registrations : List Registration) (stop : Token → Bool)
    (parser : Parser) : ReadsOn (ofRegistrations compiler registrations) stop parser := by
  obtain ⟨⟨tokens⟩, store⟩ := parser
  cases tokens with
  | nil => exact .of_unmoved (parseUntil_of_tokens_eq_nil _ stop _ rfl)
  | cons token rest =>
    by_cases hstop : stop token = true
    · refine .of_unmoved ?_
      rw [parseUntil_of_tokens_eq_cons _ stop _ token rest rfl, if_pos hstop]
    refine .cons hstop (intoNode_local token fun inner middle ↦ ?_) fun node middle hnode ↦ ?_
    · exact readsOn compiler registrations inner ⟨⟨rest⟩, middle⟩
    · have hsuffix := intoNode_suffix (ofRegistrations compiler registrations) token
        ⟨⟨rest⟩, store⟩
      rw [hnode] at hsuffix
      have hfewer : middle.stream.tokens.length ≤ rest.length := hsuffix.length_le
      exact readsOn compiler registrations stop middle
termination_by parser.stream.tokens.length
decreasing_by
  all_goals simp only [List.length_cons]
  all_goals omega

/-- The tokens of two streams, one behind the other. Where the first stream is parsed without
failure, the second is parsed from the store that is left then, and what comes of it is the outcome
of both, with the nodes of the first in front. Where the first stream fails, and not because it ends
inside of a block, both fail in the same way and with the same store, and the tokens of the second
are left behind those that the first leaves. -/
theorem parse_append (compiler : Compiler) (registrations : List Registration) (store : Store)
    (front back : List Token) :
    (∀ nodes after, Parser.parse (ofRegistrations compiler registrations) ⟨⟨front⟩, store⟩ =
        (.ok nodes, after) →
      (∀ others left, Parser.parse (ofRegistrations compiler registrations)
          ⟨⟨back⟩, after.store⟩ = (.ok others, left) →
        Parser.parse (ofRegistrations compiler registrations) ⟨⟨front ++ back⟩, store⟩ =
          (.ok (nodes ++ others), left)) ∧
      ∀ failure left, Parser.parse (ofRegistrations compiler registrations)
          ⟨⟨back⟩, after.store⟩ = (.error failure, left) →
        Parser.parse (ofRegistrations compiler registrations) ⟨⟨front ++ back⟩, store⟩ =
          (.error failure, left)) ∧
    ∀ failure after, Parser.parse (ofRegistrations compiler registrations) ⟨⟨front⟩, store⟩ =
        (.error failure, after) →
      (∀ name closing, failure ≠ .unclosedTag name closing) →
      Parser.parse (ofRegistrations compiler registrations) ⟨⟨front ++ back⟩, store⟩ =
        (.error failure, ⟨⟨after.stream.tokens ++ back⟩, after.store⟩) := by
  have hreads := readsOn compiler registrations (fun _ ↦ false) ⟨⟨front⟩, store⟩
  constructor
  · intro nodes after hfront
    have htokens : after.stream.tokens = [] := by
      refine List.head?_eq_none_iff.1 (Option.eq_none_iff_forall_not_mem.2 fun token htoken ↦ ?_)
      exact Bool.false_ne_true (stop_of_parseUntil hfront token htoken)
    have hboth := hreads.ok nodes after hfront back
    rw [extend_nil_eq htokens] at hboth
    constructor
    · intro others left hback
      exact hboth.trans (congrArg (behind nodes) hback)
    · intro failure left hback
      exact hboth.trans (congrArg (behind nodes) hback)
  · intro failure after hfront hclosed
    refine hreads.error failure after hfront ?_ back
    rintro ⟨name, closing, hunclosed⟩
    exact hclosed name closing hunclosed

/-- A block and then a tag that is not registered. -/
theorem parse_append_block :
    Parser.parse (.ofRegistrations ⟨{}, .builtin, ⟨0⟩⟩ [⟨"if", .block "end"⟩])
        ⟨⟨[.tag ⟨"if", ""⟩, .text "yes", .tag ⟨"end", ""⟩, .comment "", .tag ⟨"fi", ""⟩]⟩, {}⟩ =
      (.error (.unknownTag "fi"), ⟨⟨[]⟩, {}⟩) ∧
    Parser.parse (.ofRegistrations ⟨{}, .builtin, ⟨0⟩⟩ [⟨"if", .block "end"⟩])
        ⟨⟨[.tag ⟨"fi", ""⟩, .text "yes"]⟩, {}⟩ =
      (.error (.unknownTag "fi"), ⟨⟨[.text "yes"]⟩, {}⟩) := by
  have harguments : TagToken.arguments ⟨"if", ""⟩ = [] := by
    simp [TagToken.arguments, TagToken.readArguments_eq, Text.skipBlanks]
  have hadmissible : (Document.block ⟨"if", ""⟩ (.text "yes" .nil) ⟨"end", ""⟩ .nil).Admissible
      [⟨"if", .block "end"⟩] {} none := by
    refine ⟨by simp, rfl, ?_, trivial, trivial⟩
    rw [harguments]
    exact fun argument hargument ↦ (List.not_mem_nil hargument).elim
  have hbuilds : (Document.block ⟨"if", ""⟩ (.text "yes" .nil) ⟨"end", ""⟩ .nil).Builds
      ⟨{}, .builtin, ⟨0⟩⟩ {} [.tag "if" [] [.text "yes"]] {} := by
    refine .block ?_ (.text .nil) .nil
    rw [harguments]
    exact .nil
  have htag : Parser.parse (.ofRegistrations ⟨{}, .builtin, ⟨0⟩⟩ [⟨"if", .block "end"⟩])
      ⟨⟨[.tag ⟨"fi", ""⟩]⟩, {}⟩ = (.error (.unknownTag "fi"), ⟨⟨[]⟩, {}⟩) := by
    rw [Parser.parse, parseUntil_eq_behind _ Bool.false_ne_true, intoNode_unknown rfl]
  have hcomment : Parser.parse (.ofRegistrations ⟨{}, .builtin, ⟨0⟩⟩ [⟨"if", .block "end"⟩])
      ⟨⟨(Document.comment "" .nil).tokens⟩, {}⟩ = (.ok [], ⟨⟨[]⟩, {}⟩) :=
    parse_tokens trivial (.comment .nil)
  have hback := ((parse_append ⟨{}, .builtin, ⟨0⟩⟩ [⟨"if", .block "end"⟩] {} [.comment ""]
    [.tag ⟨"fi", ""⟩]).1 _ _ hcomment).2 _ _ htag
  constructor
  · exact ((parse_append _ _ _ _ _).1 _ _ (parse_tokens hadmissible hbuilds)).2 _ _ hback
  · refine (parse_append _ _ _ _ [.text "yes"]).2 _ _ htag ?_
    rintro name closing ⟨⟩

end Grammar

end Stencil

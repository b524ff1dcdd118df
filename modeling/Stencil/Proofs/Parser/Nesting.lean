import Stencil.Parser.Lemmas
import Stencil.Proofs.Compiler.Session
import Stencil.Proofs.Parser.Document

/-!
Parsing is reading documents. With a registry of blocks and markers, reading nodes up to a tag takes
the tokens of an admissible document from the front and gives the nodes that it builds
(`Grammar.exists_document_of_parseUntil`), and every such document is read in this way
(`Grammar.parseUntil_tokens`). A token stream is parsed exactly where it is an admissible document
laid out, which is then the only one (`Grammar.parse_ofRegistrations`).
-/

set_option autoImplicit false
set_option relaxedAutoImplicit false

namespace Stencil

/-! ### Scripts of blocks -/

theorem Parser.compile_eq_ok_iff {compiler : Compiler} {source : String} {parser after : Parser}
    {compiled : Compiled} :
    parser.compile compiler source = (.ok compiled, after) ↔
      compiler.compile source parser.store = (.ok compiled, after.store) ∧
        after.stream = parser.stream := by
  obtain ⟨stream, store⟩ := parser
  obtain ⟨behind, left⟩ := after
  rcases hcompile : compiler.compile source store with ⟨result, middle⟩
  simp only [Parser.compile, hcompile, Prod.mk.injEq, Parser.mk.injEq]
  constructor
  · rintro ⟨hresult, hstream, hstore⟩
    exact ⟨⟨hresult, hstore⟩, hstream.symm⟩
  · rintro ⟨⟨hresult, hstore⟩, hstream⟩
    exact ⟨hresult, hstream.symm, hstore⟩

namespace Script

variable {compiler : Compiler} {reader : NodeReader} {parser after : Parser}

/-- Two scripts in a row succeed exactly if the first does and the second does behind it. -/
theorem run_bind_eq_ok_iff {α β : Type} {script : Script α} {next : α → Script β} {result : β} :
    (script.bind next).run compiler reader parser = (.ok result, after) ↔
      ∃ first middle, script.run compiler reader parser = (.ok first, middle) ∧
        (next first).run compiler reader middle = (.ok result, after) := by
  rw [run_bind]
  rcases script.run compiler reader parser with ⟨failure | first, middle⟩
  · constructor
    · intro habsurd
      cases habsurd
    · rintro ⟨first, middle, habsurd, -⟩
      cases habsurd
  · constructor
    · intro hnext
      exact ⟨first, middle, rfl, hnext⟩
    · rintro ⟨first, middle, heq, hnext⟩
      cases heq
      exact hnext

theorem run_compiled_eq_ok_iff {source : String} {result : Compiled} :
    (compiled source).run compiler reader parser = (.ok result, after) ↔
      compiler.compile source parser.store = (.ok result, after.store) ∧
        after.stream = parser.stream := by
  rw [← Parser.compile_eq_ok_iff, run_compiled_eq]

/-- Compiling arguments succeeds exactly if each of them is compiled, and takes no token. -/
theorem run_compileAll_eq_ok_iff {sources : List String} {results : List Compiled} :
    (compileAll sources).run compiler reader parser = (.ok results, after) ↔
      compiler.CompilesAll sources parser.store results after.store ∧
        after.stream = parser.stream := by
  induction sources generalizing parser results with
  | nil =>
    constructor
    · intro hrun
      cases hrun
      exact ⟨.nil, rfl⟩
    · rintro ⟨hcompiles, hstream⟩
      obtain ⟨stream, store⟩ := parser
      obtain ⟨behind, left⟩ := after
      obtain rfl : behind = stream := hstream
      cases hcompiles
      rfl
  | cons source sources ih =>
    show (bind (compiled source) _).run compiler reader parser = _ ↔ _
    rw [run_bind_eq_ok_iff]
    constructor
    · rintro ⟨first, middle, hfirst, hrest⟩
      obtain ⟨others, last, hothers, hlast⟩ := run_bind_eq_ok_iff.1 hrest
      cases hlast
      obtain ⟨hcompile, hstream⟩ := run_compiled_eq_ok_iff.1 hfirst
      obtain ⟨hcompiles, hbehind⟩ := ih.1 hothers
      exact ⟨.cons hcompile hcompiles, hbehind.trans hstream⟩
    · rintro ⟨hcompiles, hstream⟩
      cases hcompiles with
      | @cons _ _ _ middle _ first others hcompile hcompiles =>
        have hfirst : (compiled source).run compiler reader parser =
            (.ok first, ⟨parser.stream, middle⟩) :=
          run_compiled_eq_ok_iff.2 ⟨hcompile, rfl⟩
        have hothers : (compileAll sources).run compiler reader ⟨parser.stream, middle⟩ =
            (.ok others, after) := ih.2 ⟨hcompiles, hstream⟩
        exact ⟨first, _, hfirst, run_bind_eq_ok_iff.2 ⟨others, after, hothers, rfl⟩⟩

end Script

/-- What a block does, step by step. -/
theorem TagHandler.run_block_eq (compiler : Compiler) (reader : NodeReader) (closing : String)
    (token : TagToken) (parser : Parser) :
    (TagHandler.block closing token).run compiler reader parser =
      match (Script.compileAll token.arguments).run compiler reader parser with
      | (.error failure, parser) => (.error failure, parser)
      | (.ok arguments, parser) =>
        match reader (Token.isTag [closing]) parser with
        | (.error failure, parser) => (.error failure, parser)
        | (.ok body, parser) =>
          match parser.stream.tokens with
          | [] => (.error (.unclosedTag token.name closing), parser)
          | _ :: rest =>
            (.ok (some (.tag token.name arguments body)), { parser with stream := ⟨rest⟩ }) := by
  show (Script.bind (Script.compileAll token.arguments) _).run compiler reader parser = _
  rw [Script.run_bind]
  rcases (Script.compileAll token.arguments).run compiler reader parser with
    ⟨failure | arguments, middle⟩
  · rfl
  dsimp only
  show (Script.bind (Script.nodesUntil (Token.isTag [closing])) _).run compiler reader middle = _
  rw [Script.run_bind, Script.run_nodesUntil_eq]
  rcases reader (Token.isTag [closing]) middle with ⟨failure | body, ⟨⟨tokens⟩, store⟩⟩
  · rfl
  cases tokens <;> rfl

/-- What a block does where it does not fail: its arguments are compiled, the nodes of its body are
read, and the tag behind them is taken. -/
theorem TagHandler.run_block_eq_ok_iff {compiler : Compiler} {reader : NodeReader}
    {closing : String} {token : TagToken} {parser after : Parser} {result : Option Node} :
    (TagHandler.block closing token).run compiler reader parser = (.ok result, after) ↔
      ∃ arguments store body behind last rest,
        compiler.CompilesAll token.arguments parser.store arguments store ∧
        reader (Token.isTag [closing]) { parser with store } = (.ok body, behind) ∧
        behind.stream.tokens = last :: rest ∧
        result = some (.tag token.name arguments body) ∧
        after = { behind with stream := ⟨rest⟩ } := by
  rw [run_block_eq]
  constructor
  · intro hrun
    split at hrun
    · cases hrun
    rename_i arguments middle harguments
    obtain ⟨hcompiles, hstream⟩ := Script.run_compileAll_eq_ok_iff.1 harguments
    split at hrun
    · cases hrun
    rename_i body behind hbody
    split at hrun
    · cases hrun
    rename_i last rest htokens
    cases hrun
    have hmiddle : middle = { parser with store := middle.store } := by
      rw [← hstream]
    rw [hmiddle] at hbody
    exact ⟨arguments, middle.store, body, behind, last, rest, hcompiles, hbody, htokens, rfl, rfl⟩
  · rintro ⟨arguments, store, body, behind, last, rest, hcompiles, hbody, htokens, rfl, rfl⟩
    have harguments : (Script.compileAll token.arguments).run compiler reader parser =
        (.ok arguments, { parser with store }) :=
      Script.run_compileAll_eq_ok_iff.2 ⟨hcompiles, rfl⟩
    simp only [harguments, hbody, htokens]

/-! ### One item -/

namespace Parser

variable {grammar : Grammar} {parser after : Parser}

/-- Where reading does not stop at the next token, it succeeds exactly if it takes that and succeeds
behind it. -/
theorem parseUntil_eq_ok_iff {stop : Token → Bool} {token : Token} {rest : List Token}
    {store : Store} {nodes : List Node} (hstop : ¬stop token = true) :
    parseUntil grammar stop ⟨⟨token :: rest⟩, store⟩ = (.ok nodes, after) ↔
      ∃ node middle more, intoNode grammar token ⟨⟨rest⟩, store⟩ = (.ok node, middle) ∧
        middle.parseUntil grammar stop = (.ok more, after) ∧ nodes = node.toList ++ more := by
  rw [parseUntil_of_tokens_eq_cons grammar stop _ token rest rfl, if_neg hstop]
  rcases intoNode grammar token ⟨⟨rest⟩, store⟩ with ⟨failure | node, middle⟩
  · constructor
    · intro habsurd
      cases habsurd
    · rintro ⟨node, middle, more, habsurd, -⟩
      cases habsurd
  · constructor
    · intro hparse
      simp only at hparse
      rcases hmore : middle.parseUntil grammar stop with ⟨failure | more, left⟩
      · rw [hmore] at hparse
        cases hparse
      · rw [hmore] at hparse
        cases hparse
        exact ⟨node, middle, more, rfl, hmore, rfl⟩
    · rintro ⟨found, left, more, heq, hmore, rfl⟩
      cases heq
      simp only [hmore]

/-- A placeholder becomes the node of its trimmed source, compiled. -/
theorem intoNode_placeholder (grammar : Grammar) (source : String) (parser : Parser) :
    intoNode grammar (.placeholder source) parser =
      (((parser.compile grammar.compiler (Text.trim source)).1.map fun compiled ↦
        some (.placeholder compiled)),
        (parser.compile grammar.compiler (Text.trim source)).2) := rfl

/-- A placeholder becomes a node exactly if its trimmed source is compiled. -/
theorem intoNode_placeholder_eq_ok_iff {source : String} {result : Option Node} :
    intoNode grammar (.placeholder source) parser = (.ok result, after) ↔
      ∃ compiled, grammar.compiler.compile (Text.trim source) parser.store =
          (.ok compiled, after.store) ∧
        after.stream = parser.stream ∧ result = some (.placeholder compiled) := by
  rw [intoNode_placeholder]
  constructor
  · intro hresult
    rcases hcompile : parser.compile grammar.compiler (Text.trim source) with
      ⟨failure | compiled, middle⟩
    · rw [hcompile] at hresult
      cases hresult
    · rw [hcompile] at hresult
      cases hresult
      obtain ⟨hsome, hstream⟩ := compile_eq_ok_iff.1 hcompile
      exact ⟨compiled, hsome, hstream, rfl⟩
  · rintro ⟨found, hsome, hstream, rfl⟩
    rw [compile_eq_ok_iff.2 ⟨hsome, hstream⟩]
    rfl

end Parser

/-- The grammar of the blocks and markers that are registered. -/
def Grammar.ofRegistrations (compiler : Compiler) (registrations : List Registration) : Grammar :=
  ⟨compiler, .ofRegistrations registrations⟩

/-- A tag that has a handler becomes what that makes of it. -/
theorem Grammar.intoNode_tag {grammar : Grammar} {token : TagToken} {handler : TagHandler}
    (hhandler : grammar.tags.find? token.name = some handler) (parser : Parser) :
    Parser.intoNode grammar (.tag token) parser =
      (handler token).run grammar.compiler (Parser.parseUntil grammar) parser := by
  simp only [Parser.intoNode, Grammar.nodeOf, hhandler]

section Registrations

variable {compiler : Compiler} {registrations : List Registration} {token : TagToken}

theorem Grammar.find?_ofRegistrations {kind : Option TagKind}
    (hkind : kind? registrations token.name = kind) :
    (Grammar.ofRegistrations compiler registrations).tags.find? token.name =
      kind.map TagKind.handler := by
  rw [← hkind]
  exact Tags.find?_ofRegistrations registrations token.name

theorem Grammar.intoNode_unknown (hkind : kind? registrations token.name = none)
    (parser : Parser) :
    Parser.intoNode (.ofRegistrations compiler registrations) (.tag token) parser =
      (.error (.unknownTag token.name), parser) := by
  simp only [Parser.intoNode, Grammar.nodeOf, find?_ofRegistrations hkind, Option.map_none]

theorem Grammar.intoNode_marker (hkind : kind? registrations token.name = some .marker)
    (parser : Parser) :
    Parser.intoNode (.ofRegistrations compiler registrations) (.tag token) parser =
      (.ok none, parser) :=
  intoNode_tag (find?_ofRegistrations hkind) parser

theorem Grammar.intoNode_block {closing : String}
    (hkind : kind? registrations token.name = some (.block closing)) (parser : Parser) :
    Parser.intoNode (.ofRegistrations compiler registrations) (.tag token) parser =
      (TagHandler.block closing token).run compiler
        (Parser.parseUntil (.ofRegistrations compiler registrations)) parser :=
  intoNode_tag (find?_ofRegistrations hkind) parser

end Registrations

/-! ### Reading documents -/

namespace Document

/-- The document stands at the front of the parser, builds the nodes, and is followed by what is
left for the parser after it. -/
structure Leads (registrations : List Registration) (compiler : Compiler) (ending : Option String)
    (document : Document) (parser : Parser) (nodes : List Node) (after : Parser) : Prop where
  admissible : document.Admissible registrations compiler.options ending
  tokens_eq : parser.stream.tokens = document.tokens ++ after.stream.tokens
  builds : document.Builds compiler parser.store nodes after.store
  halts : Halts ending after.stream.tokens

variable {registrations : List Registration} {compiler : Compiler}

section Leads

variable {ending : Option String} {document : Document} {rest : List Token} {store : Store}
  {nodes : List Node} {parser after : Parser}

/-- Where reading halts, the empty document has been read. -/
theorem Leads.nil (hhalts : Halts ending parser.stream.tokens) :
    Leads registrations compiler ending .nil parser [] parser :=
  ⟨trivial, rfl, .nil, hhalts⟩

theorem Leads.text
    (hleads : Leads registrations compiler ending document ⟨⟨rest⟩, store⟩ nodes after)
    (value : String) :
    Leads registrations compiler ending (.text value document) ⟨⟨.text value :: rest⟩, store⟩
      (.text value :: nodes) after :=
  ⟨hleads.admissible, congrArg (List.cons _) hleads.tokens_eq, .text hleads.builds, hleads.halts⟩

theorem Leads.comment
    (hleads : Leads registrations compiler ending document ⟨⟨rest⟩, store⟩ nodes after)
    (value : String) :
    Leads registrations compiler ending (.comment value document)
      ⟨⟨.comment value :: rest⟩, store⟩ nodes after :=
  ⟨hleads.admissible, congrArg (List.cons _) hleads.tokens_eq, .comment hleads.builds,
    hleads.halts⟩

theorem Leads.placeholder {source : String} {compiled : Compiled} {middle : Store}
    (hleads : Leads registrations compiler ending document ⟨⟨rest⟩, middle⟩ nodes after)
    (hfaithful : store.Faithful compiler.cache)
    (hcompile : compiler.compile (Text.trim source) store = (.ok compiled, middle)) :
    Leads registrations compiler ending (.placeholder source document)
      ⟨⟨.placeholder source :: rest⟩, store⟩ (.placeholder compiled :: nodes) after :=
  ⟨⟨Compiler.exists_scan_of_compile_eq hfaithful hcompile, hleads.admissible⟩,
    congrArg (List.cons _) hleads.tokens_eq, .placeholder hcompile hleads.builds, hleads.halts⟩

theorem Leads.marker {token : TagToken}
    (hleads : Leads registrations compiler ending document ⟨⟨rest⟩, store⟩ nodes after)
    (hending : ending ≠ some token.name) (hkind : kind? registrations token.name = some .marker) :
    Leads registrations compiler ending (.marker token document) ⟨⟨.tag token :: rest⟩, store⟩
      nodes after :=
  ⟨⟨hending, hkind, hleads.admissible⟩, congrArg (List.cons _) hleads.tokens_eq,
    .marker hleads.builds, hleads.halts⟩

/-- A block whose body leads to its closing tag, before what leads on. -/
theorem Leads.block {opening closing : TagToken} {body : Document} {arguments : List Compiled}
    {children : List Node} {middle inner : Store} {left : List Token}
    (hbody : Leads registrations compiler (some closing.name) body ⟨⟨rest⟩, middle⟩ children
      ⟨⟨.tag closing :: left⟩, inner⟩)
    (hleads : Leads registrations compiler ending document ⟨⟨left⟩, inner⟩ nodes after)
    (hfaithful : store.Faithful compiler.cache)
    (harguments : compiler.CompilesAll opening.arguments store arguments middle)
    (hending : ending ≠ some opening.name)
    (hkind : kind? registrations opening.name = some (.block closing.name)) :
    Leads registrations compiler ending (.block opening body closing document)
      ⟨⟨.tag opening :: rest⟩, store⟩ (.tag opening.name arguments children :: nodes) after := by
  refine ⟨⟨hending, hkind, harguments.exists_scan hfaithful, hbody.admissible, hleads.admissible⟩,
    ?_, .block harguments hbody.builds hleads.builds, hleads.halts⟩
  have hrest : rest = body.tokens ++ .tag closing :: left := hbody.tokens_eq
  have hleft : left = document.tokens ++ after.stream.tokens := hleads.tokens_eq
  show Token.tag opening :: rest = _
  rw [hrest, hleft]
  simp [tokens]

end Leads

/-- An admissible document is read to its end, and gives the nodes that it builds. -/
theorem parseUntil_tokens {document : Document} {ending : Option String} {store left : Store}
    {nodes : List Node} {rest : List Token}
    (hadmissible : document.Admissible registrations compiler.options ending)
    (hbuilds : document.Builds compiler store nodes left) (hhalts : Halts ending rest) :
    Parser.parseUntil (.ofRegistrations compiler registrations) (Token.isTag ending.toList)
      ⟨⟨document.tokens ++ rest⟩, store⟩ = (.ok nodes, ⟨⟨rest⟩, left⟩) := by
  induction document generalizing ending store nodes rest left with
  | nil =>
    cases hbuilds
    cases rest with
    | nil => exact Parser.parseUntil_of_tokens_eq_nil _ _ _ rfl
    | cons token others =>
      rw [Parser.parseUntil_of_tokens_eq_cons _ _ _ token others rfl, if_pos hhalts.isTag]
      rfl
  | text value more ih =>
    cases hbuilds with
    | text hbuilds =>
      refine (Parser.parseUntil_eq_ok_iff (hadmissible.not_isTag_of_tokens_eq rfl)).2 ?_
      exact ⟨some (.text value), _, _, rfl, ih hadmissible hbuilds hhalts, rfl⟩
  | comment value more ih =>
    cases hbuilds with
    | comment hbuilds =>
      refine (Parser.parseUntil_eq_ok_iff (hadmissible.not_isTag_of_tokens_eq rfl)).2 ?_
      exact ⟨none, _, _, rfl, ih hadmissible hbuilds hhalts, rfl⟩
  | placeholder source more ih =>
    cases hbuilds with
    | @placeholder _ _ _ middle _ compiled _ hcompile hbuilds =>
      refine (Parser.parseUntil_eq_ok_iff (hadmissible.not_isTag_of_tokens_eq rfl)).2 ?_
      refine ⟨some (.placeholder compiled), ⟨⟨more.tokens ++ rest⟩, middle⟩, _, ?_,
        ih hadmissible.2 hbuilds hhalts, rfl⟩
      exact Parser.intoNode_placeholder_eq_ok_iff.2 ⟨compiled, hcompile, rfl, rfl⟩
  | marker token more ih =>
    cases hbuilds with
    | marker hbuilds =>
      refine (Parser.parseUntil_eq_ok_iff (hadmissible.not_isTag_of_tokens_eq rfl)).2 ?_
      exact ⟨none, _, _, Grammar.intoNode_marker hadmissible.2.1 _,
        ih hadmissible.2.2 hbuilds hhalts, rfl⟩
  | block opening body closing more hbody hmore =>
    cases hbuilds with
    | @block _ _ _ _ _ middle inner _ arguments children others harguments hchildren hothers =>
      have hstop := hadmissible.not_isTag_of_tokens_eq rfl
      obtain ⟨-, hkind, -, hinside, hbehind⟩ := hadmissible
      have hclosing := hbody hinside hchildren (halts_tag closing (more.tokens ++ rest))
      rw [tokens, List.cons_append, List.append_assoc, List.cons_append]
      refine (Parser.parseUntil_eq_ok_iff hstop).2 ?_
      refine ⟨some (.tag opening.name arguments children), ⟨⟨more.tokens ++ rest⟩, inner⟩, others,
        ?_, hmore hbehind hothers hhalts, rfl⟩
      rw [Grammar.intoNode_block hkind]
      refine TagHandler.run_block_eq_ok_iff.2 ?_
      exact ⟨arguments, middle, children, _, .tag closing, more.tokens ++ rest, harguments,
        hclosing, rfl, rfl, rfl⟩

/-- What is read up to a tag, or up to the end, is an admissible document. The induction is on the
number of tokens; the body of a block and what follows it are read from fewer. -/
theorem exists_leads_of_parseUntil {bound : Nat} {ending : Option String} {parser after : Parser}
    {nodes : List Node}
    (hparse : parser.parseUntil (.ofRegistrations compiler registrations)
      (Token.isTag ending.toList) = (.ok nodes, after))
    (hbound : parser.stream.tokens.length ≤ bound)
    (hfaithful : parser.store.Faithful compiler.cache) :
    ∃ document, Leads registrations compiler ending document parser nodes after := by
  induction bound generalizing ending parser after nodes with
  | zero =>
    have hnil := List.eq_nil_of_length_eq_zero (Nat.le_zero.1 hbound)
    rw [Parser.parseUntil_of_tokens_eq_nil _ _ _ hnil] at hparse
    cases hparse
    exact ⟨.nil, .nil (hnil ▸ halts_nil ending)⟩
  | succ bound ih =>
    obtain ⟨⟨tokens⟩, store⟩ := parser
    cases tokens with
    | nil =>
      rw [Parser.parseUntil_of_tokens_eq_nil _ _ _ rfl] at hparse
      cases hparse
      exact ⟨.nil, .nil (halts_nil ending)⟩
    | cons token rest =>
      by_cases hstop : token.isTag ending.toList = true
      · rw [Parser.parseUntil_of_tokens_eq_cons _ _ _ token rest rfl, if_pos hstop] at hparse
        cases hparse
        refine ⟨.nil, .nil ?_⟩
        rintro other ⟨⟩
        exact hstop
      have hrest : rest.length ≤ bound := Nat.le_of_succ_le_succ hbound
      obtain ⟨node, middle, more, hnode, hmore, rfl⟩ :=
        (Parser.parseUntil_eq_ok_iff hstop).1 hparse
      cases token with
      | text value =>
        cases hnode
        obtain ⟨document, hleads⟩ := ih hmore hrest hfaithful
        exact ⟨_, hleads.text value⟩
      | comment value =>
        cases hnode
        obtain ⟨document, hleads⟩ := ih hmore hrest hfaithful
        exact ⟨_, hleads.comment value⟩
      | placeholder source =>
        obtain ⟨compiled, hcompile, hstream, rfl⟩ := Parser.intoNode_placeholder_eq_ok_iff.1 hnode
        obtain ⟨stream, left⟩ := middle
        obtain rfl : stream = ⟨rest⟩ := hstream
        obtain ⟨document, hleads⟩ :=
          ih hmore hrest (compiler.faithful_of_compile_eq hfaithful hcompile)
        exact ⟨_, hleads.placeholder hfaithful hcompile⟩
      | tag token =>
        have hending : ending ≠ some token.name :=
          fun hname ↦ hstop ((isTag_tag_iff ending token).2 hname)
        rcases hkind : kind? registrations token.name with _ | closing | _
        · rw [Grammar.intoNode_unknown hkind] at hnode
          cases hnode
        · rw [Grammar.intoNode_block hkind] at hnode
          obtain ⟨arguments, inner, children, ⟨⟨behind⟩, left⟩, last, others, harguments, hbody,
            hlast, rfl, rfl⟩ := TagHandler.run_block_eq_ok_iff.1 hnode
          obtain rfl : behind = last :: others := hlast
          have hchildren : Parser.parseUntil (.ofRegistrations compiler registrations)
              (Token.isTag (some closing).toList) ⟨⟨rest⟩, inner⟩ =
                (.ok children, ⟨⟨last :: others⟩, left⟩) := hbody
          have hinner := harguments.faithful hfaithful
          obtain ⟨body, hinside⟩ := ih hchildren hrest hinner
          -- The token that is taken blindly is the closing tag, as the body halts at nothing else.
          obtain ⟨closingToken, rfl, rfl⟩ := exists_tag_of_halts hinside.halts
          have hothers : others.length ≤ bound := by
            have htokens : rest = body.tokens ++ .tag closingToken :: others := hinside.tokens_eq
            have hlength := congrArg List.length htokens
            rw [List.length_append, List.length_cons] at hlength
            omega
          obtain ⟨document, hleads⟩ := ih hmore hothers (hinside.builds.faithful hinner)
          exact ⟨_, hinside.block hleads hfaithful harguments hending hkind⟩
        · rw [Grammar.intoNode_marker hkind] at hnode
          cases hnode
          obtain ⟨document, hleads⟩ := ih hmore hrest hfaithful
          exact ⟨_, hleads.marker hending hkind⟩

end Document

/-! ### Token streams -/

theorem isTag_toList_none : Token.isTag (none : Option String).toList = fun _ ↦ false := by
  funext token
  cases token <;> rfl

namespace Grammar

variable {compiler : Compiler} {registrations : List Registration} {store : Store}

/-- Parsing is reading nodes up to the end. -/
theorem parse_eq_parseUntil (grammar : Grammar) (parser : Parser) :
    parser.parse grammar =
      parser.parseUntil grammar (Token.isTag (none : Option String).toList) := by
  rw [isTag_toList_none, Parser.parse]

/-- With a faithful cache, whatever is parsed is the tokens of an admissible document, and its nodes
are built. -/
theorem exists_document_of_parse {tokens : List Token} {nodes : List Node} {after : Parser}
    (hfaithful : store.Faithful compiler.cache)
    (hparse : Parser.parse (.ofRegistrations compiler registrations) ⟨⟨tokens⟩, store⟩ =
      (.ok nodes, after)) :
    ∃ document : Document, document.Admissible registrations compiler.options none ∧
      document.tokens = tokens := by
  rw [parse_eq_parseUntil] at hparse
  obtain ⟨document, hdocument⟩ :=
    Document.exists_leads_of_parseUntil hparse (Nat.le_refl _) hfaithful
  have htokens : tokens = document.tokens ++ after.stream.tokens := hdocument.tokens_eq
  rw [hdocument.halts.eq_nil, List.append_nil] at htokens
  exact ⟨document, hdocument.admissible, htokens.symm⟩

/-- The tokens of an admissible document are parsed into the nodes that are built of it, and none is
left. -/
theorem parse_tokens {document : Document} {nodes : List Node} {left : Store}
    (hadmissible : document.Admissible registrations compiler.options none)
    (hbuilds : document.Builds compiler store nodes left) :
    Parser.parse (.ofRegistrations compiler registrations) ⟨⟨document.tokens⟩, store⟩ =
      (.ok nodes, ⟨⟨[]⟩, left⟩) := by
  have hparse := Document.parseUntil_tokens hadmissible hbuilds (halts_nil none)
  rwa [List.append_nil, ← parse_eq_parseUntil] at hparse

/-- With a registry of blocks and markers and a cache that entries enter through calls only, the
token streams that are parsed are the admissible documents laid out. Each of them is one document
only; parsing it gives the nodes that the document builds and leaves no token. -/
theorem parse_ofRegistrations (actions : List Action) (compiler : Compiler)
    (huntouched : compiler.cache ∉ (Session.run actions).offered)
    (registrations : List Registration) (tokens : List Token) :
    ((∃ nodes after, Parser.parse (.ofRegistrations compiler registrations)
        ⟨⟨tokens⟩, (Session.run actions).store⟩ = (.ok nodes, after)) ↔
      ∃ document : Document, document.Admissible registrations compiler.options none ∧
        document.tokens = tokens) ∧
    ∀ document : Document, document.Admissible registrations compiler.options none →
      document.tokens = tokens →
      (∃ nodes left, document.Builds compiler (Session.run actions).store nodes left ∧
        Parser.parse (.ofRegistrations compiler registrations)
          ⟨⟨tokens⟩, (Session.run actions).store⟩ = (.ok nodes, ⟨⟨[]⟩, left⟩)) ∧
      ∀ other : Document, other.Admissible registrations compiler.options none →
        other.tokens = tokens → other = document := by
  have hfaithful := (Session.sound_run actions).faithful huntouched
  have hresult (document : Document)
      (hadmissible : document.Admissible registrations compiler.options none) :
      ∃ nodes left, document.Builds compiler (Session.run actions).store nodes left ∧
        Parser.parse (.ofRegistrations compiler registrations)
          ⟨⟨document.tokens⟩, (Session.run actions).store⟩ = (.ok nodes, ⟨⟨[]⟩, left⟩) := by
    obtain ⟨nodes, left, hbuilds⟩ := hadmissible.exists_builds hfaithful
    exact ⟨nodes, left, hbuilds, parse_tokens hadmissible hbuilds⟩
  refine ⟨⟨?_, ?_⟩, ?_⟩
  · rintro ⟨nodes, after, hparse⟩
    exact exists_document_of_parse hfaithful hparse
  · rintro ⟨document, hadmissible, rfl⟩
    obtain ⟨nodes, left, -, hparse⟩ := hresult document hadmissible
    exact ⟨nodes, _, hparse⟩
  · rintro document hadmissible rfl
    constructor
    · exact hresult document hadmissible
    intro other hother htokens
    have happend : other.tokens ++ [] = document.tokens ++ [] := by rw [htokens]
    exact (Document.eq_of_tokens_append_eq hother hadmissible (halts_nil none) (halts_nil none)
      happend).1

/-- A block that is closed by a marker's name, with text inside. -/
theorem parse_ofRegistrations_block :
    (⟨0⟩ : CacheId) ∉ (Session.run [.newCompiler {} .builtin]).offered ∧
      ∃ nodes after, Parser.parse
        (.ofRegistrations ⟨{}, .builtin, ⟨0⟩⟩ [⟨"if", .block "end"⟩, ⟨"end", .marker⟩])
        ⟨⟨[.tag ⟨"if", ""⟩, .text "yes", .tag ⟨"end", ""⟩]⟩,
          (Session.run [.newCompiler {} .builtin]).store⟩ = (.ok nodes, after) := by
  have huntouched : (⟨0⟩ : CacheId) ∉ (Session.run [.newCompiler {} .builtin]).offered :=
    List.not_mem_nil
  have harguments : TagToken.arguments ⟨"if", ""⟩ = [] := by
    simp [TagToken.arguments, TagToken.readArguments_eq, Text.skipBlanks]
  have hadmissible : (Document.block ⟨"if", ""⟩ (.text "yes" .nil) ⟨"end", ""⟩ .nil).Admissible
      [⟨"if", .block "end"⟩, ⟨"end", .marker⟩] {} none := by
    refine ⟨by simp, rfl, ?_, trivial, trivial⟩
    rw [harguments]
    exact fun argument hargument ↦ (List.not_mem_nil hargument).elim
  refine ⟨huntouched, ?_⟩
  exact (parse_ofRegistrations _ ⟨{}, .builtin, ⟨0⟩⟩ huntouched _ _).1.2 ⟨_, hadmissible, rfl⟩

end Grammar

end Stencil

import Stencil.Proofs.Parser.Nesting
import Stencil.Proofs.Token.Splitting

/-!
What the arguments of a block are. Sources that have their blanks inside quoted texts only, as the
canonical text of every expression has, are told apart in the content of a tag as they were laid
out. A block tag with this content compiles just these sources, in this order, and each of them to
what it reads as, as long as entries enter the cache through calls only
(`Grammar.TakesArguments`, `Layout.arguments_scanned`).
-/

set_option autoImplicit false
set_option relaxedAutoImplicit false

namespace Stencil

/-- In a faithful cache, sources are compiled to what they read as. -/
theorem Compiler.CompilesAll.scanned {compiler : Compiler} {sources : List String}
    {store after : Store} {compiled : List Compiled}
    (hcompiles : compiler.CompilesAll sources store compiled after)
    (hfaithful : store.Faithful compiler.cache) :
    compiled.map Compiled.source = sources ∧ ∀ result ∈ compiled,
      Expression.scan compiler.options result.source = .ok result.expression := by
  induction hcompiles with
  | nil => simp
  | @cons source sources store middle after first others hcompile _ ih =>
    obtain ⟨expression, hscan⟩ := Compiler.exists_scan_of_compile_eq hfaithful hcompile
    obtain ⟨found, left, heq, hsource, hexpression⟩ := Compiler.exists_compile_eq hfaithful hscan
    rw [hcompile] at heq
    cases heq
    obtain ⟨hsources, hscans⟩ := ih (compiler.faithful_of_compile_eq hfaithful hcompile)
    refine ⟨by rw [List.map_cons, hsource, hsources], List.forall_mem_cons.2 ⟨?_, hscans⟩⟩
    rw [hsource, hscan, hexpression]

/-- A block tag that takes the sources as its arguments. They are compiled first to last, each to
what it reads as; and where its body is closed, that is, where the nodes behind the tag are read
without failure up to a token, the tag becomes a node with these arguments. -/
structure Grammar.TakesArguments (grammar : Grammar) (token : TagToken) (closing : String)
    (store : Store) (sources : List String) (arguments : List Compiled) (middle : Store) :
    Prop where
  compiles : grammar.compiler.CompilesAll sources store arguments middle
  sources_eq : arguments.map Compiled.source = sources
  scan_eq : ∀ argument ∈ arguments,
    Expression.scan grammar.compiler.options argument.source = .ok argument.expression
  intoNode_eq : ∀ tokens children last rest left,
    Parser.parseUntil grammar (Token.isTag [closing]) ⟨⟨tokens⟩, middle⟩ =
      (.ok children, ⟨⟨last :: rest⟩, left⟩) →
    Parser.intoNode grammar (.tag token) ⟨⟨tokens⟩, store⟩ =
      (.ok (some (.tag token.name arguments children)), ⟨⟨rest⟩, left⟩)

/-- A block whose arguments can be read takes their expressions, in order. -/
theorem Grammar.exists_takesArguments {grammar : Grammar} {token : TagToken} {closing : String}
    {store : Store} (htag : grammar.tags.find? token.name = some (.block closing))
    (hfaithful : store.Faithful grammar.compiler.cache)
    (harguments : ∀ source ∈ token.arguments,
      ∃ expression, Expression.scan grammar.compiler.options source = .ok expression) :
    ∃ arguments middle,
      grammar.TakesArguments token closing store token.arguments arguments middle := by
  obtain ⟨arguments, middle, hcompiles⟩ := Compiler.exists_compilesAll harguments hfaithful
  obtain ⟨hsources, hscans⟩ := hcompiles.scanned hfaithful
  refine ⟨arguments, middle, hcompiles, hsources, hscans, ?_⟩
  intro tokens children last rest left hbody
  rw [intoNode_tag htag]
  exact TagHandler.run_block_eq_ok_iff.2
    ⟨arguments, middle, children, _, last, rest, hcompiles, hbody, rfl, rfl, rfl⟩

/-- The arguments of a tag are the sources that its content was laid out from, and those of a block
are what the sources read as. The canonical texts of all expressions are sources of this kind. -/
theorem Layout.arguments_scanned (options : Options) :
    (∀ source tree, Expression.scan options source = .ok tree →
      Expression.Tight options tree.display) ∧
      ∀ layout : Layout, (∀ source ∈ layout.sources, Expression.Tight options source) →
        (∀ name, TagToken.arguments ⟨name, layout.content⟩ = layout.sources) ∧
          ∀ (actions : List Action) (compiler : Compiler), compiler.options = options →
            compiler.cache ∉ (Session.run actions).offered →
            ∀ (tags : Tags) (name closing : String), tags.find? name = some (.block closing) →
              ∃ arguments middle, Grammar.TakesArguments ⟨compiler, tags⟩ ⟨name, layout.content⟩
                closing (Session.run actions).store layout.sources arguments middle := by
  constructor
  · intro source tree hscan
    obtain ⟨derivation, -, rfl⟩ := Scan.exists_derivation (Expression.scan_eq_ok_iff.1 hscan)
    exact derivation.wellFormed_tree.tight_display
  intro layout htight
  have harguments (name : String) := layout.arguments_content htight name
  refine ⟨harguments, ?_⟩
  rintro actions compiler rfl huntouched tags name closing htag
  have hfaithful := (Session.sound_run actions).faithful huntouched
  have hreads : ∀ source ∈ TagToken.arguments ⟨name, layout.content⟩,
      ∃ expression, Expression.scan compiler.options source = .ok expression := by
    rw [harguments name]
    exact fun source hsource ↦ (htight source hsource).exists_scan
  have htakes : ∃ arguments middle, Grammar.TakesArguments ⟨compiler, tags⟩ ⟨name, layout.content⟩
      closing (Session.run actions).store (TagToken.arguments ⟨name, layout.content⟩) arguments
      middle := Grammar.exists_takesArguments htag hfaithful hreads
  rwa [harguments name] at htakes

/-- Two quoted texts with a blank and a bar inside them, and a line break behind them. -/
theorem Layout.arguments_scanned_quoted :
    (∀ source ∈ ["'a b'", "'c|d'"], Expression.Tight {} source) ∧
      ∃ arguments after, Parser.intoNode
          (.ofRegistrations ⟨{}, .builtin, ⟨0⟩⟩ [⟨"if", .block "end"⟩])
          (.tag ⟨"if", "'a b' 'c|d'\n"⟩)
          ⟨⟨[.text "yes", .tag ⟨"end", ""⟩]⟩, (Session.run [.newCompiler {} .builtin]).store⟩ =
            (.ok (some (.tag "if" arguments [.text "yes"])), ⟨⟨[]⟩, after⟩) ∧
        arguments.map Compiled.source = ["'a b'", "'c|d'"] := by
  have htight (value : String) : Expression.Tight {} (⟨.text value, []⟩ : Expression).display :=
    Expression.WellFormed.tight_display ⟨trivial, by simp⟩
  have hfirst : (⟨.text "a b", []⟩ : Expression).display = "'a b'" := by decide +kernel
  have hsecond : (⟨.text "c|d", []⟩ : Expression).display = "'c|d'" := by decide +kernel
  have hsources : ∀ source ∈ ["'a b'", "'c|d'"], Expression.Tight {} source :=
    List.forall_mem_cons.2 ⟨hfirst ▸ htight _, List.forall_mem_singleton.2 (hsecond ▸ htight _)⟩
  have huntouched : (⟨0⟩ : CacheId) ∉ (Session.run [.newCompiler {} .builtin]).offered :=
    List.not_mem_nil
  have htag : (Tags.ofRegistrations [⟨"if", .block "end"⟩]).find? "if" = some (.block "end") := by
    rw [Tags.find?_ofRegistrations]
    rfl
  obtain ⟨arguments, middle, htakes⟩ := ((arguments_scanned {}).2
    ⟨[(⟨[], by simp⟩, "'a b'"), (⟨[' '], List.forall_mem_singleton.2 rfl⟩, "'c|d'")],
      ⟨['\n'], List.forall_mem_singleton.2 rfl⟩, by simp⟩
    hsources).2 [.newCompiler {} .builtin] ⟨{}, .builtin, ⟨0⟩⟩ rfl huntouched _ "if" "end" htag
  have hbody : Parser.parseUntil (.ofRegistrations ⟨{}, .builtin, ⟨0⟩⟩ [⟨"if", .block "end"⟩])
      (Token.isTag ["end"]) ⟨⟨[.text "yes", .tag ⟨"end", ""⟩]⟩, middle⟩ =
        (.ok [.text "yes"], ⟨⟨[.tag ⟨"end", ""⟩]⟩, middle⟩) := by
    have hdocument : (Document.text "yes" .nil).Admissible [⟨"if", .block "end"⟩] {} (some "end") :=
      trivial
    exact Document.parseUntil_tokens hdocument (.text .nil) (halts_tag ⟨"end", ""⟩ [])
  exact ⟨hsources, arguments, middle, htakes.intoNode_eq _ _ _ _ _ hbody, htakes.sources_eq⟩

end Stencil

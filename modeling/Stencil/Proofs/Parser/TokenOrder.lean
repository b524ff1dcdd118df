import Stencil.Proofs.Compiler.Instances
import Stencil.Proofs.Parser.BlockArguments

/-!
The expressions of a template in the order of its tokens. A placeholder has one source, the text
without the blanks around it, a block tag has its arguments, and other tokens have none
(`Token.sources`). Where no tag that closes a block is registered itself, the sources of a document
are those of its tokens, first to last (`Document.flatMap_sources_tokens`), and the nodes that a
document builds have the expressions that these sources are compiled to
(`Document.Builds.compilesAll`).

Compiling sources with caching on gives one instance for each source that occurs, and with caching
off a new instance for each occurrence (`Compiler.CompilesAll.serial_eq_iff`,
`Compiler.CompilesAll.nodup_serials`). Together this says which expressions a parsed template has
(`Grammar.expressionsOf_parse`).
-/

set_option autoImplicit false
set_option relaxedAutoImplicit false

namespace Stencil

/-! ### Compiling sources -/

namespace Compiler.CompilesAll

variable {compiler : Compiler} {sources others : List String} {store middle after : Store}
  {compiled more : List Compiled}

theorem append (hfirst : compiler.CompilesAll sources store compiled middle)
    (hsecond : compiler.CompilesAll others middle more after) :
    compiler.CompilesAll (sources ++ others) store (compiled ++ more) after := by
  induction hfirst with
  | nil => exact hsecond
  | cons hcompile _ ih => exact .cons hcompile (ih hsecond)

theorem kept?_of_some (hcompiles : compiler.CompilesAll sources store compiled after) {slot : Slot}
    {kept : Compiled} (hkept : store.kept? slot = some kept) : after.kept? slot = some kept := by
  induction hcompiles with
  | nil => exact hkept
  | @cons source _ store middle _ _ _ hcompile _ ih =>
    have hmiddle := compiler.kept?_compile_of_some source hkept
    rw [hcompile] at hmiddle
    exact ih hmiddle

theorem separate (hcompiles : compiler.CompilesAll sources store compiled after) {id : CacheId}
    (hseparate : store.Separate id) : after.Separate id := by
  induction hcompiles with
  | nil => exact hseparate
  | @cons source _ store _ _ _ _ hcompile _ ih =>
    have hmiddle := hseparate.compile compiler source
    rw [hcompile] at hmiddle
    exact ih hmiddle

/-- With caching on, every instance that was given is in the slot of its source afterwards. -/
theorem kept?_of_mem (hcompiles : compiler.CompilesAll sources store compiled after)
    (hcaching : compiler.options.caching = true)
    (hcache : compiler.cache.index < store.caches.size)
    (hfaithful : store.Faithful compiler.cache) :
    ∀ result ∈ compiled, after.kept? (compiler.slot result.source) = some result := by
  induction hcompiles with
  | nil => simp
  | @cons source sources store middle after first others hcompile hothers ih =>
    have hfilled := kept?_of_compile_eq hcaching hcache hcompile
    have hmiddle := compiler.faithful_of_compile_eq hfaithful hcompile
    have hsource : first.source = source := (hmiddle _ first rfl hfilled).source_eq
    have hsize := compiler.size_caches_compile source store
    rw [hcompile] at hsize
    refine List.forall_mem_cons.2 ⟨?_, ih (hsize ▸ hcache) hmiddle⟩
    rw [hsource]
    exact hothers.kept?_of_some hfilled

/-- With caching on, two of the instances are the same exactly where their sources are. -/
theorem serial_eq_iff (hcompiles : compiler.CompilesAll sources store compiled after)
    (hcaching : compiler.options.caching = true)
    (hcache : compiler.cache.index < store.caches.size)
    (hfaithful : store.Faithful compiler.cache) (hseparate : store.Separate compiler.cache) :
    ∀ first ∈ compiled, ∀ second ∈ compiled,
      first.serial = second.serial ↔ first.source = second.source := by
  have hkept := hcompiles.kept?_of_mem hcaching hcache hfaithful
  intro first hfirst second hsecond
  constructor
  · intro hserial
    have hslot := (hcompiles.separate hseparate).slot_eq _ _ first second rfl rfl
      (hkept first hfirst) (hkept second hsecond) hserial
    exact congrArg Slot.source hslot
  · intro hsource
    have hsame := hkept first hfirst
    rw [hsource, hkept second hsecond] at hsame
    rw [Option.some.inj hsame]

/-- With caching off, the instances are numbered one after the other. -/
theorem map_serial_eq (hcompiles : compiler.CompilesAll sources store compiled after)
    (hcaching : compiler.options.caching = false) :
    compiled.map Compiled.serial = List.range' store.nextSerial sources.length := by
  induction hcompiles with
  | nil => rfl
  | @cons source sources store middle after first others hcompile _ ih =>
    have hmiss : compiler.Misses source store := by
      intro habsurd
      rw [hcaching] at habsurd
      cases habsurd
    obtain ⟨hserial, hnext⟩ := serial_of_misses hmiss (by rw [hcompile])
    rw [hcompile] at hnext
    have hnext : middle.nextSerial = store.nextSerial + 1 := hnext
    rw [List.map_cons, ih, hserial, hnext, List.length_cons, List.range'_succ]

/-- With caching off, every source has an instance of its own. -/
theorem nodup_serials (hcompiles : compiler.CompilesAll sources store compiled after)
    (hcaching : compiler.options.caching = false) : (compiled.map Compiled.serial).Nodup := by
  rw [hcompiles.map_serial_eq hcaching]
  exact List.nodup_range'

end Compiler.CompilesAll

/-! ### Sources in order -/

/-- The sources of the expressions that a token stands for: those of a placeholder and of the
opening tag of a block. -/
def Token.sources (registrations : List Registration) : Token → List String
  | .text _ => []
  | .comment _ => []
  | .placeholder source => [Text.trim source]
  | .tag token =>
    match kind? registrations token.name with
    | some (.block _) => token.arguments
    | _ => []

namespace Document

/-- The sources of the expressions of a document: those of a block are its arguments and then those
inside it. -/
def sources : Document → List String
  | nil => []
  | text _ rest => rest.sources
  | comment _ rest => rest.sources
  | placeholder source rest => Text.trim source :: rest.sources
  | marker _ rest => rest.sources
  | block opening body _ rest => opening.arguments ++ (body.sources ++ rest.sources)

/-- The nodes that a document builds have the expressions that its sources are compiled to. -/
theorem Builds.compilesAll {compiler : Compiler} {document : Document} {store after : Store}
    {nodes : List Node} (hbuilds : document.Builds compiler store nodes after) :
    compiler.CompilesAll document.sources store (Node.expressionsOf nodes) after := by
  induction hbuilds with
  | nil => exact .nil
  | text _ ih => exact ih
  | comment _ ih => exact ih
  | placeholder hcompile _ ih => exact .cons hcompile ih
  | marker _ ih => exact ih
  | block harguments _ _ hbody hrest =>
    rw [Node.expressionsOf, Node.expressions, List.append_assoc]
    exact harguments.append (hbody.append hrest)

/-- Where no closing tag is registered itself, the sources of a document are those of its tokens. -/
theorem flatMap_sources_tokens {registrations : List Registration} {options : Options}
    (hclosings : ∀ name closing, kind? registrations name = some (.block closing) →
      kind? registrations closing = none)
    {document : Document} {ending : Option String}
    (hadmissible : document.Admissible registrations options ending) :
    document.tokens.flatMap (Token.sources registrations) = document.sources := by
  induction document generalizing ending with
  | nil => rfl
  | text value rest ih => exact ih hadmissible
  | comment value rest ih => exact ih hadmissible
  | placeholder source rest ih =>
    rw [tokens, List.flatMap_cons, ih hadmissible.2]
    rfl
  | marker token rest ih =>
    obtain ⟨-, hkind, hrest⟩ := hadmissible
    rw [tokens, List.flatMap_cons, ih hrest, Token.sources, hkind]
    rfl
  | block opening body closing rest hbody hrest =>
    obtain ⟨-, hkind, -, hinside, hbehind⟩ := hadmissible
    have hclosing := hclosings _ _ hkind
    rw [tokens, List.flatMap_cons, List.flatMap_append, List.flatMap_cons, hbody hinside,
      hrest hbehind]
    simp only [Token.sources, hkind, hclosing, List.nil_append]
    rfl

end Document

/-- The expressions of a template that is parsed with a registry of blocks and markers, none of
which is named like a closing tag, and with a compiler whose cache entries enter through calls only.
They are listed in the order of the tokens, each with its source. With caching on, two of them are
the same instance where they have the same source and only there, and with caching off each is an
instance of its own. -/
theorem Grammar.expressionsOf_parse (actions : List Action) {compiler : Compiler}
    (hcompiler : compiler ∈ (Session.run actions).compilers)
    (huntouched : compiler.cache ∉ (Session.run actions).offered)
    (registrations : List Registration)
    (hclosings : ∀ name closing, kind? registrations name = some (.block closing) →
      kind? registrations closing = none)
    (tokens : List Token) {nodes : List Node} {after : Parser}
    (hparse : Parser.parse (.ofRegistrations compiler registrations)
      ⟨⟨tokens⟩, (Session.run actions).store⟩ = (.ok nodes, after)) :
    (Node.expressionsOf nodes).map Compiled.source =
        tokens.flatMap (Token.sources registrations) ∧
      (compiler.options.caching = true → ∀ first ∈ Node.expressionsOf nodes,
        ∀ second ∈ Node.expressionsOf nodes,
          first.serial = second.serial ↔ first.source = second.source) ∧
      (compiler.options.caching = false →
        ((Node.expressionsOf nodes).map Compiled.serial).Nodup) := by
  have hsound := Session.sound_run actions
  have hfaithful := hsound.faithful huntouched
  rw [parse_eq_parseUntil] at hparse
  obtain ⟨document, hleads⟩ :=
    Document.exists_leads_of_parseUntil hparse (Nat.le_refl _) hfaithful
  have htokens : tokens = document.tokens ++ after.stream.tokens := hleads.tokens_eq
  rw [hleads.halts.eq_nil, List.append_nil] at htokens
  have hcompiles := hleads.builds.compilesAll
  refine ⟨?_, fun hcaching ↦ ?_, fun hcaching ↦ hcompiles.nodup_serials hcaching⟩
  · rw [(hcompiles.scanned hfaithful).1, htokens]
    exact (Document.flatMap_sources_tokens hclosings hleads.admissible).symm
  · exact hcompiles.serial_eq_iff hcaching (hsound.compilers_lt compiler hcompiler) hfaithful
      (Session.separate_run huntouched)

/-- A placeholder before a block, and one with the same source but for the blanks inside it. -/
theorem Grammar.expressionsOf_parse_shared :
    ∃ nodes after, Parser.parse (.ofRegistrations ⟨{}, .builtin, ⟨0⟩⟩ [⟨"if", .block "end"⟩])
        ⟨⟨[.placeholder " name ", .tag ⟨"if", ""⟩, .placeholder "name", .tag ⟨"end", ""⟩]⟩,
          (Session.run [.newCompiler {} .builtin]).store⟩ = (.ok nodes, after) ∧
      (Node.expressionsOf nodes).map Compiled.source = ["name", "name"] ∧
      ∀ first ∈ Node.expressionsOf nodes, ∀ second ∈ Node.expressionsOf nodes,
        first.serial = second.serial ↔ first.source = second.source := by
  have hcompiler : (⟨{}, .builtin, ⟨0⟩⟩ : Compiler) ∈
      (Session.run [.newCompiler {} .builtin]).compilers := List.mem_singleton.2 rfl
  have huntouched : (⟨0⟩ : CacheId) ∉ (Session.run [.newCompiler {} .builtin]).offered :=
    List.not_mem_nil
  have hclosings : ∀ name closing, kind? [⟨"if", .block "end"⟩] name = some (.block closing) →
      kind? [⟨"if", .block "end"⟩] closing = none := by
    intro name closing hkind
    by_cases hname : "if" = name
    · subst hname
      cases hkind
      rfl
    · simp [kind?, hname] at hkind
  have harguments : TagToken.arguments ⟨"if", ""⟩ = [] := by
    simp [TagToken.arguments, TagToken.readArguments_eq, Text.skipBlanks]
  have hreads : ∀ source ∈ [" name ", "name"],
      Expression.scan {} (Text.trim source) = .ok ⟨.lookup ["name"], []⟩ := by decide +kernel
  have hadmissible : (Document.placeholder " name " (.block ⟨"if", ""⟩ (.placeholder "name" .nil)
      ⟨"end", ""⟩ .nil)).Admissible [⟨"if", .block "end"⟩] {} none := by
    refine ⟨⟨_, hreads _ (by simp)⟩, by simp, rfl, ?_, ⟨⟨_, hreads _ (by simp)⟩, trivial⟩, trivial⟩
    rw [harguments]
    exact fun argument hargument ↦ (List.not_mem_nil hargument).elim
  have hfaithful := (Session.sound_run _).faithful huntouched
  obtain ⟨nodes, left, hbuilds⟩ :
      ∃ nodes left, Document.Builds ⟨{}, .builtin, ⟨0⟩⟩ _ _ nodes left :=
    hadmissible.exists_builds hfaithful
  have hparse := parse_tokens hadmissible hbuilds
  obtain ⟨hsources, hshared, -⟩ :=
    expressionsOf_parse _ hcompiler huntouched _ hclosings _ hparse
  refine ⟨nodes, _, hparse, hsources.trans ?_, hshared rfl⟩
  have hopening : Token.sources [⟨"if", .block "end"⟩] (.tag ⟨"if", ""⟩) = [] := harguments
  have hclosing : Token.sources [⟨"if", .block "end"⟩] (.tag ⟨"end", ""⟩) = [] := rfl
  simp only [Document.tokens, List.nil_append, List.cons_append, List.flatMap_cons,
    List.flatMap_nil, hopening, hclosing]
  decide +kernel

end Stencil

import Stencil.Parser.Basic
import Stencil.Proofs.Compiler.Slot

/-!
Documents, the nested form of token streams. A document is a list of items: text, comments,
placeholders, markers, and blocks, each with an opening tag, a document inside and a closing tag.
`Document.tokens` lays it out from left to right. A document is admissible for a registry where its
tags are used as they are registered, its expressions can be read, and no item of a block begins
with a tag that would close the block (`Document.Admissible`). What it stands for are the nodes that
it builds while its expressions are compiled in the order of the document (`Document.Builds`).

An admissible document builds nodes in every store whose cache is faithful
(`Document.Admissible.exists_builds`), and is told by its tokens alone, also where further tokens
follow (`Document.eq_of_tokens_append_eq`).
-/

set_option autoImplicit false
set_option relaxedAutoImplicit false

namespace Stencil

/-! ### Registries of blocks and markers -/

/-- What a tag is registered as. -/
inductive TagKind where
  | block (closing : String)
  | marker

/-- What a tag of the kind does. -/
def TagKind.handler : TagKind → TagHandler
  | block closing => .block closing
  | marker => .marker

/-- A tag by its name, and what kind of tag it is. -/
structure Registration where
  name : String
  kind : TagKind

/-- The registry with one more block or marker, or with one replaced. -/
def Tags.add (tags : Tags) (registration : Registration) : Tags :=
  match registration.kind with
  | .block closing => tags.registerBlock registration.name closing
  | .marker => tags.registerMarker registration.name

/-- The registry that the registrations make, first to last. -/
def Tags.ofRegistrations (registrations : List Registration) : Tags :=
  registrations.foldl Tags.add {}

/-- What the name is registered as, which the last registration of the name says. -/
def kind? (registrations : List Registration) (name : String) : Option TagKind :=
  (registrations.reverse.find? fun registration ↦ registration.name == name).map Registration.kind

/-- Of two registrations of one name the later counts. -/
theorem kind?_cons (registration : Registration) (registrations : List Registration)
    (name : String) :
    kind? (registration :: registrations) name =
      (kind? registrations name).or
        (if registration.name = name then some registration.kind else none) := by
  rw [kind?, List.reverse_cons, List.find?_append, Option.map_or, List.find?_singleton]
  simp only [beq_iff_eq]
  rw [apply_ite (Option.map Registration.kind)]
  rfl

/-- A registration counts for its name, and the other names are not affected. -/
theorem Tags.find?_add (tags : Tags) (registration : Registration) (name : String) :
    (tags.add registration).find? name =
      if registration.name = name then some registration.kind.handler else tags.find? name := by
  have hregister (handler : TagHandler) :
      (tags.register registration.name handler).find? name =
        if registration.name = name then some handler else tags.find? name := by
    rw [Tags.find?_register]
    simp only [eq_comm]
  unfold Tags.add
  split <;> rename_i hkind <;> rw [hkind] <;> exact hregister _

/-- The handler of a name is that of the kind it is registered as. -/
theorem Tags.find?_ofRegistrations (registrations : List Registration) (name : String) :
    (Tags.ofRegistrations registrations).find? name =
      (kind? registrations name).map TagKind.handler := by
  have hfold (tags : Tags) : (registrations.foldl Tags.add tags).find? name =
      ((kind? registrations name).map TagKind.handler).or (tags.find? name) := by
    induction registrations generalizing tags with
    | nil => rfl
    | cons registration registrations ih =>
      rw [List.foldl_cons, ih, kind?_cons, Tags.find?_add, Option.map_or, Option.or_assoc]
      split <;> rfl
  rw [Tags.ofRegistrations, hfold]
  have hempty : ({} : Tags).find? name = none := by simp [Tags.find?]
  rw [hempty, Option.or_none]

/-! ### Documents and their tokens -/

/-- Items one after another. -/
inductive Document where
  | nil
  | text (value : String) (rest : Document)
  | comment (value : String) (rest : Document)
  | placeholder (source : String) (rest : Document)
  | marker (token : TagToken) (rest : Document)
  | block (opening : TagToken) (body : Document) (closing : TagToken) (rest : Document)

/-- Whether the tokens are those behind a document that the tag named `ending` ends, or behind one
that nothing but the end of the tokens ends. -/
def Halts (ending : Option String) (tokens : List Token) : Prop :=
  ∀ token ∈ tokens.head?, token.isTag ending.toList = true

theorem isTag_tag_iff (ending : Option String) (token : TagToken) :
    (Token.tag token).isTag ending.toList = true ↔ ending = some token.name := by
  cases ending with
  | none => simp [Token.isTag]
  | some name => simp [Token.isTag, eq_comm]

theorem halts_nil (ending : Option String) : Halts ending [] := by
  rintro token ⟨⟩

theorem halts_tag (token : TagToken) (rest : List Token) :
    Halts (some token.name) (.tag token :: rest) := by
  rintro other ⟨⟩
  exact (isTag_tag_iff _ token).2 rfl

theorem Halts.isTag {ending : Option String} {token : Token} {rest : List Token}
    (hhalts : Halts ending (token :: rest)) : token.isTag ending.toList = true :=
  hhalts token rfl

theorem exists_tag_of_halts {name : String} {token : Token} {rest : List Token}
    (hhalts : Halts (some name) (token :: rest)) :
    ∃ closing : TagToken, token = .tag closing ∧ name = closing.name := by
  have htag := hhalts.isTag
  cases token with
  | tag closing =>
    exact ⟨closing, rfl, Option.some.inj ((isTag_tag_iff _ closing).1 htag)⟩
  | _ => simp [Token.isTag] at htag

/-- Outside of all blocks, reading halts at the end only. -/
theorem Halts.eq_nil {tokens : List Token} (hhalts : Halts none tokens) : tokens = [] := by
  cases tokens with
  | nil => rfl
  | cons token rest =>
    have habsurd := hhalts.isTag
    cases token <;> simp [Token.isTag] at habsurd

namespace Document

/-- The tokens of a document, in order. -/
def tokens : Document → List Token
  | nil => []
  | text value rest => .text value :: rest.tokens
  | comment value rest => .comment value :: rest.tokens
  | placeholder source rest => .placeholder source :: rest.tokens
  | marker token rest => .tag token :: rest.tokens
  | block opening body closing rest =>
    .tag opening :: (body.tokens ++ .tag closing :: rest.tokens)

/-- Whether the document is one for the registry and the options. Its items stand in a block that
the tag named `ending` closes, or in none. -/
def Admissible (registrations : List Registration) (options : Options) (ending : Option String) :
    Document → Prop
  | nil => True
  | text _ rest => rest.Admissible registrations options ending
  | comment _ rest => rest.Admissible registrations options ending
  | placeholder source rest =>
    (∃ expression, Expression.scan options (Text.trim source) = .ok expression) ∧
      rest.Admissible registrations options ending
  | marker token rest =>
    ending ≠ some token.name ∧ kind? registrations token.name = some .marker ∧
      rest.Admissible registrations options ending
  | block opening body closing rest =>
    ending ≠ some opening.name ∧
      kind? registrations opening.name = some (.block closing.name) ∧
      (∀ argument ∈ opening.arguments,
        ∃ expression, Expression.scan options argument = .ok expression) ∧
      body.Admissible registrations options (some closing.name) ∧
      rest.Admissible registrations options ending

end Document

/-! ### What a document stands for -/

/-- The expressions that sources are compiled to, one after the other, with the stores before and
after. -/
inductive Compiler.CompilesAll (compiler : Compiler) :
    List String → Store → List Compiled → Store → Prop where
  | nil {store : Store} : compiler.CompilesAll [] store [] store
  | cons {source : String} {sources : List String} {store middle after : Store}
      {compiled : Compiled} {others : List Compiled} :
    compiler.compile source store = (.ok compiled, middle) →
    compiler.CompilesAll sources middle others after →
    compiler.CompilesAll (source :: sources) store (compiled :: others) after

/-- The nodes of a document, with the stores before and after its expressions are compiled. Comments
and markers leave no nodes, and a block is a tag with its arguments and the nodes of its body. -/
inductive Document.Builds (compiler : Compiler) :
    Document → Store → List Node → Store → Prop where
  | nil {store : Store} : Builds compiler .nil store [] store
  | text {value : String} {rest : Document} {store after : Store} {nodes : List Node} :
    Builds compiler rest store nodes after →
    Builds compiler (.text value rest) store (.text value :: nodes) after
  | comment {value : String} {rest : Document} {store after : Store} {nodes : List Node} :
    Builds compiler rest store nodes after →
    Builds compiler (.comment value rest) store nodes after
  | placeholder {source : String} {rest : Document} {store middle after : Store}
      {compiled : Compiled} {nodes : List Node} :
    compiler.compile (Text.trim source) store = (.ok compiled, middle) →
    Builds compiler rest middle nodes after →
    Builds compiler (.placeholder source rest) store (.placeholder compiled :: nodes) after
  | marker {token : TagToken} {rest : Document} {store after : Store} {nodes : List Node} :
    Builds compiler rest store nodes after →
    Builds compiler (.marker token rest) store nodes after
  | block {opening closing : TagToken} {body rest : Document} {store middle inner after : Store}
      {arguments : List Compiled} {children nodes : List Node} :
    compiler.CompilesAll opening.arguments store arguments middle →
    Builds compiler body middle children inner →
    Builds compiler rest inner nodes after →
    Builds compiler (.block opening body closing rest) store
      (.tag opening.name arguments children :: nodes) after

section Builds

variable {compiler : Compiler} {store after : Store}

theorem Compiler.faithful_of_compile_eq {source : String} {result : Except Failure Compiled}
    (hfaithful : store.Faithful compiler.cache)
    (hcompile : compiler.compile source store = (result, after)) :
    after.Faithful compiler.cache := by
  have hafter := hfaithful.compile compiler source
  rwa [hcompile] at hafter

theorem Compiler.exists_scan_of_compile_eq {source : String} {compiled : Compiled}
    (hfaithful : store.Faithful compiler.cache)
    (hcompile : compiler.compile source store = (.ok compiled, after)) :
    ∃ expression, Expression.scan compiler.options source = .ok expression := by
  cases hscan : Expression.scan compiler.options source with
  | error error =>
    rw [Compiler.compile_of_scan_error hfaithful hscan] at hcompile
    cases hcompile
  | ok expression => exact ⟨expression, rfl⟩

/-- With a faithful cache, sources that are all compiled can all be read. -/
theorem Compiler.CompilesAll.exists_scan {sources : List String} {compiled : List Compiled}
    (hcompiles : compiler.CompilesAll sources store compiled after)
    (hfaithful : store.Faithful compiler.cache) :
    ∀ source ∈ sources, ∃ expression,
      Expression.scan compiler.options source = .ok expression := by
  induction hcompiles with
  | nil => simp
  | cons hcompile _ ih =>
    exact List.forall_mem_cons.2 ⟨Compiler.exists_scan_of_compile_eq hfaithful hcompile,
      ih (compiler.faithful_of_compile_eq hfaithful hcompile)⟩

theorem Compiler.CompilesAll.faithful {sources : List String} {compiled : List Compiled}
    (hcompiles : compiler.CompilesAll sources store compiled after)
    (hfaithful : store.Faithful compiler.cache) : after.Faithful compiler.cache := by
  induction hcompiles with
  | nil => exact hfaithful
  | cons hcompile _ ih => exact ih (compiler.faithful_of_compile_eq hfaithful hcompile)

theorem Document.Builds.faithful {document : Document} {nodes : List Node}
    (hbuilds : document.Builds compiler store nodes after)
    (hfaithful : store.Faithful compiler.cache) : after.Faithful compiler.cache := by
  induction hbuilds with
  | nil => exact hfaithful
  | text _ ih => exact ih hfaithful
  | comment _ ih => exact ih hfaithful
  | placeholder hcompile _ ih => exact ih (compiler.faithful_of_compile_eq hfaithful hcompile)
  | marker _ ih => exact ih hfaithful
  | block harguments _ _ hbody hrest => exact hrest (hbody (harguments.faithful hfaithful))

/-- With a faithful cache, sources that can all be read are all compiled. -/
theorem Compiler.exists_compilesAll {sources : List String}
    (hsources : ∀ source ∈ sources,
      ∃ expression, Expression.scan compiler.options source = .ok expression)
    (hfaithful : store.Faithful compiler.cache) :
    ∃ compiled after, compiler.CompilesAll sources store compiled after := by
  induction sources generalizing store with
  | nil => exact ⟨[], store, .nil⟩
  | cons source sources ih =>
    obtain ⟨expression, hscan⟩ := hsources source List.mem_cons_self
    obtain ⟨first, middle, hcompile, -⟩ := Compiler.exists_compile_eq hfaithful hscan
    obtain ⟨others, after, hothers⟩ := ih
      (fun other hother ↦ hsources other (List.mem_cons_of_mem _ hother))
      (compiler.faithful_of_compile_eq hfaithful hcompile)
    exact ⟨first :: others, after, .cons hcompile hothers⟩

/-- With a faithful cache, the nodes of an admissible document can be built. -/
theorem Document.Admissible.exists_builds {registrations : List Registration}
    {ending : Option String} {document : Document}
    (hadmissible : document.Admissible registrations compiler.options ending)
    (hfaithful : store.Faithful compiler.cache) :
    ∃ nodes after, document.Builds compiler store nodes after := by
  induction document generalizing ending store with
  | nil => exact ⟨[], store, .nil⟩
  | text value rest ih =>
    obtain ⟨nodes, after, hbuilds⟩ := ih hadmissible hfaithful
    exact ⟨.text value :: nodes, after, .text hbuilds⟩
  | comment value rest ih =>
    obtain ⟨nodes, after, hbuilds⟩ := ih hadmissible hfaithful
    exact ⟨nodes, after, .comment hbuilds⟩
  | placeholder source rest ih =>
    obtain ⟨⟨expression, hscan⟩, hrest⟩ := hadmissible
    obtain ⟨compiled, middle, hcompile, -⟩ := Compiler.exists_compile_eq hfaithful hscan
    obtain ⟨nodes, after, hbuilds⟩ :=
      ih hrest (compiler.faithful_of_compile_eq hfaithful hcompile)
    exact ⟨.placeholder compiled :: nodes, after, .placeholder hcompile hbuilds⟩
  | marker token rest ih =>
    obtain ⟨nodes, after, hbuilds⟩ := ih hadmissible.2.2 hfaithful
    exact ⟨nodes, after, .marker hbuilds⟩
  | block opening body closing rest hbody hrest =>
    obtain ⟨-, -, hreads, hinside, hbehind⟩ := hadmissible
    obtain ⟨arguments, middle, harguments⟩ := Compiler.exists_compilesAll hreads hfaithful
    have hmiddle := harguments.faithful hfaithful
    obtain ⟨children, inner, hchildren⟩ := hbody hinside hmiddle
    obtain ⟨nodes, after, hnodes⟩ := hrest hbehind (hchildren.faithful hmiddle)
    exact ⟨.tag opening.name arguments children :: nodes, after,
      .block harguments hchildren hnodes⟩

end Builds

/-! ### One document for the tokens -/

namespace Document

variable {registrations : List Registration} {options : Options}

/-- An item of an admissible document is not taken for what ends the document. -/
theorem Admissible.not_isTag_of_tokens_eq {document : Document} {ending : Option String}
    (hadmissible : document.Admissible registrations options ending) {token : Token}
    {rest : List Token} (htokens : document.tokens = token :: rest) :
    ¬token.isTag ending.toList = true := by
  cases document <;> simp only [tokens, List.cons.injEq, reduceCtorEq] at htokens <;>
    obtain ⟨rfl, -⟩ := htokens
  case text => simp [Token.isTag]
  case comment => simp [Token.isTag]
  case placeholder => simp [Token.isTag]
  case marker token rest => exact fun htag ↦ hadmissible.1 ((isTag_tag_iff ending token).1 htag)
  case block opening body closing rest =>
    exact fun htag ↦ hadmissible.1 ((isTag_tag_iff ending opening).1 htag)

/-- No document that is not empty begins where reading halts. -/
theorem Admissible.eq_nil_of_halts {document : Document} {ending : Option String}
    {rest others : List Token} (hadmissible : document.Admissible registrations options ending)
    (hhalts : Halts ending others) (htokens : document.tokens ++ rest = others) :
    document = nil := by
  cases hfirst : document.tokens with
  | nil => cases document <;> simp only [tokens, reduceCtorEq] at hfirst; rfl
  | cons token more =>
    rw [← htokens, hfirst] at hhalts
    exact absurd hhalts.isTag (hadmissible.not_isTag_of_tokens_eq hfirst)

/-- An admissible document and what follows it are told by the tokens. The induction is on the first
document. Both begin with the same item, as what a tag is registered as says whether it is a marker
or opens a block, and which tag closes that block. -/
theorem eq_of_tokens_append_eq {document other : Document} {ending : Option String}
    {rest otherRest : List Token}
    (hdocument : document.Admissible registrations options ending)
    (hother : other.Admissible registrations options ending) (hrest : Halts ending rest)
    (hotherRest : Halts ending otherRest)
    (htokens : document.tokens ++ rest = other.tokens ++ otherRest) :
    document = other ∧ rest = otherRest := by
  induction document generalizing other ending rest otherRest with
  | nil =>
    obtain rfl := hother.eq_nil_of_halts hrest htokens.symm
    exact ⟨rfl, htokens⟩
  | text value more ih =>
    cases other <;> simp only [tokens, List.cons_append, List.cons.injEq, Token.text.injEq,
      reduceCtorEq, false_and] at htokens
    case nil => cases hdocument.eq_nil_of_halts hotherRest htokens
    case text found others =>
      obtain ⟨rfl, htokens⟩ := htokens
      have hothers : others.Admissible registrations options ending := hother
      obtain ⟨rfl, rfl⟩ := ih hdocument hothers hrest hotherRest htokens
      exact ⟨rfl, rfl⟩
  | comment value more ih =>
    cases other <;> simp only [tokens, List.cons_append, List.cons.injEq, Token.comment.injEq,
      reduceCtorEq, false_and] at htokens
    case nil => cases hdocument.eq_nil_of_halts hotherRest htokens
    case comment found others =>
      obtain ⟨rfl, htokens⟩ := htokens
      have hothers : others.Admissible registrations options ending := hother
      obtain ⟨rfl, rfl⟩ := ih hdocument hothers hrest hotherRest htokens
      exact ⟨rfl, rfl⟩
  | placeholder source more ih =>
    cases other <;> simp only [tokens, List.cons_append, List.cons.injEq,
      Token.placeholder.injEq, reduceCtorEq, false_and] at htokens
    case nil => cases hdocument.eq_nil_of_halts hotherRest htokens
    case placeholder found others =>
      obtain ⟨rfl, htokens⟩ := htokens
      obtain ⟨rfl, rfl⟩ := ih hdocument.2 hother.2 hrest hotherRest htokens
      exact ⟨rfl, rfl⟩
  | marker token more ih =>
    have hkind := hdocument.2.1
    cases other <;> simp only [tokens, List.cons_append, List.cons.injEq, Token.tag.injEq,
      reduceCtorEq, false_and] at htokens
    case nil => cases hdocument.eq_nil_of_halts hotherRest htokens
    case marker found others =>
      obtain ⟨rfl, htokens⟩ := htokens
      obtain ⟨rfl, rfl⟩ := ih hdocument.2.2 hother.2.2 hrest hotherRest htokens
      exact ⟨rfl, rfl⟩
    case block opening inside closing others =>
      obtain ⟨rfl, -⟩ := htokens
      have hsame := hother.2.1
      rw [hkind] at hsame
      cases hsame
  | block opening body closing more hbody hmore =>
    have hkind := hdocument.2.1
    cases other <;> simp only [tokens, List.cons_append, List.cons.injEq, Token.tag.injEq,
      reduceCtorEq, false_and, List.append_assoc] at htokens
    case nil =>
      have hall : (block opening body closing more).tokens ++ rest = otherRest := by
        simpa [tokens] using htokens
      cases hdocument.eq_nil_of_halts hotherRest hall
    case marker found others =>
      obtain ⟨rfl, -⟩ := htokens
      have hsame := hother.2.1
      rw [hkind] at hsame
      cases hsame
    case block found inside last others =>
      obtain ⟨rfl, htokens⟩ := htokens
      obtain ⟨-, -, -, hinside, hbehind⟩ := hdocument
      obtain ⟨-, hsame, -, hotherInside, hotherBehind⟩ := hother
      rw [hkind] at hsame
      -- Tags of one name close both blocks, so that the bodies have the same ending.
      have hname : closing.name = last.name := TagKind.block.inj (Option.some.inj hsame)
      rw [← hname] at hotherInside
      have hlast : Halts (some closing.name) (.tag last :: (others.tokens ++ otherRest)) :=
        hname ▸ halts_tag last _
      obtain ⟨rfl, htail⟩ := hbody hinside hotherInside (halts_tag closing _) hlast htokens
      obtain ⟨hclosing, hbehindTokens⟩ := List.cons.inj htail
      obtain rfl := Token.tag.inj hclosing
      obtain ⟨rfl, rfl⟩ := hmore hbehind hotherBehind hrest hotherRest hbehindTokens
      exact ⟨rfl, rfl⟩

end Document

end Stencil

import Stencil.Proofs.Expression.Trimming
import Stencil.Proofs.Parser.Nesting

/-!
Placeholders and the blanks around their sources. A placeholder is compiled without the blanks
around its source. It holds the expression that compiling the source as it stands gives, or it has
the same fault, as blanks around an expression mean nothing (`Parser.placeholder_trim`).
-/

set_option autoImplicit false
set_option relaxedAutoImplicit false

namespace Stencil.Parser

section Nodes

variable {grammar : Grammar} {source : String} {parser : Parser}

/-- With a faithful cache, a placeholder that cannot be read is reported with its trimmed source. -/
theorem intoNode_placeholder_of_scan_error {error : ScanError}
    (hfaithful : parser.store.Faithful grammar.compiler.cache)
    (hscan : Expression.scan grammar.compiler.options (Text.trim source) = .error error) :
    intoNode grammar (.placeholder source) parser =
      (.error (.malformed (Text.trim source) error), parser) := by
  rw [intoNode_placeholder, compile, Compiler.compile_of_scan_error hfaithful hscan]
  rfl

/-- With a faithful cache, a placeholder that can be read becomes the node of what it reads as. -/
theorem exists_intoNode_placeholder {tree : Expression}
    (hfaithful : parser.store.Faithful grammar.compiler.cache)
    (hscan : Expression.scan grammar.compiler.options (Text.trim source) = .ok tree) :
    ∃ compiled left, intoNode grammar (.placeholder source) parser =
        (.ok (some (.placeholder compiled)), ⟨parser.stream, left⟩) ∧
      compiled.expression = tree := by
  obtain ⟨compiled, left, hcompile, -, htree⟩ := Compiler.exists_compile_eq hfaithful hscan
  refine ⟨compiled, left, ?_, htree⟩
  rw [intoNode_placeholder, compile, hcompile]
  rfl

end Nodes

/-- Blanks around an expression mean nothing. A source denotes what its trimmed text denotes, and
its fault is that of the trimmed text, with the place moved by the blanks that trimming takes from
the front. So in every session whose entries enter the cache through calls only, a placeholder and
the call that compiles its source give the same expression or the same fault. -/
theorem placeholder_trim (options : Options) (source : String) :
    (∀ tree, Expression.scan options source = .ok tree ↔
      Expression.scan options (Text.trim source) = .ok tree) ∧
    (∀ error, Expression.scan options (Text.trim source) = .error error →
      Expression.scan options source = .error (Fault.untrim source error)) ∧
    ∀ (actions : List Action) (grammar : Grammar) (stream : TokenStream),
      grammar.compiler.options = options →
      grammar.compiler.cache ∉ (Session.run actions).offered →
      (∀ compiled after,
        grammar.compiler.compile source (Session.run actions).store = (.ok compiled, after) →
        ∃ trimmed left,
          intoNode grammar (.placeholder source) ⟨stream, (Session.run actions).store⟩ =
            (.ok (some (.placeholder trimmed)), ⟨stream, left⟩) ∧
          trimmed.expression = compiled.expression) ∧
      ∀ failure after,
        grammar.compiler.compile source (Session.run actions).store = (.error failure, after) →
        ∃ error, Expression.scan options (Text.trim source) = .error error ∧
          failure = .malformed source (Fault.untrim source error) ∧
          intoNode grammar (.placeholder source) ⟨stream, (Session.run actions).store⟩ =
            (.error (.malformed (Text.trim source) error),
              ⟨stream, (Session.run actions).store⟩) := by
  have hscan := Expression.scan_trim options source
  cases htrim : Expression.scan options (Text.trim source) with
  | error error =>
    rw [htrim] at hscan
    refine ⟨fun tree ↦ by simp [hscan, Except.mapError], fun found hfound ↦ ?_, ?_⟩
    · cases hfound
      exact hscan
    rintro actions grammar stream rfl huntouched
    have hfaithful := (Session.sound_run actions).faithful huntouched
    have hcompile := Compiler.compile_of_scan_error hfaithful hscan
    constructor
    · intro compiled after hcompiled
      rw [hcompile] at hcompiled
      cases hcompiled
    · intro failure after hfailure
      rw [hcompile] at hfailure
      cases hfailure
      exact ⟨error, rfl, rfl, intoNode_placeholder_of_scan_error hfaithful htrim⟩
  | ok tree =>
    rw [htrim] at hscan
    refine ⟨fun other ↦ by simp [hscan, Except.mapError], ?_, ?_⟩
    · rintro error ⟨⟩
    rintro actions grammar stream rfl huntouched
    have hfaithful := (Session.sound_run actions).faithful huntouched
    obtain ⟨direct, middle, hcompile, -, hdirect⟩ := Compiler.exists_compile_eq hfaithful hscan
    constructor
    · intro compiled after hcompiled
      rw [hcompile] at hcompiled
      cases hcompiled
      rw [hdirect]
      exact exists_intoNode_placeholder hfaithful htrim
    · intro failure after hfailure
      rw [hcompile] at hfailure
      cases hfailure

/-- An argument that is missing at the end, behind a blank, in a source that begins with two. -/
theorem placeholder_trim_join :
    Expression.scan {} "name|join:" = .error (.located 10 (.missingArgument "join")) ∧
      Expression.scan {} "  name|join: " = .error (.located 13 (.missingArgument "join")) ∧
      (⟨0⟩ : CacheId) ∉ (Session.run [.newCompiler {} .builtin]).offered ∧
      intoNode ⟨⟨{}, .builtin, ⟨0⟩⟩, {}⟩ (.placeholder "  name|join: ")
          ⟨⟨[]⟩, (Session.run [.newCompiler {} .builtin]).store⟩ =
        (.error (.malformed "name|join:" (.located 10 (.missingArgument "join"))),
          ⟨⟨[]⟩, (Session.run [.newCompiler {} .builtin]).store⟩) := by
  have htrim : Text.trim "  name|join: " = "name|join:" := by decide +kernel
  have hfault : Expression.scan {} "name|join:" =
      .error (.located 10 (.missingArgument "join")) := by decide +kernel
  have hmoved : Fault.untrim "  name|join: " (.located 10 (.missingArgument "join")) =
      .located 13 (.missingArgument "join") := by decide +kernel
  have huntouched : (⟨0⟩ : CacheId) ∉ (Session.run [.newCompiler {} .builtin]).offered :=
    List.not_mem_nil
  obtain ⟨-, herror, hplaceholder⟩ := placeholder_trim {} "  name|join: "
  rw [htrim] at herror hplaceholder
  have hscan := herror _ hfault
  rw [hmoved] at hscan
  have hfaithful := (Session.sound_run [.newCompiler {} .builtin]).faithful huntouched
  obtain ⟨error, hsame, -, hnode⟩ := (hplaceholder [.newCompiler {} .builtin]
    ⟨⟨{}, .builtin, ⟨0⟩⟩, {}⟩ ⟨[]⟩ rfl huntouched).2 _ _
    (Compiler.compile_of_scan_error hfaithful hscan)
  rw [hfault] at hsame
  cases hsame
  exact ⟨hfault, hscan, huntouched, hnode⟩

end Stencil.Parser

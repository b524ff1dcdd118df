import Stencil.Proofs.Compiler.Gains
import Stencil.Proofs.Parser.Nesting

/-!
Where parsing fails, and what it leaves. The tokens are read a second time, one after the other and
without looking ahead, with a stack of the blocks that are open and a list of the sources that have
been compiled (`Reading.take`, `Reading.takeAll`). A tag that closes the innermost block closes it,
a tag of a block compiles its arguments and opens the block, a placeholder compiles its source, and
what cannot be compiled and a tag that is not registered are refused.

Reading nodes up to a tag, with whatever is nested in them, does what this says of the same tokens
(`Grammar.parseUntil_follows`): it gets through the tokens as far as the reading does, fails where
and for what reason the reading refuses a token, and leaves the tokens behind that one. Where the
tokens end inside of a block it blames the innermost. Either way the store has gained entries for
the sources that were compiled, and no others (`Grammar.ReportsFirst`, `Grammar.reportsFirst_run`).
-/

set_option autoImplicit false
set_option relaxedAutoImplicit false

namespace Stencil

/-! ### Reading with a stack of open blocks -/

/-- A block that has been opened and not been closed yet. -/
structure OpenBlock where
  name : String
  closing : String

/-- Where a reading of the tokens stands. -/
structure Reading where
  /-- The blocks that are open, innermost first. -/
  blocks : List OpenBlock := []
  /-- The sources that have been compiled, first to last. -/
  compiled : List String := []

/-- Why a token is refused, and the sources that have been compiled until then. -/
structure Refusal where
  failure : Failure
  compiled : List String

namespace Reading

/-- The name of the tag that closes the innermost block. -/
def ending (reading : Reading) : Option String :=
  reading.blocks.head?.map OpenBlock.closing

/-- The reading with further sources compiled. -/
def gain (reading : Reading) (sources : List String) : Reading :=
  { reading with compiled := reading.compiled ++ sources }

/-- The reading with one more block open. -/
def opened (reading : Reading) (block : OpenBlock) : Reading :=
  { reading with blocks := block :: reading.blocks }

/-- The reading behind the tag that closes the innermost block. -/
def closed (reading : Reading) : Reading :=
  { reading with blocks := reading.blocks.tail }

/-- Compiles the sources, first to last. -/
def compileAll (failure? : String → Option Failure) : Reading → List String → Except Refusal Reading
  | reading, [] => .ok reading
  | reading, source :: rest =>
    match failure? source with
    | some failure => .error ⟨failure, reading.compiled⟩
    | none => compileAll failure? (reading.gain [source]) rest

/-- Takes one token, given the registry and why a source cannot be compiled. -/
def take (registrations : List Registration) (failure? : String → Option Failure)
    (reading : Reading) : Token → Except Refusal Reading
  | .text _ => .ok reading
  | .comment _ => .ok reading
  | .placeholder source => reading.compileAll failure? [Text.trim source]
  | .tag token =>
    if reading.ending = some token.name then .ok reading.closed
    else
      match kind? registrations token.name with
      | some (.block closing) =>
        (reading.compileAll failure? token.arguments).map (·.opened ⟨token.name, closing⟩)
      | some .marker => .ok reading
      | none => .error ⟨.unknownTag token.name, reading.compiled⟩

/-- Takes all tokens, first to last, or those before the first that is refused; the tokens behind
that one are left. -/
def takeAll (registrations : List Registration) (failure? : String → Option Failure) :
    Reading → List Token → Except (Refusal × List Token) Reading
  | reading, [] => .ok reading
  | reading, token :: rest =>
    match reading.take registrations failure? token with
    | .error refusal => .error (refusal, rest)
    | .ok reading => takeAll registrations failure? reading rest

theorem gain_gain (reading : Reading) (sources others : List String) :
    (reading.gain sources).gain others = reading.gain (sources ++ others) := by
  simp [gain]

theorem gain_nil (reading : Reading) : reading.gain [] = reading := by
  simp [gain]

section TakeAll

variable {registrations : List Registration} {failure? : String → Option Failure}
  {reading next : Reading} {token : Token} {front rest : List Token} {refusal : Refusal}

/-- A token that is taken leaves the others to be taken. -/
theorem takeAll_cons_of_ok (htake : reading.take registrations failure? token = .ok next) :
    reading.takeAll registrations failure? (token :: rest) =
      next.takeAll registrations failure? rest := by
  rw [takeAll, htake]

/-- A token that is refused leaves the others untouched. -/
theorem takeAll_cons_of_error
    (htake : reading.take registrations failure? token = .error refusal) :
    reading.takeAll registrations failure? (token :: rest) = .error (refusal, rest) := by
  rw [takeAll, htake]

/-- Tokens are taken one part after the other. -/
theorem takeAll_append (hfront : reading.takeAll registrations failure? front = .ok next) :
    reading.takeAll registrations failure? (front ++ rest) =
      next.takeAll registrations failure? rest := by
  induction front generalizing reading with
  | nil =>
    cases hfront
    rfl
  | cons token front ih =>
    cases htake : reading.take registrations failure? token with
    | error refusal =>
      rw [takeAll_cons_of_error htake] at hfront
      cases hfront
    | ok middle =>
      rw [takeAll_cons_of_ok htake] at hfront
      rw [List.cons_append, takeAll_cons_of_ok htake, ih hfront]

end TakeAll

/-- What is to be reported of a reading that did not get through: the failure, the tokens that are
left and the sources that have been compiled. -/
inductive Reports :
    Except (Refusal × List Token) Reading → Failure → List Token → List String → Prop where
  | refused {failure : Failure} {rest : List Token} {compiled : List String} :
    Reports (.error (⟨failure, compiled⟩, rest)) failure rest compiled
  | unclosed {block : OpenBlock} {outer : List OpenBlock} {compiled : List String} :
    Reports (.ok ⟨block :: outer, compiled⟩) (.unclosedTag block.name block.closing) [] compiled

end Reading

/-! ### Parsing along a reading -/

/-- An outcome that goes along with a reading of the tokens: what it leaves is what the reading
goes on with, and it fails where and for what reason the reading does. -/
inductive Follows {α : Type} (registrations : List Registration) (compiler : Compiler)
    (reading : Reading) (tokens : List Token) (store : Store) : Outcome α → Prop where
  | ok {result : α} {after : Parser} {gained : List String} :
    compiler.Gains store gained after.store →
    reading.takeAll registrations (compiler.failure? store) tokens =
      (reading.gain gained).takeAll registrations (compiler.failure? store) after.stream.tokens →
    Follows registrations compiler reading tokens store (.ok result, after)
  | error {failure : Failure} {after : Parser} {gained : List String} :
    compiler.Gains store gained after.store →
    Reading.Reports (reading.takeAll registrations (compiler.failure? store) tokens) failure
      after.stream.tokens (reading.compiled ++ gained) →
    Follows registrations compiler reading tokens store (.error failure, after)

namespace Follows

variable {α β : Type} {registrations : List Registration} {compiler : Compiler}
  {reading next : Reading} {tokens rest : List Token} {store middle : Store}
  {gained : List String}

theorem unmoved (result : α) :
    Follows registrations compiler reading tokens store (.ok result, ⟨⟨tokens⟩, store⟩) :=
  .ok (.refl compiler store) (by rw [Reading.gain_nil])

theorem map {outcome : Outcome α} (change : α → β)
    (hfollows : Follows registrations compiler reading tokens store outcome) :
    Follows registrations compiler reading tokens store (outcome.1.map change, outcome.2) := by
  cases hfollows with
  | ok hgains htake => exact .ok hgains htake
  | error hgains hreports => exact .error hgains hreports

/-- A token that is taken while sources are compiled. -/
theorem ok_of_take {token : Token} {after : Store} (result : α)
    (hgains : compiler.Gains store gained after)
    (htake : reading.take registrations (compiler.failure? store) token =
      .ok (reading.gain gained)) :
    Follows registrations compiler reading (token :: rest) store
      (.ok result, ⟨⟨rest⟩, after⟩) :=
  .ok hgains (Reading.takeAll_cons_of_ok htake)

/-- A token that is refused after sources have been compiled. -/
theorem error_of_take {token : Token} {failure : Failure} {after : Store}
    (hgains : compiler.Gains store gained after)
    (htake : reading.take registrations (compiler.failure? store) token =
      .error ⟨failure, reading.compiled ++ gained⟩) :
    Follows registrations compiler reading (token :: rest) store
      ((.error failure, ⟨⟨rest⟩, after⟩) : Outcome α) := by
  refine .error hgains ?_
  rw [Reading.takeAll_cons_of_error htake]
  exact .refused

/-- A failure behind tokens that have been read. -/
theorem error_of_takeAll_eq {failure : Failure} {after : Parser}
    (hgains : compiler.Gains store gained middle)
    (htake : reading.takeAll registrations (compiler.failure? store) tokens =
      next.takeAll registrations (compiler.failure? store) rest)
    (hcompiled : next.compiled = reading.compiled ++ gained)
    (hfollows : Follows registrations compiler next rest middle
      ((.error failure, after) : Outcome α)) :
    Follows registrations compiler reading tokens store ((.error failure, after) : Outcome β) := by
  cases hfollows with
  | @error _ _ further hmore hreports =>
    refine .error (hgains.trans hmore) ?_
    rw [hgains.failure?_eq, hcompiled, List.append_assoc] at hreports
    rwa [htake]

/-- An outcome behind tokens that have been read. -/
theorem of_takeAll_eq {outcome : Outcome α} (hgains : compiler.Gains store gained middle)
    (htake : reading.takeAll registrations (compiler.failure? store) tokens =
      (reading.gain gained).takeAll registrations (compiler.failure? store) rest)
    (hfollows : Follows registrations compiler (reading.gain gained) rest middle outcome) :
    Follows registrations compiler reading tokens store outcome := by
  rcases outcome with ⟨failure | result, after⟩
  · exact error_of_takeAll_eq hgains htake rfl hfollows
  · cases hfollows with
    | @ok _ _ further hmore hrest =>
      refine .ok (hgains.trans hmore) ?_
      rw [hgains.failure?_eq, Reading.gain_gain] at hrest
      rw [htake, hrest]

end Follows

/-! ### Sources -/

namespace Reading

variable {source : String} {sources : List String} {reading : Reading}

theorem compileAll_cons_of_some {failure? : String → Option Failure} {failure : Failure}
    (hfailure : failure? source = some failure) :
    reading.compileAll failure? (source :: sources) = .error ⟨failure, reading.compiled⟩ := by
  rw [compileAll, hfailure]

theorem compileAll_cons_of_none {failure? : String → Option Failure}
    (hfailure : failure? source = none) :
    reading.compileAll failure? (source :: sources) =
      (reading.gain [source]).compileAll failure? sources := by
  rw [compileAll, hfailure]

/-- The tag that the innermost block waits for closes it. -/
theorem take_of_ending {registrations : List Registration} {failure? : String → Option Failure}
    {token : TagToken} (hending : reading.ending = some token.name) :
    reading.take registrations failure? (.tag token) = .ok reading.closed :=
  if_pos hending

end Reading

/-- A script that compiles sources goes along with a reading that compiles them. -/
theorem Script.run_compileAll_cases {compiler : Compiler} (reader : NodeReader) (parser : Parser)
    (hcache : compiler.cache.index < parser.store.caches.size) (sources : List String)
    (reading : Reading) :
    (∃ results after, (compileAll sources).run compiler reader parser =
        (.ok results, { parser with store := after }) ∧
      compiler.Gains parser.store sources after ∧
      reading.compileAll (compiler.failure? parser.store) sources = .ok (reading.gain sources)) ∨
    ∃ failure after gained, (compileAll sources).run compiler reader parser =
        (.error failure, { parser with store := after }) ∧
      compiler.Gains parser.store gained after ∧
      reading.compileAll (compiler.failure? parser.store) sources =
        .error ⟨failure, reading.compiled ++ gained⟩ := by
  induction sources generalizing reading parser with
  | nil =>
    refine Or.inl ⟨[], parser.store, rfl, .refl compiler _, ?_⟩
    rw [Reading.gain_nil]
    rfl
  | cons source sources ih =>
    have hrun : (compileAll (source :: sources)).run compiler reader parser =
        ((compiled source).bind fun first ↦ (compileAll sources).bind fun others ↦
          done (first :: others)).run compiler reader parser := rfl
    have hcompile := compiler.compile_gains hcache source
    rw [hrun, run_bind, run_compiled_eq, Parser.compile]
    split at hcompile
    · rename_i failure hfailure
      refine Or.inr ⟨failure, parser.store, [], ?_, .refl compiler _, ?_⟩
      · rw [hcompile]
      · rw [Reading.compileAll_cons_of_some hfailure, List.append_nil]
    · rename_i hfailure
      obtain ⟨first, middle, heq, hgains⟩ := hcompile
      have hmiddle : compiler.cache.index < middle.caches.size := hgains.size_eq ▸ hcache
      rw [heq, Reading.compileAll_cons_of_none hfailure]
      simp only [run, run_bind]
      rcases ih ⟨parser.stream, middle⟩ hmiddle (reading.gain [source]) with
        ⟨others, after, hothers, hmore, hall⟩ | ⟨failure, after, gained, hothers, hmore, hall⟩
      · refine Or.inl ⟨first :: others, after, ?_, hgains.trans hmore, ?_⟩
        · rw [hothers]
        · rw [← hgains.failure?_eq, hall, Reading.gain_gain]
          rfl
      · refine Or.inr ⟨failure, after, source :: gained, ?_, hgains.trans hmore, ?_⟩
        · rw [hothers]
        · rw [← hgains.failure?_eq, hall]
          simp [Reading.gain]

/-! ### Nodes along a reading -/

namespace Grammar

variable {compiler : Compiler} {registrations : List Registration} {reading : Reading}
  {store : Store} {token : Token} {rest : List Token}

/-- A block goes along with a reading, if reading nodes behind its opening tag does. -/
theorem run_block_follows {opening : TagToken} {closing : String}
    (hcache : compiler.cache.index < store.caches.size)
    (hending : reading.ending ≠ some opening.name)
    (hkind : kind? registrations opening.name = some (.block closing))
    (hbody : ∀ (inner : Reading) (middle : Store),
      compiler.cache.index < middle.caches.size → inner.ending = some closing →
      Follows registrations compiler inner rest middle
        (Parser.parseUntil (.ofRegistrations compiler registrations) (Token.isTag [closing])
          ⟨⟨rest⟩, middle⟩)) :
    Follows registrations compiler reading (.tag opening :: rest) store
      ((TagHandler.block closing opening).run compiler
        (Parser.parseUntil (.ofRegistrations compiler registrations)) ⟨⟨rest⟩, store⟩) := by
  have htake : reading.take registrations (compiler.failure? store) (.tag opening) =
      (reading.compileAll (compiler.failure? store) opening.arguments).map
        (·.opened ⟨opening.name, closing⟩) := by
    rw [Reading.take, if_neg hending, hkind]
  rw [TagHandler.run_block_eq]
  rcases Script.run_compileAll_cases _ ⟨⟨rest⟩, store⟩ hcache opening.arguments reading with
    ⟨arguments, middle, hrun, hgains, hall⟩ | ⟨failure, after, gained, hrun, hgains, hall⟩
  · rw [hall] at htake
    have hfollows := hbody ((reading.gain opening.arguments).opened ⟨opening.name, closing⟩) middle
      (hgains.size_eq ▸ hcache) rfl
    have hopened : reading.takeAll registrations (compiler.failure? store) (.tag opening :: rest) =
        ((reading.gain opening.arguments).opened ⟨opening.name, closing⟩).takeAll registrations
          (compiler.failure? store) rest := Reading.takeAll_cons_of_ok htake
    rw [hrun]
    simp only
    rcases hresult : Parser.parseUntil (.ofRegistrations compiler registrations)
      (Token.isTag [closing]) ⟨⟨rest⟩, middle⟩ with ⟨failure | body, ⟨⟨tokens⟩, inner⟩⟩
    · rw [hresult] at hfollows
      exact hfollows.error_of_takeAll_eq hgains hopened rfl
    rw [hresult] at hfollows
    cases hfollows with
    | @ok _ _ gained hmore hinside =>
      rw [hgains.failure?_eq] at hinside
      cases tokens with
      | nil =>
        refine .error (hgains.trans hmore) ?_
        rw [hopened, hinside, ← List.append_assoc]
        exact .unclosed
      | cons last others =>
        -- The token that is taken blindly is the closing tag, as nothing else ends the body.
        have hhalts : Halts (some closing) (last :: others) := Parser.stop_of_parseUntil hresult
        obtain ⟨tag, rfl, rfl⟩ := exists_tag_of_halts hhalts
        refine .ok (hgains.trans hmore) ?_
        rw [hopened, hinside, Reading.takeAll_cons_of_ok (Reading.take_of_ending rfl)]
        simp [Reading.gain, Reading.opened, Reading.closed]
  · rw [hall] at htake
    rw [hrun]
    exact .error_of_take hgains htake

/-- A token that is taken goes along with the reading, if reading nodes behind it does. -/
theorem intoNode_follows (hcache : compiler.cache.index < store.caches.size)
    (hstop : ¬token.isTag reading.ending.toList = true)
    (hbody : ∀ (inner : Reading) (middle : Store),
      compiler.cache.index < middle.caches.size →
      Follows registrations compiler inner rest middle
        (Parser.parseUntil (.ofRegistrations compiler registrations)
          (Token.isTag inner.ending.toList) ⟨⟨rest⟩, middle⟩)) :
    Follows registrations compiler reading (token :: rest) store
      (Parser.intoNode (.ofRegistrations compiler registrations) token ⟨⟨rest⟩, store⟩) := by
  have hpass (result : Option Node)
      (htake : reading.take registrations (compiler.failure? store) token = .ok reading) :
      Follows registrations compiler reading (token :: rest) store
        (.ok result, ⟨⟨rest⟩, store⟩) :=
    .ok_of_take result (.refl compiler store) (by rw [htake, Reading.gain_nil])
  cases token with
  | text value => exact hpass _ rfl
  | comment value => exact hpass _ rfl
  | placeholder source =>
    have hcompile := compiler.compile_gains hcache (Text.trim source)
    simp only [Parser.intoNode, nodeOf, ofRegistrations, Parser.compile]
    split at hcompile
    · rename_i failure hfailure
      rw [hcompile]
      refine .error_of_take (.refl compiler store) ?_
      rw [List.append_nil]
      exact Reading.compileAll_cons_of_some hfailure
    · rename_i hfailure
      obtain ⟨compiled, after, heq, hgains⟩ := hcompile
      rw [heq]
      exact .ok_of_take _ hgains (Reading.compileAll_cons_of_none hfailure)
  | tag opening =>
    have hending : reading.ending ≠ some opening.name :=
      fun hname ↦ hstop ((isTag_tag_iff _ opening).2 hname)
    rcases hkind : kind? registrations opening.name with _ | closing | _
    · rw [intoNode_unknown hkind]
      refine .error_of_take (.refl compiler store) ?_
      rw [Reading.take, if_neg hending, hkind, List.append_nil]
    · rw [intoNode_block hkind]
      refine run_block_follows hcache hending hkind fun inner middle hmiddle hclosing ↦ ?_
      have hinner := hbody inner middle hmiddle
      rwa [hclosing] at hinner
    · rw [intoNode_marker hkind]
      refine hpass _ ?_
      rw [Reading.take, if_neg hending, hkind]

/-- Reading nodes goes along with reading the tokens one after the other. The induction is on the
number of tokens; the body of a block and what follows it are read from fewer. -/
theorem parseUntil_follows {bound : Nat} {tokens : List Token} (hbound : tokens.length ≤ bound)
    (hcache : compiler.cache.index < store.caches.size) :
    Follows registrations compiler reading tokens store
      (Parser.parseUntil (.ofRegistrations compiler registrations)
        (Token.isTag reading.ending.toList) ⟨⟨tokens⟩, store⟩) := by
  induction bound generalizing reading tokens store with
  | zero =>
    obtain rfl : tokens = [] := List.eq_nil_of_length_eq_zero (Nat.le_zero.1 hbound)
    rw [Parser.parseUntil_of_tokens_eq_nil _ _ _ rfl]
    exact .unmoved []
  | succ bound ih =>
    cases tokens with
    | nil =>
      rw [Parser.parseUntil_of_tokens_eq_nil _ _ _ rfl]
      exact .unmoved []
    | cons token rest =>
      rw [Parser.parseUntil_of_tokens_eq_cons _ _ _ token rest rfl]
      by_cases hstop : token.isTag reading.ending.toList = true
      · rw [if_pos hstop]
        exact .unmoved []
      rw [if_neg hstop]
      have hrest : rest.length ≤ bound := Nat.le_of_succ_le_succ hbound
      have hnode : Follows registrations compiler reading (token :: rest) store
          (Parser.intoNode (.ofRegistrations compiler registrations) token ⟨⟨rest⟩, store⟩) :=
        intoNode_follows hcache hstop fun inner middle ↦ ih hrest
      have hshort := (Parser.intoNode_suffix (.ofRegistrations compiler registrations) token
        ⟨⟨rest⟩, store⟩).length_le
      rcases hresult : Parser.intoNode (.ofRegistrations compiler registrations) token
        ⟨⟨rest⟩, store⟩ with ⟨failure | node, middle⟩
      · rw [hresult] at hnode
        exact hnode.map Option.toList
      · rw [hresult] at hnode hshort
        cases hnode with
        | @ok _ _ gained hgains htake =>
          have hmore : Follows registrations compiler (reading.gain gained) middle.stream.tokens
              middle.store (middle.parseUntil (.ofRegistrations compiler registrations)
                (Token.isTag reading.ending.toList)) :=
            ih (Nat.le_trans hshort hrest) (hgains.size_eq ▸ hcache)
          have hall := (hmore.of_takeAll_eq hgains htake).map (node.toList ++ ·)
          rcases hparse : middle.parseUntil (.ofRegistrations compiler registrations)
            (Token.isTag reading.ending.toList) with ⟨failure | nodes, left⟩
          · simp only [hparse] at hall ⊢
            exact hall
          · simp only [hparse] at hall ⊢
            exact hall

/-- What is said of parsing the tokens: it reports the first problem of the reading and leaves the
tokens behind it, or else the innermost of the blocks that are open at the end, and has compiled
what the reading has. -/
structure ReportsFirst (registrations : List Registration) (compiler : Compiler) (store : Store)
    (tokens : List Token) : Prop where
  refused : ∀ front token rest reading refusal, tokens = front ++ token :: rest →
    Reading.takeAll registrations (compiler.failure? store) {} front = .ok reading →
    reading.take registrations (compiler.failure? store) token = .error refusal →
    ∃ after, Parser.parse (.ofRegistrations compiler registrations) ⟨⟨tokens⟩, store⟩ =
        (.error refusal.failure, ⟨⟨rest⟩, after⟩) ∧
      compiler.Gains store refusal.compiled after
  unclosed : ∀ reading block outer,
    Reading.takeAll registrations (compiler.failure? store) {} tokens = .ok reading →
    reading.blocks = block :: outer →
    ∃ after, Parser.parse (.ofRegistrations compiler registrations) ⟨⟨tokens⟩, store⟩ =
        (.error (.unclosedTag block.name block.closing), ⟨⟨[]⟩, after⟩) ∧
      compiler.Gains store reading.compiled after
  parsed : ∀ reading,
    Reading.takeAll registrations (compiler.failure? store) {} tokens = .ok reading →
    reading.blocks = [] →
    ∃ nodes after, Parser.parse (.ofRegistrations compiler registrations) ⟨⟨tokens⟩, store⟩ =
        (.ok nodes, ⟨⟨[]⟩, after⟩) ∧
      compiler.Gains store reading.compiled after

/-- What parsing gives, told by the reading of all tokens. -/
theorem parse_cases (registrations : List Registration)
    (hcache : compiler.cache.index < store.caches.size) (tokens : List Token) :
    (∃ reading nodes after,
      Reading.takeAll registrations (compiler.failure? store) {} tokens = .ok reading ∧
      reading.blocks = [] ∧ compiler.Gains store reading.compiled after ∧
      Parser.parse (.ofRegistrations compiler registrations) ⟨⟨tokens⟩, store⟩ =
        (.ok nodes, ⟨⟨[]⟩, after⟩)) ∨
    ∃ failure left after compiled,
      Reading.Reports (Reading.takeAll registrations (compiler.failure? store) {} tokens) failure
        left compiled ∧
      compiler.Gains store compiled after ∧
      Parser.parse (.ofRegistrations compiler registrations) ⟨⟨tokens⟩, store⟩ =
        (.error failure, ⟨⟨left⟩, after⟩) := by
  have hfollows : Follows registrations compiler {} tokens store
      (Parser.parse (.ofRegistrations compiler registrations) ⟨⟨tokens⟩, store⟩) := by
    rw [parse_eq_parseUntil]
    exact parseUntil_follows (Nat.le_refl _) hcache
  rcases hparse : Parser.parse (.ofRegistrations compiler registrations) ⟨⟨tokens⟩, store⟩ with
    ⟨failure | nodes, ⟨⟨left⟩, after⟩⟩
  · rw [hparse] at hfollows
    cases hfollows with
    | @error _ _ gained hgains hreports =>
      exact Or.inr ⟨failure, left, after, gained, hreports, hgains, rfl⟩
  · rw [hparse] at hfollows
    rw [parse_eq_parseUntil] at hparse
    have hhalts : Halts none left := Parser.stop_of_parseUntil hparse
    obtain rfl := hhalts.eq_nil
    cases hfollows with
    | @ok _ _ gained hgains htake =>
      exact Or.inl ⟨_, nodes, after, htake, rfl, hgains, rfl⟩

/-- Whatever has been done before, parsing reports the first problem of the tokens in their order
and leaves the tokens behind it. -/
theorem reportsFirst_run (actions : List Action) {compiler : Compiler}
    (hcompiler : compiler ∈ (Session.run actions).compilers) (registrations : List Registration)
    (tokens : List Token) :
    ReportsFirst registrations compiler (Session.run actions).store tokens := by
  have hcache := (Session.sound_run actions).compilers_lt compiler hcompiler
  have hcases := parse_cases registrations hcache tokens
  constructor
  · rintro front token rest reading refusal rfl hfront htoken
    rw [Reading.takeAll_append hfront, Reading.takeAll_cons_of_error htoken] at hcases
    obtain ⟨other, -, -, habsurd, -⟩ | ⟨failure, left, after, compiled, hreports, hgains, hparse⟩ :=
      hcases
    · cases habsurd
    · cases hreports
      exact ⟨after, hparse, hgains⟩
  · rintro ⟨blocks, compiled⟩ block outer htake rfl
    rw [htake] at hcases
    obtain ⟨other, -, -, hsame, hblocks, -⟩ | ⟨failure, left, after, _, hreports, hgains, hparse⟩ :=
      hcases
    · cases hsame
      cases hblocks
    · cases hreports
      exact ⟨after, hparse, hgains⟩
  · rintro ⟨blocks, compiled⟩ htake rfl
    rw [htake] at hcases
    obtain ⟨other, nodes, after, hsame, -, hgains, hparse⟩ | ⟨failure, _, _, _, hreports, -⟩ :=
      hcases
    · cases hsame
      exact ⟨nodes, after, hparse, hgains⟩
    · cases hreports

/-- A tag in a block that no one has registered. -/
theorem reportsFirst_run_unknown :
    (⟨{}, .builtin, ⟨0⟩⟩ : Compiler) ∈ (Session.run [.newCompiler {} .builtin]).compilers ∧
      ∃ after, Parser.parse (.ofRegistrations ⟨{}, .builtin, ⟨0⟩⟩ [⟨"if", .block "end"⟩])
        ⟨⟨[.tag ⟨"if", ""⟩, .tag ⟨"esle", ""⟩, .text "no", .tag ⟨"end", ""⟩]⟩,
          (Session.run [.newCompiler {} .builtin]).store⟩ =
        (.error (.unknownTag "esle"), ⟨⟨[.text "no", .tag ⟨"end", ""⟩]⟩, after⟩) := by
  have hcompiler : (⟨{}, .builtin, ⟨0⟩⟩ : Compiler) ∈
      (Session.run [.newCompiler {} .builtin]).compilers := List.mem_singleton.2 rfl
  have harguments : TagToken.arguments ⟨"if", ""⟩ = [] := by
    simp [TagToken.arguments, TagToken.readArguments_eq, Text.skipBlanks]
  have hopens (failure? : String → Option Failure) :
      Reading.takeAll [⟨"if", .block "end"⟩] failure? {} [.tag ⟨"if", ""⟩] =
        .ok ⟨[⟨"if", "end"⟩], []⟩ := by
    simp [Reading.takeAll, Reading.take, Reading.ending, Reading.compileAll, Reading.opened, kind?,
      harguments, Except.map]
  refine ⟨hcompiler, ?_⟩
  obtain ⟨after, hparse, -⟩ := (reportsFirst_run _ hcompiler [⟨"if", .block "end"⟩] _).refused
    [.tag ⟨"if", ""⟩] (.tag ⟨"esle", ""⟩) _ _ ⟨.unknownTag "esle", []⟩ rfl (hopens _) rfl
  exact ⟨after, hparse⟩

end Grammar

end Stencil

import Stencil.Node
import Stencil.Token.Basic

/-!
Scripts: what a tag does while a template is parsed. A script is a finite tree of requests to the
parser, each with a continuation for every answer. It can look at the tokens that are left, take
the next one, have nodes read up to a token of its choice, and have an expression compiled; it can
reach the parser in no other way. A request that fails is answered with its failure, and the script
may end with that failure or go on.
-/

set_option autoImplicit false
set_option relaxedAutoImplicit false

namespace Stencil

/-- A tree of requests to a parser: one request at a time, and how to go on for each answer. -/
inductive Script (α : Type) where
  /-- Ends with a result. -/
  | done (result : α)
  /-- Ends with a failure. -/
  | fail (failure : Failure)
  /-- Looks at the tokens that are left. -/
  | look (resume : List Token → Script α)
  /-- Takes the next token, if one is left. -/
  | take (resume : Option Token → Script α)
  /-- Reads nodes up to the first token that the test accepts, which stays. -/
  | readNodes (stop : Token → Bool) (resume : Except Failure (List Node) → Script α)
  /-- Compiles an expression. -/
  | compile (source : String) (resume : Except Failure Compiled → Script α)

namespace Script

variable {α β : Type}

/-- The script that goes on with what the first one gives. -/
def bind : Script α → (α → Script β) → Script β
  | done result, next => next result
  | fail failure, _ => fail failure
  | look resume, next => look fun tokens ↦ (resume tokens).bind next
  | take resume, next => take fun token ↦ (resume token).bind next
  | readNodes stop resume, next => readNodes stop fun result ↦ (resume result).bind next
  | compile source resume, next => compile source fun result ↦ (resume result).bind next

instance : Monad Script where
  pure := done
  bind := bind

/-- Ends as a request has ended. -/
def ofExcept : Except Failure α → Script α
  | .ok result => done result
  | .error failure => fail failure

/-- The tokens that are left. -/
def tokensLeft : Script (List Token) :=
  look done

/-- The next token, taken if there is one. -/
def nextToken : Script (Option Token) :=
  take done

/-- The next token, left where it is. -/
def peekToken : Script (Option Token) :=
  look fun tokens ↦ done tokens.head?

/-- The nodes up to the first token that the test accepts. -/
def nodesUntil (stop : Token → Bool) : Script (List Node) :=
  readNodes stop ofExcept

/-- The nodes of all the tokens that are left. -/
def allNodes : Script (List Node) :=
  nodesUntil fun _ ↦ false

/-- The compiled expression of the source. -/
def compiled (source : String) : Script Compiled :=
  compile source ofExcept

/-- The compiled expressions of the sources, first to last. -/
def compileAll : List String → Script (List Compiled)
  | [] => done []
  | source :: rest => do
    let first ← compiled source
    let others ← compileAll rest
    return first :: others

end Script

/-- What a tag does, given its token. A tag need not become a node. -/
abbrev TagHandler := TagToken → Script (Option Node)

end Stencil

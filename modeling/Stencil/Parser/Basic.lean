import Stencil.Compiler.Basic
import Stencil.Tag.Basic
import Stencil.Text.Blank
import Stencil.Token.Stream

/-!
Parsing tokens into nodes. A parser takes tokens from the front of its stream, one after the
other. Text becomes a text node, a placeholder is compiled without the blanks around it, a comment
leaves nothing, and a tag is handed to its script, which may take further tokens and have nodes
read on its own account. Whatever happens, tokens are only ever taken from the front: after a
failure the parser stands behind the token that caused it.

Each turn of `nodesWithin` takes a token before anything else, so that the number of tokens bounds
the number of turns, nested ones included. `Parser.parseUntil` gives it that bound.
-/

set_option autoImplicit false
set_option relaxedAutoImplicit false

namespace Stencil

/-- What stays the same while a template is parsed. -/
structure Grammar where
  compiler : Compiler
  tags : Tags

/-- The tokens that are left, and the store that expressions are compiled into. -/
structure Parser where
  stream : TokenStream
  store : Store

/-- A result together with the parser as it is left, also behind a failure. -/
abbrev Outcome (α : Type) := Except Failure α × Parser

namespace Parser

/-- The parser after its next token, and that token. -/
def next (parser : Parser) : Option Token × Parser :=
  (parser.stream.front?, { parser with stream := parser.stream.dropFront })

/-- The next token, left where it is. -/
def peek? (parser : Parser) : Option Token :=
  parser.stream.front?

/-- Compiles the source into the store of the parser. -/
def compile (compiler : Compiler) (source : String) (parser : Parser) : Outcome Compiled :=
  let (result, store) := compiler.compile source parser.store
  (result, { parser with store })

end Parser

/-- How nodes are read up to a token that a test accepts. -/
abbrev NodeReader := (Token → Bool) → Parser → Outcome (List Node)

/-- Runs a script, which has its nodes read by the given reader. -/
def Script.run {α : Type} (compiler : Compiler) (reader : NodeReader) :
    Script α → Parser → Outcome α
  | .done result, parser => (.ok result, parser)
  | .fail failure, parser => (.error failure, parser)
  | .look resume, parser => (resume parser.stream.tokens).run compiler reader parser
  | .take resume, parser => (resume parser.next.1).run compiler reader parser.next.2
  | .readNodes stop resume, parser =>
    let (result, parser) := reader stop parser
    (resume result).run compiler reader parser
  | .compile source resume, parser =>
    let (result, parser) := parser.compile compiler source
    (resume result).run compiler reader parser

namespace Grammar

/-- The node that a token becomes, if any, once the parser has taken it. -/
def nodeOf (grammar : Grammar) (reader : NodeReader) (token : Token) (parser : Parser) :
    Outcome (Option Node) :=
  match token with
  | .text value => (.ok (some (.text value)), parser)
  | .placeholder source =>
    let (result, parser) := parser.compile grammar.compiler (Text.trim source)
    (result.map fun compiled ↦ some (.placeholder compiled), parser)
  | .comment _ => (.ok none, parser)
  | .tag token =>
    match grammar.tags.find? token.name with
    | none => (.error (.unknownTag token.name), parser)
    | some handler => (handler token).run grammar.compiler reader parser

/-- The nodes up to the first token that the test accepts, in at most the given number of turns. -/
def nodesWithin (grammar : Grammar) : Nat → NodeReader
  | 0, _, parser => (.ok [], parser)
  | turns + 1, stop, parser =>
    match parser.stream.tokens with
    | [] => (.ok [], parser)
    | token :: rest =>
      if stop token then (.ok [], parser)
      else
        match grammar.nodeOf (nodesWithin grammar turns) token { parser with stream := ⟨rest⟩ } with
        | (.error failure, parser) => (.error failure, parser)
        | (.ok node, parser) =>
          match nodesWithin grammar turns stop parser with
          | (.error failure, parser) => (.error failure, parser)
          | (.ok nodes, parser) => (.ok (node.toList ++ nodes), parser)

end Grammar

namespace Parser

/-- Reads nodes up to the first token that the test accepts, which stays, or up to the end. -/
def parseUntil (grammar : Grammar) : NodeReader := fun stop parser ↦
  grammar.nodesWithin parser.stream.size stop parser

/-- Reads the nodes of all the tokens that are left. -/
def parse (grammar : Grammar) (parser : Parser) : Outcome (List Node) :=
  parser.parseUntil grammar fun _ ↦ false

/-- Turns a token that the parser has taken into a node. -/
def intoNode (grammar : Grammar) (token : Token) (parser : Parser) : Outcome (Option Node) :=
  grammar.nodeOf (parseUntil grammar) token parser

end Parser

end Stencil

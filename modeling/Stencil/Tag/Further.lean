import Stencil.Tag.Basic
import Stencil.Text.Blank

/-!
Further tags, which no registry has from the start. A verbatim tag keeps the text up to its closing
tag without reading it. A branching tag has a condition and a body, and perhaps a second body
behind a tag in between. They are what a program might bring along, and parsers are run on examples
with them. What holds of parsing holds of any handlers, and of these as of others, so that nothing
else depends on them.
-/

set_option autoImplicit false
set_option relaxedAutoImplicit false

namespace Stencil.TagHandler

/-- What a token contributes to verbatim text: placeholders get their braces back, and tags and
comments are dropped. -/
def verbatimText : Token → String
  | .text value => value
  | .placeholder source => "\x7b\x7b" ++ source ++ "\x7d\x7d"
  | _ => ""

/-- Takes tokens up to and with the closing tag, at most `bound` of them, and gives their text. -/
def verbatimBody (unclosed : Failure) (closing : String) : Nat → Script String
  | 0 => Script.fail unclosed
  | bound + 1 => do
    match ← Script.nextToken with
    | none => Script.fail unclosed
    | some token =>
      if token.isTag [closing] then return ""
      else
        let rest ← verbatimBody unclosed closing bound
        return verbatimText token ++ rest

/-- What a tag does whose body is text up to the closing tag. -/
def verbatim (closing : String) : TagHandler := fun token ↦ do
  let left ← Script.tokensLeft
  let body ← verbatimBody (.unclosedTag token.name closing) closing left.length
  return some (.tag token.name [] [.text body])

/-- Reads the second body, behind the tag in between, where the next token is that tag. -/
def otherwiseBranch (otherwise closing : String) (next : Token) : Script (List Node) :=
  if next.isTag [otherwise] then do
    let _ ← Script.nextToken
    let body ← Script.nodesUntil (Token.isTag [closing])
    return [.tag otherwise [] body]
  else return []

/-- What a tag does that has a condition, a body and perhaps a second body, which becomes the last
node of the first. -/
def branching (otherwise closing : String) : TagHandler := fun token ↦ do
  let unclosed : Failure := .unclosedTag token.name closing
  let condition ← Script.compiled (Text.trim token.content)
  let body ← Script.nodesUntil (Token.isTag [otherwise, closing])
  match ← Script.peekToken with
  | none => Script.fail unclosed
  | some next =>
    let second ← otherwiseBranch otherwise closing next
    match ← Script.nextToken with
    | none => Script.fail unclosed
    | some _ => return some (.tag token.name [condition] (body ++ second))

end Stencil.TagHandler

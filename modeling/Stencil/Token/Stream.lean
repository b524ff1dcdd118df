import Stencil.Token.Basic

/-!
Token streams: queues that are read from the front and take tokens at both ends.
-/

set_option autoImplicit false
set_option relaxedAutoImplicit false

namespace Stencil

/-- Tokens that are taken from the front. -/
structure TokenStream where
  /-- The tokens from front to back. -/
  tokens : List Token := []
deriving DecidableEq

namespace TokenStream

def front? (stream : TokenStream) : Option Token :=
  stream.tokens.head?

/-- The stream without its first token; an empty stream stays empty. -/
def dropFront (stream : TokenStream) : TokenStream :=
  ⟨stream.tokens.tail⟩

def pushFront (stream : TokenStream) (token : Token) : TokenStream :=
  ⟨token :: stream.tokens⟩

def pushBack (stream : TokenStream) (token : Token) : TokenStream :=
  ⟨stream.tokens ++ [token]⟩

def size (stream : TokenStream) : Nat :=
  stream.tokens.length

def isEmpty (stream : TokenStream) : Bool :=
  stream.tokens.isEmpty

end TokenStream

end Stencil

/-
**Compact written form of a document.**

A document is written without any gaps, members in their order.

Main definitions:

* `Json.tokens` — the tokens of a document;
* `Json.render` — its written form.
-/

import TraceReplay.Json.Token

set_option relaxedAutoImplicit false
set_option autoImplicit false

namespace TraceReplay

namespace Json

mutual

/-- The tokens of a document. -/
def tokens : Json → List Token
  | .null => [.null]
  | .bool b => [.bool b]
  | .number n => [.number n]
  | .string s => [.string s]
  | .array items => .openArray :: (itemTokens items ++ [.closeArray])
  | .object members => .openObject :: (memberTokens members ++ [.closeObject])

/-- The tokens of items with commas between them. -/
def itemTokens : List Json → List Token
  | [] => []
  | [j] => tokens j
  | j :: js => tokens j ++ .comma :: itemTokens js

/-- The tokens of members with commas between them. -/
def memberTokens : List (Option String × Json) → List Token
  | [] => []
  | [(name, j)] => .string name :: .colon :: tokens j
  | (name, j) :: ms => .string name :: .colon :: (tokens j ++ .comma :: memberTokens ms)

end

/-- The written form of a document. -/
def render (j : Json) : String := String.ofList (j.tokens.flatMap Token.chars)

end Json

end TraceReplay

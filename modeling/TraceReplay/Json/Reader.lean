/-
**From tokens to documents, and to values.**

Tokens are read one at a time against a stack of the arrays and objects that are still open.  The
reader is strict: one document, no trailing commas, nothing behind it.  A text as a whole is then the
value that is read out of its document, or malformed.

Main definitions:

* `Json.Frame` — an open array or object;
* `Json.Awaiting`, `Json.Progress` — what may come next, and the state of a reading;
* `Json.Progress.step?` — the effect of one token;
* `Json.parse?` — the document written by a text;
* `Json.maxDepth` — how deeply documents that are kept as a whole may be nested;
* `Json.variant?` — the name of a value without payload;
* `Json.readAs` — a text read as a value.
-/

import TraceReplay.Error
import TraceReplay.Json.Token

set_option relaxedAutoImplicit false
set_option autoImplicit false

namespace TraceReplay

namespace Json

/-- An array or object whose end has not come yet; what it holds so far is last item first. -/
inductive Frame where
  | array (done : List Json)
  | object (done : List (Option String × Json))
  | member (done : List (Option String × Json)) (name : Option String)

/-- What may come next. -/
inductive Awaiting where
  /-- A value. -/
  | value
  /-- The first item of an array, or its end. -/
  | itemOrEnd
  /-- The first name of an object, or its end. -/
  | nameOrEnd
  /-- The name of a further member. -/
  | name
  /-- The colon behind a name. -/
  | colon
  /-- A comma, or the end of the array or object. -/
  | commaOrEnd

/-- The state of a reading. -/
inductive Progress where
  /-- Inside the document. -/
  | inside (awaiting : Awaiting) (stack : List Frame)
  /-- Behind it. -/
  | complete (document : Json)

namespace Progress

/-- Puts a value that has just ended where it belongs. -/
def place? (v : Json) : List Frame → Option Progress
  | [] => some (complete v)
  | .array done :: stack => some (inside .commaOrEnd (.array (v :: done) :: stack))
  | .member done name :: stack => some (inside .commaOrEnd (.object ((name, v) :: done) :: stack))
  | .object _ :: _ => none

/-- The effect of a token where a value may start. -/
def startValue? (stack : List Frame) : Token → Option Progress
  | .null => place? .null stack
  | .bool b => place? (.bool b) stack
  | .number n => place? (.number n) stack
  | .string s => place? (.string s) stack
  | .openArray => some (inside .itemOrEnd (.array [] :: stack))
  | .openObject => some (inside .nameOrEnd (.object [] :: stack))
  | _ => none

/-- The effect of one token. -/
def step? : Progress → Token → Option Progress
  | inside .value stack, t => startValue? stack t
  | inside .itemOrEnd (.array _ :: stack), .closeArray => place? (.array []) stack
  | inside .itemOrEnd stack, t => startValue? stack t
  | inside .nameOrEnd (.object _ :: stack), .closeObject => place? (.object []) stack
  | inside .nameOrEnd (.object done :: stack), .string name =>
      some (inside .colon (.member done name :: stack))
  | inside .name (.object done :: stack), .string name =>
      some (inside .colon (.member done name :: stack))
  | inside .colon stack, .colon => some (inside .value stack)
  | inside .commaOrEnd (.array done :: stack), .comma => some (inside .value (.array done :: stack))
  | inside .commaOrEnd (.array done :: stack), .closeArray => place? (.array done.reverse) stack
  | inside .commaOrEnd (.object done :: stack), .comma =>
      some (inside .name (.object done :: stack))
  | inside .commaOrEnd (.object done :: stack), .closeObject => place? (.object done.reverse) stack
  | _, _ => none

/-- The document, if the reading is behind it. -/
def document? : Progress → Option Json
  | complete v => some v
  | inside _ _ => none

end Progress

/-- The document that consists of the given tokens. -/
def ofTokens? (ts : List Token) : Option Json :=
  (ts.foldlM Progress.step? (.inside .value [])).bind Progress.document?

/-- The document written by a text. -/
def parse? (text : String) : Option Json := (tokens? text.toList).bind ofTokens?

/-- The greatest depth of a document that is kept as a whole. -/
def maxDepth : Nat := 127

/-- The name of a value without payload: a text, or an object with that one name and `null`. -/
def variant? : Json → Option String
  | .string s => s
  | .object [(name, .null)] => name
  | _ => none

/-- The value written by a text, as far as the reader accepts the document. -/
def readAs {α : Type} (read : Json → Option α) (text : String) : Except ReplayError α :=
  match (parse? text).bind read with
  | some a => .ok a
  | none => .error (.malformed .json)

end Json

end TraceReplay

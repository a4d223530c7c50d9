/-
**Quoted text for diagnostics.**

A message that names a piece of text shows it between double quotes, with quotes, backslashes and
everything that cannot be seen on a line replaced by an escape.

Main definitions:

* `quoted` — the quoted text;
* `quotedOption` — the quoted text of a value that may be absent.
-/

import TraceReplay.Text.Invisible

set_option relaxedAutoImplicit false
set_option autoImplicit false

namespace TraceReplay

/-- The escape that shows a character by its code. -/
def codeEscape (c : Char) : List Char :=
  '\\' :: 'u' :: '\x7b' :: (Nat.toDigits 16 c.toNat ++ ['\x7d'])

/-- A character as it stands between quotes. -/
def quotedChar (c : Char) : List Char :=
  match c with
  | '"' => ['\\', '"']
  | '\\' => ['\\', '\\']
  | '\n' => ['\\', 'n']
  | '\r' => ['\\', 'r']
  | '\t' => ['\\', 't']
  | '\x00' => ['\\', '0']
  | c => if isInvisible c then codeEscape c else [c]

/-- A text between double quotes. -/
def quoted (text : String) : String :=
  String.ofList ('"' :: (text.toList.flatMap quotedChar ++ ['"']))

/-- A text that may be absent: `Some("…")` or `None`. -/
def quotedOption : Option String → String
  | none => "None"
  | some text => "Some(" ++ quoted text ++ ")"

end TraceReplay

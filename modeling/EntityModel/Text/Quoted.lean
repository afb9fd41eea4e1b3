import EntityModel.Text.Hidden

/-! # Quoted texts

A text between quotes in which every character can be told apart: quotes and backslashes are
escaped, the common control characters have short forms and characters that do not show are spelled
by code point.

* `quoted`   the text between quotes, with its characters escaped -/

namespace EntityModel.Text

/-- A number in hexadecimal digits. -/
def hexDigits (n : Nat) : List Char := Nat.toDigits 16 n

/-- One character inside quotes.  An apostrophe stands as it is, since the quotes are double. -/
def quoteChar (c : Char) : List Char :=
  if c = '\x00' then ['\\', '0']
  else if c = '\t' then ['\\', 't']
  else if c = '\r' then ['\\', 'r']
  else if c = '\n' then ['\\', 'n']
  else if c = '"' ∨ c = '\\' then ['\\', c]
  else if isHidden c then ['\\', 'u', '\x7b'] ++ hexDigits c.toNat ++ ['\x7d']
  else [c]

/-- The text between quotes. -/
def quoted (s : String) : String :=
  String.ofList ('"' :: s.toList.flatMap quoteChar ++ ['"'])

end EntityModel.Text

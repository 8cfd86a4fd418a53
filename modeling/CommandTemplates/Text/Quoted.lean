import CommandTemplates.Text.Search
import CommandTemplates.Text.Unprintable

/-!
# Quoted text

A text between double quotes, as messages show it. Quotes and backslashes are escaped,
and what does not show on its own is written by name or by number.

## Main Definitions

* `Text.quoted` — the quoted form of a text
-/

namespace CommandTemplates

/-- A character as it stands in quoted text. -/
def quotedChar (c : Char) : Text :=
  if c = '\x00' then ['\\', '0']
  else if c = '\t' then ['\\', 't']
  else if c = '\n' then ['\\', 'n']
  else if c = '\r' then ['\\', 'r']
  else if c = '"' ∨ c = '\\' then ['\\', c]
  else if isUnprintable c then ['\\', 'u', '\x7b'] ++ Nat.toDigits 16 c.toNat ++ ['\x7d']
  else [c]

/-- The quoted form of a text. -/
def Text.quoted (text : Text) : Text := ['"'] ++ text.flatMap quotedChar ++ ['"']

end CommandTemplates

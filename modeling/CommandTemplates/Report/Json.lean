import CommandTemplates.Text.Search

/-!
# JSON

Reports for other programs are written as JSON, indented by two spaces.

## Main Definitions

* `Json` — the values that occur in reports
* `Json.pretty` — the text of a value

## Design Notes

Every element of an array and every field of an object stands on a line of its own; an
empty array is `[]`, an empty object a pair of braces. In strings only quotes, backslashes
and the characters below the space are escaped.
-/

namespace CommandTemplates.Report

/-- The values that occur in reports. -/
inductive Json
  | null
  | bool (b : Bool)
  | number (n : Nat)
  | string (text : Text)
  | array (items : List Json)
  | object (fields : List (Text × Json))

namespace Json

/-- A value that may be absent. -/
def ofOption (f : α → Json) : Option α → Json
  | none => .null
  | some a => f a

/-- A character in a string. -/
def escaped (c : Char) : Text :=
  match c with
  | '"' => ['\\', '"']
  | '\\' => ['\\', '\\']
  | '\x08' => ['\\', 'b']
  | '\t' => ['\\', 't']
  | '\n' => ['\\', 'n']
  | '\x0c' => ['\\', 'f']
  | '\r' => ['\\', 'r']
  | c =>
    if c.toNat < 0x20 then
      let digits := Nat.toDigits 16 c.toNat
      ['\\', 'u'] ++ List.replicate (4 - digits.length) '0' ++ digits
    else [c]

/-- A string with its quotes. -/
def quoted (text : Text) : Text := ['"'] ++ text.flatMap escaped ++ ['"']

/-- The start of a line at a depth. -/
def newline (depth : Nat) : Text := '\n' :: List.replicate (2 * depth) ' '

mutual

/-- A value whose first line is already indented. -/
def render (depth : Nat) : Json → Text
  | .null => "null".toList
  | .bool b => (if b then "true" else "false").toList
  | .number n => Text.ofNat n
  | .string text => quoted text
  | .array [] => ['[', ']']
  | .array (item :: items) =>
    ['['] ++ newline (depth + 1) ++ render (depth + 1) item ++ renderItems (depth + 1) items ++
      newline depth ++ [']']
  | .object [] => ['\x7b', '\x7d']
  | .object ((name, value) :: fields) =>
    ['\x7b'] ++ newline (depth + 1) ++ quoted name ++ [':', ' '] ++ render (depth + 1) value ++
      renderFields (depth + 1) fields ++ newline depth ++ ['\x7d']

/-- Further items, each after a comma and on its own line. -/
def renderItems (depth : Nat) : List Json → Text
  | [] => []
  | item :: items => [','] ++ newline depth ++ render depth item ++ renderItems depth items

/-- Further fields, each after a comma and on its own line. -/
def renderFields (depth : Nat) : List (Text × Json) → Text
  | [] => []
  | (name, value) :: fields =>
    [','] ++ newline depth ++ quoted name ++ [':', ' '] ++ render depth value ++
      renderFields depth fields

end

/-- The text of a value, without a final newline. -/
def pretty (value : Json) : Text := render 0 value

end Json

end CommandTemplates.Report

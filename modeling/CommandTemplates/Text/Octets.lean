import CommandTemplates.Text.Search

/-!
# Octets

Files and their names hold octets, which are the UTF-8 form of a text, as a rule.

## Main Definitions

* `Octets` — a text, or octets that are the form of no text
* `Octets.ofBytes`, `Octets.bytes` — from and to plain octets
* `Octets.lossy` — the text that is shown, with U+FFFD where octets are ill-formed

## Design Notes

A text is kept as a text, so that writing a text and reading it back needs no decoding.
Ill-formed octets are grouped as in the Unicode standard: an octet that cannot continue a
character ends it, and starts the next. Every such group is shown as one U+FFFD.
-/

namespace CommandTemplates

/-- A text, or octets that are the form of no text. -/
inductive Octets
  | text (t : Text)
  | illFormed (bytes : List UInt8)
  deriving DecidableEq, Repr

namespace Octets

/-! ### Decoding -/

/-- A character of which some octets are still to come, each in a range of its own. Without
such octets no character is begun. -/
structure Pending where
  value : Nat
  ranges : List (Nat × Nat)

/-- Between two characters. -/
def Pending.none : Pending := ⟨0, []⟩

/-- The range of an octet that continues a character. -/
def tail : Nat × Nat := (0x80, 0xBF)

/-- What an octet gives where a character begins: characters, with none for an ill-formed
group, and what is pending after it. -/
def opening (octet : Nat) : List (Option Char) × Pending :=
  if octet < 0x80 then ([some (Char.ofNat octet)], .none)
  else if 0xC2 ≤ octet ∧ octet ≤ 0xDF then ([], ⟨octet % 32, [tail]⟩)
  else if octet = 0xE0 then ([], ⟨0, [(0xA0, 0xBF), tail]⟩)
  else if octet = 0xED then ([], ⟨13, [(0x80, 0x9F), tail]⟩)
  else if 0xE1 ≤ octet ∧ octet ≤ 0xEF then ([], ⟨octet % 16, [tail, tail]⟩)
  else if octet = 0xF0 then ([], ⟨0, [(0x90, 0xBF), tail, tail]⟩)
  else if 0xF1 ≤ octet ∧ octet ≤ 0xF3 then ([], ⟨octet % 8, [tail, tail, tail]⟩)
  else if octet = 0xF4 then ([], ⟨4, [(0x80, 0x8F), tail, tail]⟩)
  else ([none], .none)

/-- What an octet gives after what is pending. -/
def proceed (pending : Pending) (octet : Nat) : List (Option Char) × Pending :=
  match pending.ranges with
  | [] => opening octet
  | (low, high) :: ranges =>
    if low ≤ octet ∧ octet ≤ high then
      let value := 64 * pending.value + octet % 64
      if ranges.isEmpty then ([some (Char.ofNat value)], .none) else ([], ⟨value, ranges⟩)
    else
      let next := opening octet
      (none :: next.1, next.2)

/-- The characters of octets, with none for every ill-formed group. -/
def decode : Pending → List UInt8 → List (Option Char)
  | pending, [] => if pending.ranges.isEmpty then [] else [none]
  | pending, octet :: octets =>
    let next := proceed pending octet.toNat
    next.1 ++ decode next.2 octets

/-- Plain octets, as a text if they are the form of one. -/
def ofBytes (bytes : List UInt8) : Octets :=
  match (decode .none bytes).mapM id with
  | some t => .text t
  | none => .illFormed bytes

/-- The octets as such. -/
def bytes : Octets → List UInt8
  | text t => t.flatMap String.utf8EncodeChar
  | illFormed bytes => bytes

/-- The text that is shown. -/
def lossy : Octets → Text
  | text t => t
  | illFormed bytes => (decode .none bytes).map (·.getD '\ufffd')

/-! ### Pieces -/

/-- The pieces between separators. -/
def pieces (separator : Char) : Octets → List Octets
  | text t => (Text.pieces separator t).map .text
  | illFormed bytes => (bytes.splitOn (UInt8.ofNat separator.toNat)).map ofBytes

end Octets

end CommandTemplates

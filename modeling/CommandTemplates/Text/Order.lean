import CommandTemplates.Text.Search

/-!
# The order of texts

Lists are compared item by item; where one is the beginning of the other, the shorter comes
first.

## Main Definitions

* `comesBefore` — the order of lists, from the order of their items
* `Text.sorted` — texts in the order of their scalars
-/

namespace CommandTemplates

/-- Whether a list comes before another, given the order of the items. -/
def comesBefore (before : α → α → Bool) : List α → List α → Bool
  | _, [] => false
  | [], _ :: _ => true
  | a :: as, b :: bs => before a b || (!before b a && comesBefore before as bs)

/-- Whether a text comes before another. -/
def Text.before (s t : Text) : Bool := comesBefore (·.toNat < ·.toNat) s t

/-- Texts in order. -/
def Text.sorted (texts : List Text) : List Text := texts.mergeSort fun s t => !Text.before t s

end CommandTemplates

import Mathlib.Data.List.Infix
import Mathlib.Tactic.Common

/-! Path-compressed tries over any alphabet, parts of which may be hidden. -/
namespace SimpleAsset.Library

/-- A trie as a partial map from words; of a `hidden` part only the map it stands for is known. -/
inductive Trie (κ β : Type) : Type
  | blank
  | leaf (path : List κ) (value : β)
  | extension (path : List κ) (next : Trie κ β)
  | full (nodes : κ → Trie κ β) (value : Option β)
  | hidden (content : List κ → Option β)

namespace Trie
variable {κ β : Type} [DecidableEq κ]

def lookup : Trie κ β → List κ → Option β
  | blank, _ => none
  | leaf path value, key => if key = path then some value else none
  | extension path next, key => if path <+: key then next.lookup (key.drop path.length) else none
  | full _ value, [] => value
  | full nodes _, x :: key => (nodes x).lookup key
  | hidden content, key => content key

/-- Looking the key up meets no hidden part. -/
def Exposed : Trie κ β → List κ → Prop
  | hidden _, _ => False
  | extension path next, key => path <+: key → next.Exposed (key.drop path.length)
  | full nodes _, x :: key => (nodes x).Exposed key
  | _, _ => True

/-- The way to the end of a word, and all parts from there on, are not hidden. -/
def ExposedUnder : Trie κ β → List κ → Prop
  | hidden _, _ => False
  | extension path next, key =>
    (path <+: key → next.ExposedUnder (key.drop path.length)) ∧
      (¬ path <+: key → key <+: path → next.ExposedUnder [])
  | full nodes _, [] => ∀ x, (nodes x).ExposedUnder []
  | full nodes _, x :: key => (nodes x).ExposedUnder key
  | _, _ => True

/-- The key ends inside the path of a leaf, so that the leaf belongs to a longer key. -/
def EndsInLeaf : Trie κ β → List κ → Prop
  | leaf path _, key => key <+: path ∧ key ≠ path
  | extension path next, key => path <+: key ∧ next.EndsInLeaf (key.drop path.length)
  | full nodes _, x :: key => (nodes x).EndsInLeaf key
  | _, _ => False

theorem lookup_of_endsInLeaf {t : Trie κ β} {key : List κ} (h : t.EndsInLeaf key) :
    t.lookup key = none := by
  induction t generalizing key with
  | blank => rfl
  | leaf path value => exact if_neg h.2
  | extension path next ih => rw [lookup, if_pos h.1, ih h.2]
  | full nodes value ih =>
    cases key with
    | nil => exact absurd h id
    | cons x key => exact ih x h
  | hidden content => exact absurd h id

end Trie
end SimpleAsset.Library

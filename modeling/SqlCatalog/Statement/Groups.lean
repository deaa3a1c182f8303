import SqlCatalog.Token.Basic
/-!
Cutting a run of tokens at its semicolons. Semicolons between `BEGIN` or `CASE` and the `END` that
closes it stay; a `BEGIN` that opens a statement starts a transaction and closes with none.
-/
namespace SqlCatalog.Token

-- Where a cut run stands: whether the current group has a token that is no blank, and how many
-- bodies are open.
structure Nesting where
  started : Bool
  depth : Nat
deriving DecidableEq

namespace Nesting

def outer : Nesting := ⟨false, 0⟩

def depthAfter (n : Nesting) (t : Token) : Nat :=
  match t.keyword? with
  | some .begin => if n.started then n.depth + 1 else n.depth
  | some .case => n.depth + 1
  | some .end => n.depth - 1
  | _ => n.depth

def after (n : Nesting) (t : Token) : Nesting := ⟨n.started || !t.isBlank, n.depthAfter t⟩

end Nesting

def attach {α : Type} (a : α) : List (List α) → List (List α)
  | [] => [[a]]
  | group :: groups => (a :: group) :: groups

-- The groups between the semicolons outside bodies, which are dropped. There is one group more
-- than semicolons dropped.
def groupsFrom (n : Nesting) : List Token → List (List Token)
  | [] => [[]]
  | t :: ts =>
    if t = .semicolon ∧ n.depth = 0 then [] :: groupsFrom .outer ts
    else attach t (groupsFrom (n.after t) ts)

def groups (ts : List Token) : List (List Token) := groupsFrom .outer ts

theorem groups_from_ne_nil (n : Nesting) (ts : List Token) : groupsFrom n ts ≠ [] := by
  cases ts with
  | nil => simp [groupsFrom]
  | cons t ts =>
    simp only [groupsFrom]
    split
    · simp
    · unfold attach
      split <;> simp

end SqlCatalog.Token

import PocketSql.Syntax.Outline

/-!
# Visitors

A visitor is told of every node of an outline, when it is entered and when it is
left. One visitor keeps what it is told, and one prints the tree.
-/

namespace PocketSql

/-- The callbacks of a walk that carries a state. Entering a node also tells whether its
children are visited. -/
structure Visitor (σ : Type) where
  enter : Node → σ → Bool × σ
  leave : Node → σ → σ

mutual

/-- The state behind a walk. A node is left behind its children, also where they are left out. -/
def Outline.walk {σ : Type} (v : Visitor σ) : Outline → σ → σ
  | node root children, s =>
    match v.enter root s with
    | (true, s) => v.leave root (Outline.walkAll v children s)
    | (false, s) => v.leave root s

def Outline.walkAll {σ : Type} (v : Visitor σ) : List Outline → σ → σ
  | [], s => s
  | first :: rest, s => Outline.walkAll v rest (Outline.walk v first s)

end

/-- The visitor that keeps the events of a walk. -/
def recorder (prune : Node → Bool) : Visitor (List Event) where
  enter node events := (!prune node, events ++ [.enter node])
  leave node events := events ++ [.leave node]

/-! ## Printing -/

/-- The text that is printed so far, and the depth of the next node. -/
structure Printer where
  out : String
  depth : Nat

def indent : String := "  "

/-- Prints a line for each node, deeper by one between entering and leaving a node. -/
def printer : Visitor Printer where
  enter node s :=
    (true, ⟨s.out ++ (String.join (List.replicate s.depth indent) ++ node.label ++ "\n"),
      s.depth + 1⟩)
  leave _ s := ⟨s.out, s.depth - 1⟩

end PocketSql

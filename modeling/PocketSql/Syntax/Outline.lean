import PocketSql.Syntax.Statement

/-!
# Outlines

The outline of a statement is the tree of all its nodes in the order of the
text: statements, column definitions, expressions, and the names that are not
expressions. A walk, a list of nodes by depth and the printed tree are readings
of the outline.
-/

namespace PocketSql

inductive Node where
  | statement (s : Statement)
  | column (d : ColumnDefinition)
  | expr (e : Expr)
  | name (n : Ident)

namespace Node

def label : Node → String
  | statement s => s.label
  | column d => d.label
  | expr e => e.label
  | name n => "Ident(" ++ n.name ++ ")"

def position : Node → Position
  | statement s => s.position
  | column d => d.name.position
  | expr e => e.position
  | name n => n.position

end Node

/-- A node and the outlines of its children. -/
inductive Outline where
  | node (root : Node) (children : List Outline)

/-- The entering or the leaving of a node. -/
inductive Event where
  | enter (node : Node)
  | leave (node : Node)

namespace Outline

/-- A childless node. -/
def leaf (root : Node) : Outline :=
  node root []

mutual

/-- The events of a walk that leaves out the children of the nodes that `prune` holds of. -/
def events (prune : Node → Bool) : Outline → List Event
  | node root children =>
    .enter root :: (if prune root then [] else eventsAll prune children) ++ [.leave root]

def eventsAll (prune : Node → Bool) : List Outline → List Event
  | [] => []
  | first :: rest => events prune first ++ eventsAll prune rest

end

mutual

/-- All nodes in walk order, each with its depth below the given one. -/
def preorder (depth : Nat) : Outline → List (Nat × Node)
  | node root children => (depth, root) :: preorderAll (depth + 1) children

def preorderAll (depth : Nat) : List Outline → List (Nat × Node)
  | [] => []
  | first :: rest => preorder depth first ++ preorderAll depth rest

end

/-- All nodes in walk order with their depths. -/
def nodes (o : Outline) : List (Nat × Node) :=
  o.preorder 0

/-- One line for each node, indented by two spaces for each level of depth. -/
def print (o : Outline) : String :=
  String.join (o.nodes.map fun (depth, root) =>
    String.ofList (List.replicate (2 * depth) ' ') ++ root.label ++ "\n")

end Outline

mutual

/-- A function call has its name as the first child. -/
def Expr.outline : Expr → Outline
  | .unary position op operand => .node (.expr (.unary position op operand)) [operand.outline]
  | .binary op lhs rhs => .node (.expr (.binary op lhs rhs)) [lhs.outline, rhs.outline]
  | .call function arguments =>
    .node (.expr (.call function arguments)) (.leaf (.name function) :: Expr.outlines arguments)
  | .ident name => .leaf (.expr (.ident name))
  | .literal position value => .leaf (.expr (.literal position value))
  | .star position => .leaf (.expr (.star position))

def Expr.outlines : List Expr → List Outline
  | [] => []
  | first :: rest => first.outline :: Expr.outlines rest

end

def ColumnDefinition.outline (d : ColumnDefinition) : Outline :=
  .node (.column d) (d.default.toList.map Expr.outline)

def Assignment.outlines (a : Assignment) : List Outline :=
  [.leaf (.name a.column), a.value.outline]

/-- The children of a statement, in the order of the text. -/
def Statement.children : Statement → List Outline
  | .createTable s => .leaf (.name s.table) :: s.columns.map ColumnDefinition.outline
  | .select s => Expr.outlines (s.projections ++ s.table :: s.condition.toList)
  | .insert s =>
    .leaf (.name s.table) :: s.columns.map (fun c => .leaf (.name c)) ++ Expr.outlines s.values
  | .update s =>
    .leaf (.name s.table) :: s.assignments.flatMap Assignment.outlines ++
      Expr.outlines s.condition.toList
  | .delete s => .leaf (.name s.table) :: Expr.outlines s.condition.toList

def Statement.outline (s : Statement) : Outline :=
  .node (.statement s) s.children

end PocketSql

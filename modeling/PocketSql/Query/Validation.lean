import PocketSql.Query.Shell
import PocketSql.Syntax.Visitor

/-!
# Validation by visitors

The check of an aggregate projection and the search for aggregate calls as walks
over the nodes.
-/

namespace PocketSql

def Expr.isAggregateCall : Expr → Bool
  | call function _ => isAggregate function.name
  | _ => false

/-- The number of aggregate calls that a walk is in, and the first error that it has met. -/
structure Validation where
  depth : Nat
  error : Option EvalError

/-- Once there is an error, nothing is entered any more and the depth stays. -/
def validator : Visitor Validation where
  enter node s :=
    if s.error.isSome then (false, s)
    else match node with
      | .expr (.call function _) =>
        if isAggregate function.name then
          if 0 < s.depth then
            (false, { s with error := some ⟨function.position, .nestedAggregate⟩ })
          else (true, { s with depth := s.depth + 1 })
        else (true, s)
      | .expr (.ident name) =>
        if s.depth = 0 then
          (false, { s with error := some ⟨name.position, .ungroupedColumn name.name⟩ })
        else (true, s)
      | _ => (true, s)
  leave node s :=
    match node with
    | .expr (.call function _) =>
      if isAggregate function.name && decide (0 < s.depth) && s.error.isNone then
        { s with depth := s.depth - 1 }
      else s
    | _ => s

/-- The outcome of a check that has met an error or none. -/
def checked : Option EvalError → Except EvalError Unit
  | none => .ok ()
  | some error => .error error

/-- The check of a projection as a walk. -/
def Expr.validate (e : Expr) : Except EvalError Unit :=
  checked (e.outline.walk validator ⟨0, none⟩).error

/-- A walk that ends early when it has found an aggregate call. -/
def finder : Visitor Bool where
  enter node found :=
    let found := found || match node with
      | .expr e => e.isAggregateCall
      | _ => false
    (!found, found)
  leave _ found := found

end PocketSql

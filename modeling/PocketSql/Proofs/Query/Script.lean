import Mathlib
import PocketSql.Proofs.Query.Relocation
import PocketSql.Proofs.Store.Reachable
import PocketSql.Proofs.Syntax.Joining

/-!
# Joined scripts

A script can be split at a semicolon.  Run as one text, two scripts do what they do one
after the other, and only the positions of the second one stand further down.
-/

namespace PocketSql

theorem TokenStream.lastKind?_ofList (front : List Token) (last : Token) (finish : Position) :
    (ofList (front ++ [last]) finish).lastKind? = some last.kind := by
  induction front with
  | nil => rfl
  | cons t front ih =>
      rw [List.cons_append, ofList, List.foldr_cons, ← ofList, lastKind?, ih]
      rfl

/-- The last token of a text is the one in front of its end. -/
theorem lastKind?_of_tokenize {text : String} {front : List Token} {last finish : Token}
    (htokens : tokenize text = .ok (front ++ [last, finish])) :
    (TokenStream.ofString text).lastKind? = some last.kind := by
  cases hend : (TokenStream.ofString text).lexError? with
  | some e =>
      have herror : tokenize text = .error e := TokenStream.toList_of_lexError? hend
      cases herror.symm.trans htokens
  | none =>
      obtain ⟨ts, position, hstream, hlist⟩ := TokenStream.exists_ofList hend
      have hsplit : ts ++ [⟨.eof, position, ""⟩] = (front ++ [last]) ++ [finish] := by
        rw [List.append_assoc]
        exact Except.ok.inj (hlist.symm.trans htokens)
      obtain ⟨rfl, -⟩ := List.append_inj' hsplit rfl
      rw [hstream]
      exact TokenStream.lastKind?_ofList front last position

theorem Database.runScript_eq {text : String} {statements : List Statement}
    (hparse : parse text = .ok statements) (db : Database) :
    db.runScript text = (.ok (db.executeAll statements).1, (db.executeAll statements).2) := by
  rw [runScript, hparse]

/-- Two scripts with a semicolon and a line feed between them are read as the statements of
both, those of the second one further down by the lines of the first one and the new one.
So on any database the joined script has the outcomes of the first script and then those
that the second one has on the database left by it, and it ends in the same database. -/
theorem joined_script_runs_both {a b : String} {as bs : List Statement} {front : List Token}
    {last finish : Token} (ha : parse a = .ok as) (hne : as ≠ [])
    (htokens : tokenize a = .ok (front ++ [last, finish])) (hlast : last.kind ≠ .semicolon)
    (hb : parse b = .ok bs) :
    parse (a ++ ";\n" ++ b) =
        .ok (as ++ bs.map (Statement.move (Position.down (lineEnds a.toList + 1)))) ∧
      ∀ db : Database, ∃ first db' second db'',
        db.runScript a = (.ok first, db') ∧ db'.runScript b = (.ok second, db'') ∧
          db.runScript (a ++ ";\n" ++ b) =
            (.ok (first ++ second.map
              (Except.mapError (Located.move (Position.down (lineEnds a.toList + 1))))), db'') := by
  have hkind : (TokenStream.ofString a).lastKind? ≠ some .semicolon := by
    rw [lastKind?_of_tokenize htokens]
    exact fun heq => hlast (Option.some.inj heq)
  have hjoin := parse_join ha hne hkind hb
  refine ⟨hjoin, fun db => ?_⟩
  refine ⟨_, _, _, _, db.runScript_eq ha, Database.runScript_eq hb _, ?_⟩
  rw [db.runScript_eq hjoin, Database.executeAll_append, Database.executeAll_move]

set_option maxRecDepth 3000 in
/-- The second script fails in its first line, which is the third line of the joined one. -/
theorem joined_deletions_run_both :
    ∃ db, stock.runScript ("delete\nfrom stock" ++ ";\n" ++ "delete from shelf") =
      (.ok [.ok none, .error ⟨⟨3, 12⟩, .unknownTable "shelf"⟩], db) := by
  have ha : parse "delete\nfrom stock" = .ok [.delete ⟨⟨1, 0⟩, ⟨⟨2, 5⟩, "stock"⟩, none⟩] := by
    cbv
  have hb : parse "delete from shelf" = .ok [.delete ⟨⟨1, 0⟩, ⟨⟨1, 12⟩, "shelf"⟩, none⟩] := by
    cbv
  have htokens : tokenize "delete\nfrom stock" =
      .ok ([⟨.kwDelete, ⟨1, 0⟩, ""⟩, ⟨.kwFrom, ⟨2, 0⟩, ""⟩] ++
        [⟨.identifier, ⟨2, 5⟩, "stock"⟩, ⟨.eof, ⟨2, 10⟩, ""⟩]) := by
    cbv
  obtain ⟨first, db', second, db, hfirst, hsecond, hjoined⟩ :=
    (joined_script_runs_both ha (List.cons_ne_nil _ _) htokens (by decide) hb).2 stock
  rw [Database.runScript_eq ha] at hfirst
  cases hfirst
  rw [Database.runScript_eq hb] at hsecond
  cases hsecond
  exact ⟨_, hjoined⟩

end PocketSql

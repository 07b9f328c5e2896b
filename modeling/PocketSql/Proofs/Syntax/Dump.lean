import Mathlib
import PocketSql.Proofs.Token.OneLine
import PocketSql.Proofs.Syntax.SourceOrder

/-!
# The printed tree

The tree of a parsed statement is printed with one line for each node, by a visitor that counts
how deep it is.  A label stays on its line, for its literals and names do, and it does not begin
with a space.  So the indentation of a line ends where its label begins, and the lines give back
the depths and the labels of all nodes.
-/

namespace PocketSql

/-! ## Labels -/

theorem Literal.onOneLine_label (value : Literal) : OnOneLine value.label := by
  cases value with
  | null => decide
  | boolean value => cases value <;> decide
  | integer value =>
      exact .enclose (by decide) (Integer.solid_digits value.toInt).onOneLine (by decide)
  | number value => exact .enclose (by decide) (Number.solid_chars value).onOneLine (by decide)
  | string value => exact .enclose (by decide) (Text.onOneLine_quote value) (by decide)

theorem Kind.onOneLine_text (kind : Kind) : OnOneLine kind.text := by
  cases kind <;> decide

theorem ColumnDefinition.onOneLine_label (d : ColumnDefinition) (hname : OnOneLine d.name.name) :
    OnOneLine d.label := by
  have htype : OnOneLine d.type.name := by cases d.type <;> decide
  refine .append (.append (.append (.append (.append (.append (.append ?_ hname) ?_) htype)
    ?_) ?_) ?_) ?_
  · decide
  · decide
  · exact .ite (by decide) (by decide)
  · exact .ite (by decide) (by decide)
  · exact .ite (by decide) (by decide)
  · decide

theorem Statement.onOneLine_label (s : Statement) : OnOneLine s.label := by
  cases s <;> rw [label] <;> decide

/-- The text has a first character, which is no space. -/
def Unindented (text : String) : Prop :=
  text.toList.head?.any (· != ' ') = true

instance (text : String) : Decidable (Unindented text) :=
  inferInstanceAs (Decidable (_ = true))

namespace Unindented

theorem append {first : String} (hfirst : Unindented first) (second : String) :
    Unindented (first ++ second) := by
  obtain ⟨c, hhead, hc⟩ := (Option.any_eq_true _ _).mp hfirst
  rw [Unindented, String.toList_append, List.head?_append, hhead]
  exact hc

theorem enclose {front : String} (hfront : Unindented front) (text back : String) :
    Unindented (front ++ text ++ back) :=
  (hfront.append text).append back

end Unindented

theorem Statement.unindented_label (s : Statement) : Unindented s.label := by
  cases s <;> rw [label] <;> decide

theorem Literal.unindented_label (value : Literal) : Unindented value.label := by
  cases value with
  | null => exact (by decide : Unindented "Null")
  | boolean | integer | number | string => exact .enclose (by decide) _ _

theorem ColumnDefinition.unindented_label (d : ColumnDefinition) : Unindented d.label := by
  have hfront : Unindented "ColumnDefinition(" := by decide
  exact ((((((hfront.append _).append _).append _).append _).append _).append _).append _

namespace Node

/-- A label stays on its line if the name in it does. -/
theorem onOneLine_label (n : Node) (hname : ∀ name, n.name? = some name → OnOneLine name) :
    OnOneLine n.label := by
  cases n with
  | statement s => exact s.onOneLine_label
  | column d => exact d.onOneLine_label (hname _ rfl)
  | name n => exact .enclose (by decide) (hname _ rfl) (by decide)
  | expr e =>
      cases e with
      | ident n => exact .enclose (by decide) (hname _ rfl) (by decide)
      | literal position value => exact value.onOneLine_label
      | star => exact (by decide : OnOneLine "SelectStar")
      | unary _ op => exact .enclose (by decide) op.onOneLine_text (by decide)
      | binary op => exact .enclose (by decide) op.onOneLine_text (by decide)
      | call => exact (by decide : OnOneLine "FunctionCall")

theorem unindented_label (n : Node) : Unindented n.label := by
  cases n with
  | statement s => exact s.unindented_label
  | column d => exact d.unindented_label
  | name n => exact .enclose (by decide) _ _
  | expr e =>
      cases e with
      | literal position value => exact value.unindented_label
      | ident | unary | binary => exact .enclose (by decide) _ _
      | star => exact (by decide : Unindented "SelectStar")
      | call => exact (by decide : Unindented "FunctionCall")

end Node

/-! ## Lines -/

/-- The line of a node, less its line feed. -/
def treeLine (depth : Nat) (label : String) : List Char :=
  List.replicate (2 * depth) ' ' ++ label.toList

/-- The depth and the label in a line. -/
def readLine (line : List Char) : Nat × String :=
  ((line.takeWhile (· == ' ')).length / 2, String.ofList (line.dropWhile (· == ' ')))

theorem readLine_treeLine (depth : Nat) {label : String} (hlabel : Unindented label) :
    readLine (treeLine depth label) = (depth, label) := by
  obtain ⟨c, hhead, hc⟩ := (Option.any_eq_true _ _).mp hlabel
  have hspace : ¬(c == ' ') = true := by simpa using hc
  obtain ⟨rest, hrest⟩ := List.head?_eq_some_iff.mp hhead
  have htake : (treeLine depth label).takeWhile (· == ' ') = List.replicate (2 * depth) ' ' := by
    rw [treeLine, hrest, List.takeWhile_append_of_pos (by simp),
      List.takeWhile_cons_of_neg (p := (· == ' ')) hspace, List.append_nil]
  have hdrop : (treeLine depth label).dropWhile (· == ' ') = label.toList := by
    rw [treeLine, List.dropWhile_append_of_pos (by simp), hrest,
      List.dropWhile_cons_of_neg (p := (· == ' ')) hspace]
  rw [readLine, htake, hdrop, List.length_replicate, Nat.mul_div_cancel_left depth (by decide),
    String.ofList_toList]

namespace Outline

/-- All labels in the order of a walk with the depths of their nodes. -/
def labels (o : Outline) : List (Nat × String) :=
  o.nodes.map fun (depth, n) => (depth, n.label)

theorem toList_print (o : Outline) : o.print.toList =
    (o.labels.map fun (depth, label) => treeLine depth label).flatMap fun line =>
      line ++ ['\n'] := by
  rw [print, String.toList_join, labels, List.map_map, List.flatMap_map, List.flatMap_map]
  refine congrArg (fun f => o.nodes.flatMap f) (funext fun ⟨depth, n⟩ => ?_)
  simp [treeLine]

end Outline

/-! ## The printer -/

theorem join_indent (depth : Nat) :
    String.join (List.replicate depth indent) = String.ofList (List.replicate (2 * depth) ' ') := by
  have hindent : indent.toList = List.replicate 2 ' ' := rfl
  rw [← String.toList_inj, String.toList_ofList, String.toList_join, List.flatMap_replicate,
    hindent, List.flatten_replicate_replicate, Nat.mul_comm]

/-- The line that is printed for a node. -/
def nodeLine : Nat × Node → String :=
  fun (depth, n) => String.ofList (List.replicate (2 * depth) ' ') ++ n.label ++ "\n"

mutual

/-- By induction on the outline: the counter is the depth of the node, and is back where it was
behind the node. -/
theorem Outline.walk_printer : (o : Outline) → (out : String) → (depth : Nat) →
    o.walk printer ⟨out, depth⟩ = ⟨out ++ String.join ((o.preorder depth).map nodeLine), depth⟩
  | .node root children, out, depth => by
      have henter : printer.enter root ⟨out, depth⟩ =
          (true, ⟨out ++ nodeLine (depth, root), depth + 1⟩) := by
        rw [nodeLine, ← join_indent]
        rfl
      rw [walk_of_descending henter, Outline.walkAll_printer children, preorder, List.map_cons,
        String.join_cons, ← String.append_assoc]
      rfl

theorem Outline.walkAll_printer : (os : List Outline) → (out : String) → (depth : Nat) →
    Outline.walkAll printer os ⟨out, depth⟩ =
      ⟨out ++ String.join ((Outline.preorderAll depth os).map nodeLine), depth⟩
  | [], out, depth => congrArg (Printer.mk · depth) (String.append_empty).symm
  | o :: os, out, depth => by
      rw [walkAll, o.walk_printer, Outline.walkAll_printer os, preorderAll, List.map_append,
        String.join_append, String.append_assoc]

end

/-! ## Parsed statements -/

section Parsed

variable {text : String} {statements : List Statement}

/-- The names in the labels of a parsed statement are literals of its tokens. -/
theorem onOneLine_of_parse (hread : parse text = .ok statements) {s : Statement}
    (hs : s ∈ statements) : ∀ n ∈ s.outline.all, OnOneLine n.label := by
  intro n hn
  obtain ⟨ts, finish, hstream, hreads⟩ := readsOff_of_parse hread
  obtain ⟨t, ht, hmarks⟩ := (hreads s hs).exists_marks n hn
  have htokens := TokenStream.onOneLine_ofChars .start text.toList
  rw [← TokenStream.ofString, hstream, TokenStream.tokens_prepend] at htokens
  refine n.onOneLine_label fun name hname => ?_
  obtain ⟨hkind, rfl⟩ := hmarks.name name hname
  exact htokens t ht hkind

theorem splitOn_print (hread : parse text = .ok statements) {s : Statement}
    (hs : s ∈ statements) : s.outline.print.toList.splitOn '\n' =
      (s.outline.labels.map fun (depth, label) => treeLine depth label) ++ [[]] := by
  rw [Outline.toList_print]
  refine splitOn_lines fun line hline => ?_
  obtain ⟨_, hlabel, rfl⟩ := List.mem_map.mp hline
  obtain ⟨⟨depth, n⟩, hn, rfl⟩ := List.mem_map.mp hlabel
  have hlabel := onOneLine_of_parse hread hs n (List.mem_map.mpr ⟨_, hn, rfl⟩)
  change '\n' ∉ List.replicate (2 * depth) ' ' ++ n.label.toList
  rw [List.mem_append, not_or, List.mem_replicate]
  exact ⟨fun ⟨_, heq⟩ => absurd heq (by decide), hlabel⟩

end Parsed

/-- The lines give back the depths and the labels. -/
theorem Outline.map_readLine (o : Outline) :
    (o.labels.map fun (depth, label) => treeLine depth label).map readLine = o.labels := by
  rw [labels, List.map_map, List.map_map]
  exact List.map_congr_left fun (depth, n) _ => readLine_treeLine depth n.unindented_label

/-- The printer walks over the tree and writes a line for each node, in the order of the walk,
with two spaces for each level of depth in front of the label.  For a parsed statement these are
all lines of the text, and with it two of them have the same text exactly when they have the same
depths and labels in the order of the walk. -/
theorem dump_determines_labelled_tree :
    (∀ s : Statement, s.outline.walk printer ⟨"", 0⟩ = ⟨s.outline.print, 0⟩ ∧
      (s.outline.nodes.map Prod.snd = s.outline.entered fun _ => false) ∧
      ∀ depth n, (depth, n) ∈ s.outline.nodes ↔
        ∃ address : Address, address.length = depth ∧ (Node.statement s).at? address = some n) ∧
    (∀ text statements, parse text = .ok statements → ∀ s ∈ statements,
      s.outline.print.toList.splitOn '\n' = (s.outline.nodes.map fun (depth, n) =>
        List.replicate (2 * depth) ' ' ++ n.label.toList) ++ [[]]) ∧
    ∀ text text' statements statements', parse text = .ok statements →
      parse text' = .ok statements' → ∀ s ∈ statements, ∀ s' ∈ statements',
        (s.outline.print = s'.outline.print ↔ s.outline.labels = s'.outline.labels) := by
  refine ⟨fun s => ⟨?_, s.outline.entered_eq_all.symm, fun depth n => ?_⟩,
    fun text statements hread s hs => ?_, ?_⟩
  · rw [s.outline.walk_printer "" 0, String.empty_append]
    rfl
  · have hmem : (depth, n) ∈ s.outline.preorder 0 ↔
        ∃ address : Address, 0 + address.length = depth ∧ s.outline.root.at? address = some n :=
      (Outline.unfolded_statement s).mem_preorder
    simp only [Nat.zero_add] at hmem
    exact hmem
  · rw [splitOn_print hread hs, Outline.labels, List.map_map]
    rfl
  · intro text text' statements statements' hread hread' s hs s' hs'
    constructor
    · intro hprint
      have hlines := congrArg (fun text : String => text.toList.splitOn '\n') hprint
      simp only [splitOn_print hread hs, splitOn_print hread' hs'] at hlines
      rw [← s.outline.map_readLine, ← s'.outline.map_readLine, List.append_cancel_right hlines]
    · intro hlabels
      rw [← String.toList_inj, Outline.toList_print, Outline.toList_print, hlabels]

set_option maxRecDepth 4000 in
/-- A line feed in a literal and other positions make no difference to the lines. -/
theorem quoted_break_dumped :
    ∃ s s', parse "select 'a\n  b' from t" = .ok [s] ∧
      parse "SELECT\n'a\n  b' FROM T;" = .ok [s'] ∧
      s.outline.labels = [(0, "Select"), (1, "StringLiteral(\"a\\n  b\")"), (1, "Ident(t)")] ∧
      s.outline.print.toList.splitOn '\n' = (s.outline.nodes.map fun (depth, n) =>
        List.replicate (2 * depth) ' ' ++ n.label.toList) ++ [[]] ∧
      s.outline.print = s'.outline.print := by
  have hread : parse "select 'a\n  b' from t" =
      .ok [.select ⟨⟨1, 0⟩, [.literal ⟨1, 7⟩ (.string "a\n  b")], .ident ⟨⟨2, 10⟩, "t"⟩, none⟩] := by
    cbv
  have hread' : parse "SELECT\n'a\n  b' FROM T;" =
      .ok [.select ⟨⟨1, 0⟩, [.literal ⟨2, 0⟩ (.string "a\n  b")], .ident ⟨⟨3, 10⟩, "t"⟩, none⟩] := by
    cbv
  obtain ⟨-, hlines, hsame⟩ := dump_determines_labelled_tree
  refine ⟨_, _, hread, hread', ?_, hlines _ _ hread _ List.mem_cons_self, ?_⟩
  · decide +kernel
  · exact (hsame _ _ _ _ hread hread' _ List.mem_cons_self _ List.mem_cons_self).mpr
      (by decide +kernel)

end PocketSql

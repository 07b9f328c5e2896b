import Mathlib
import PocketSql.Proofs.Token.Spelling

/-!
# Tokens side by side

Most tokens need no blank between them.  Punctuation of a single character ends wherever it
stands.  A word, a number or a string ends in front of every character that neither goes on
with a word or a number nor doubles a quote.  So what a text is read as is put together from
its back: each token is put in front of a text whose tokens are known.
-/

namespace PocketSql

/-- The stream has tokens of these kinds and literals, and then ends. -/
def TokenStream.Offers : TokenStream → List (Kind × String) → Prop
  | s, [] => ∃ finish, s = done finish
  | s, (kind, literal) :: contents =>
    ∃ position rest, s = next ⟨kind, position, literal⟩ rest ∧ rest.Offers contents

/-- The text is read as tokens of these kinds and literals. -/
def Written (contents : List (Kind × String)) (text : List Char) : Prop :=
  ∀ position, (TokenStream.ofChars position text).Offers contents

/-- In front of every text that is set off, the spelling is read as the tokens. -/
def Spells (tokens : List (Kind × String)) (spelling : List Char) : Prop :=
  ∀ contents rest, SetOff rest → Written contents rest →
    Written (tokens ++ contents) (spelling ++ rest)

theorem setOff_nil : SetOff [] := by
  rintro c ⟨⟩

theorem separators_all : [' ', ',', ')'].all
    (fun c => !Text.isWordPart c && !Lexeme.isNumberPart c && c != '\'') := by
  decide +kernel

theorem setOff_cons {c : Char} (hc : c ∈ [' ', ',', ')']) (rest : List Char) :
    SetOff (c :: rest) := by
  rintro _ ⟨⟩
  simpa [and_assoc] using List.all_eq_true.mp separators_all c hc

/-! ## Single tokens -/

section Tokens

variable {contents : List (Kind × String)} {rest : List Char} {kind : Kind} {literal : String}

theorem written_nil : Written [] [] :=
  fun position => ⟨position, TokenStream.ofChars_nil position⟩

theorem Written.blank (hrest : Written contents rest) : Written contents (' ' :: rest) := by
  intro position
  rw [TokenStream.ofChars_blank]
  exact hrest _

/-- A lexeme in front of a text that is read. -/
theorem Written.lexeme {c : Char} (more : List Char) (hblank : Text.isBlank c = false)
    (hread : Lexeme.read c (more ++ rest) = .ok ⟨kind, literal, c :: more, rest⟩)
    (hrest : Written contents rest) :
    Written ((kind, literal) :: contents) (c :: more ++ rest) := by
  intro position
  rw [List.cons_append, TokenStream.ofChars_cons _ hblank, hread]
  exact ⟨position, _, rfl, hrest _⟩

/-- Punctuation that no longer symbol begins with. -/
theorem Written.punctuation (hrest : Written contents rest) (kind : Kind)
    (hkind : kind ∈ [Kind.leftParen, .rightParen, .comma, .minus, .star]) :
    Written ((kind, "") :: contents) (kind.text.toList ++ rest) := by
  simp only [List.mem_cons, List.not_mem_nil, or_false] at hkind
  rcases hkind with rfl | rfl | rfl | rfl | rfl
  all_goals exact .lexeme [] (by decide +kernel) rfl hrest

theorem StandsApart.spells {spelling : List Char} (happart : StandsApart spelling kind literal) :
    Spells [(kind, literal)] spelling := by
  obtain ⟨c, more, rfl, hblank, hread⟩ := happart
  exact fun contents rest hset hrest => .lexeme more hblank (hread rest hset) hrest

/-- A blank sets off a word from the next one. -/
theorem Written.word {spelling : List Char} (hrest : Written contents rest)
    (happart : StandsApart spelling kind literal) :
    Written ((kind, literal) :: contents) (spelling ++ ' ' :: rest) :=
  happart.spells contents _ (setOff_cons (by decide) rest) hrest.blank

theorem Written.keyword (hrest : Written contents rest) (kind : Kind)
    (hkind : kind ∈ Kind.keywords) :
    Written ((kind, "") :: contents) (kind.text.toList ++ ' ' :: rest) :=
  hrest.word (standsApart_keyword hkind)

theorem Spells.blank {tokens tokens' : List (Kind × String)} {spelling spelling' : List Char}
    (hfirst : Spells tokens spelling) (hsecond : Spells tokens' spelling') :
    Spells (tokens ++ tokens') (spelling ++ ' ' :: spelling') := by
  intro contents rest hset hrest
  rw [List.append_assoc, List.append_assoc, List.cons_append]
  exact hfirst _ _ (setOff_cons (by decide) _) (hsecond contents rest hset hrest).blank

end Tokens

/-! ## Lists -/

/-- Items are set off from each other by commas with blanks behind them. -/
theorem spells_list {α : Type} {tokens : α → List (Kind × String)} {spelling : α → List Char}
    {items : List α} (hitems : ∀ item ∈ items, Spells (tokens item) (spelling item)) :
    Spells ([(.comma, "")].intercalate (items.map tokens))
      ([',', ' '].intercalate (items.map spelling)) := by
  intro contents rest hset hrest
  induction items with
  | nil => exact hrest
  | cons item items ih =>
      obtain ⟨hitem, hothers⟩ := List.forall_mem_cons.mp hitems
      cases items with
      | nil => simpa using hitem contents rest hset hrest
      | cons item' items =>
          have hlist := hitem _ _ (setOff_cons (c := ',') (by decide) _)
            ((ih hothers).blank.punctuation .comma (by decide))
          simpa [List.intercalate_cons_cons] using hlist

/-- What stands in parentheses at the end of a text. -/
theorem Spells.enclosed {tokens : List (Kind × String)} {spelling : List Char}
    (hspells : Spells tokens spelling) :
    Written ((.leftParen, "") :: (tokens ++ [(.rightParen, "")]))
      ('(' :: (spelling ++ [')'])) := by
  have hend : Written [(.rightParen, "")] [')'] :=
    written_nil.punctuation .rightParen (by decide)
  exact (hspells _ _ (setOff_cons (by decide) []) hend).punctuation .leftParen (by decide)

end PocketSql

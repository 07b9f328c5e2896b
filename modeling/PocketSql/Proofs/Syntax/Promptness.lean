import Mathlib
import PocketSql.Proofs.Syntax.StatementReading
import PocketSql.Proofs.Token.Spelling

/-!
# Prompt readers

A reader is prompt when it refuses a stream at the first token that cannot go on.  What it
has read until then can be completed, by tokens of some text that it reads whatever stands
behind them; it has not looked behind the token that it refuses; and it does not name that
token among those that it expects.

Readers are put together from prompt readers.  A reader carries the kinds that its text
can begin with and those that can stand behind it, so that a completion of one part does
not become a part of the text in front of it.
-/

namespace PocketSql

open Parse (outcome)
open TokenStream

/-- A way to read a value from the front of a stream. -/
abbrev Reader (α : Type) := TokenStream → Except SyntaxError (α × TokenStream)

/-- The error for a token that does not fit. -/
def refusal (position : Position) (found : Kind) (expected : List Kind) : SyntaxError :=
  .grammatical ⟨position, .unexpected found expected⟩

namespace TokenStream

/-- The stream stands at the token, or at the end, that an error names. -/
def StandsAt (position : Position) (found : Kind) : TokenStream → Prop
  | done finish => finish = position ∧ .eof = found
  | broken _ => False
  | next t _ => t.position = position ∧ t.kind = found

/-- Two streams begin with the same token, or are both at the same end. -/
def SameHead : TokenStream → TokenStream → Prop
  | done p, done q => p = q
  | next t _, next u _ => t = u
  | _, _ => False

theorem SameHead.nextKind?_eq {s s' : TokenStream} (hsame : s.SameHead s') :
    s'.nextKind? = s.nextKind? := by
  cases s <;> cases s' <;> cases hsame <;> rfl

theorem SameHead.unexpected_eq {s s' : TokenStream} (hsame : s.SameHead s')
    (expected : List Kind) : s'.unexpected expected = s.unexpected expected := by
  cases s <;> cases s' <;> cases hsame <;> rfl

end TokenStream

section Definitions

variable {α : Type} (first follow : List Kind) (R : Reader α)

/-- Some tokens, all of which can be written, are read whatever stands behind them. -/
def Completes : Prop :=
  ∃ (ts : List Token) (a : α), (∀ t ∈ ts, t.WellFormed) ∧
    ∀ rest : TokenStream, rest.NextIn follow →
      (rest.prepend ts).NextIn first ∧ R (rest.prepend ts) = .ok (a, rest)

/-- The reader takes these tokens from every stream that goes on with the same kind, or
with one that can stand behind its text. -/
def Takes (front : List Token) (a : α) (rest : TokenStream) : Prop :=
  ∀ rest' : TokenStream, rest'.nextKind? = rest.nextKind? ∨ rest'.NextIn follow →
    R (rest'.prepend front) = .ok (a, rest')

/-- The reader refuses the token behind the front.  Whatever stands behind that token, it
does so; and other tokens complete the front. -/
structure RefusesBehind (position : Position) (found : Kind) (expected : List Kind)
    (front : List Token) (offender : TokenStream) : Prop where
  stands : offender.StandsAt position found
  not_expected : found ∉ expected
  same : ∀ s, offender.SameHead s → R (s.prepend front) = .error (refusal position found expected)
  completes : ∃ (back : List Token) (a : α), (∀ t ∈ back, t.WellFormed) ∧
    ∀ rest : TokenStream, rest.NextIn follow →
      (front = [] → (rest.prepend back).NextIn first) ∧
        R ((rest.prepend back).prepend front) = .ok (a, rest)

/-- On the stream the reader is prompt. -/
structure PromptAt (s : TokenStream) : Prop where
  reads : ∀ {a : α} {rest : TokenStream}, R s = .ok (a, rest) →
    ∃ front, s = rest.prepend front ∧ (front = [] → follow ⊆ first) ∧ Takes follow R front a rest
  refuses : ∀ {position : Position} {found : Kind} {expected : List Kind},
    R s = .error (refusal position found expected) →
      ∃ front offender, s = offender.prepend front ∧
        RefusesBehind first follow R position found expected front offender

/-- On all streams of fewer than `bound` tokens the reader is prompt. -/
structure Prompt (bound : Nat) : Prop where
  completes : Completes first follow R
  promptAt : ∀ s : TokenStream, s.length < bound → PromptAt first follow R s

end Definitions

section Rules

variable {α β γ : Type} {first follow first' follow' : List Kind} {R : Reader α} {s : TokenStream}

theorem length_le_of_prepend {rest : TokenStream} {front : List Token}
    (hs : s = rest.prepend front) : rest.length ≤ s.length := by
  rw [hs, length_prepend]
  exact Nat.le_add_right _ _

/-! ## Fronts of two parts -/

section Fronts

variable {K : α × TokenStream → Except SyntaxError (β × TokenStream)}
  {front front₁ front₂ : List Token} {a : α} {b : β} {rest offender : TokenStream}

/-- Behind tokens comes the first of them next, behind none what came next before. -/
theorem nextKind?_prepend {mid mid' : TokenStream}
    (hmid : front = [] → mid'.nextKind? = mid.nextKind? ∨ mid'.NextIn follow) :
    (mid'.prepend front).nextKind? = (mid.prepend front).nextKind? ∨
      (mid'.prepend front).NextIn follow := by
  cases front with
  | nil => exact hmid rfl
  | cons t front => exact .inl rfl

theorem Takes.bind (htakes₁ : Takes follow R front₁ a (rest.prepend front₂))
    (htakes₂ : Takes follow' (fun s => K (a, s)) front₂ b rest)
    (hbehind : front₂ = [] → follow' ⊆ follow) :
    Takes follow' (fun s => R s >>= K) (front₁ ++ front₂) b rest := by
  intro rest' hrest'
  have hfront := htakes₁ (rest'.prepend front₂)
    (nextKind?_prepend fun hnil => hrest'.imp_right (·.mono (hbehind hnil)))
  rw [prepend_append]
  exact bind_eq_ok.mpr ⟨_, hfront, htakes₂ rest' hrest'⟩

namespace RefusesBehind

variable {position : Position} {found : Kind} {expected : List Kind}

/-- The first part is refused, and the second part completes what completes the first. -/
theorem bind (hrefuses : RefusesBehind first follow R position found expected front offender)
    (hcompletes : ∀ a, Completes first' follow' fun s => K (a, s)) (hsubset : first' ⊆ follow) :
    RefusesBehind first follow' (fun s => R s >>= K) position found expected front offender where
  stands := hrefuses.stands
  not_expected := hrefuses.not_expected
  same := fun s hsame => bind_of_error (hrefuses.same s hsame)
  completes := by
    obtain ⟨back₁, a, hwell₁, hback₁⟩ := hrefuses.completes
    obtain ⟨back₂, b, hwell₂, hback₂⟩ := hcompletes a
    refine ⟨back₁ ++ back₂, b, List.forall_mem_append.mpr ⟨hwell₁, hwell₂⟩, fun rest hrest => ?_⟩
    obtain ⟨hbegins₂, hread₂⟩ := hback₂ rest hrest
    obtain ⟨hbegins₁, hread₁⟩ := hback₁ _ (hbegins₂.mono hsubset)
    rw [prepend_append]
    exact ⟨hbegins₁, bind_eq_ok.mpr ⟨_, hread₁, hread₂⟩⟩

/-- The second part is refused behind the first. -/
theorem behind (hrefuses : RefusesBehind first' follow' (fun s => K (a, s)) position found expected
      front₂ offender)
    (htakes : Takes follow R front₁ a (offender.prepend front₂))
    (hempty : front₁ = [] → follow ⊆ first) (hsubset : first' ⊆ follow) :
    RefusesBehind first follow' (fun s => R s >>= K) position found expected (front₁ ++ front₂)
      offender where
  stands := hrefuses.stands
  not_expected := hrefuses.not_expected
  same := by
    intro s hsame
    have hfront := htakes (s.prepend front₂) (nextKind?_prepend fun _ => .inl hsame.nextKind?_eq)
    rw [prepend_append]
    exact bind_of_ok hfront (hrefuses.same s hsame)
  completes := by
    obtain ⟨back, b, hwell, hback⟩ := hrefuses.completes
    refine ⟨back, b, hwell, fun rest hrest => ?_⟩
    obtain ⟨hbegins, hread⟩ := hback rest hrest
    have hfront := htakes ((rest.prepend back).prepend front₂)
      (nextKind?_prepend fun hnil => .inr ((hbegins hnil).mono hsubset))
    refine ⟨fun hnil => ?_, ?_⟩
    · obtain ⟨rfl, rfl⟩ := List.append_eq_nil_iff.mp hnil
      exact ((hbegins rfl).mono hsubset).mono (hempty rfl)
    · rw [prepend_append]
      exact bind_eq_ok.mpr ⟨_, hfront, hread⟩

end RefusesBehind

end Fronts

/-! ## Rules for single streams -/

namespace PromptAt

/-- An error that is about no token that does not fit. -/
theorem of_error {e : SyntaxError} (hR : R s = .error e)
    (he : ∀ position found expected, e ≠ refusal position found expected) :
    PromptAt first follow R s where
  reads := by
    intro a rest hread
    cases hR.symm.trans hread
  refuses := by
    intro position found expected hrefused
    cases hR.symm.trans hrefused
    exact absurd rfl (he position found expected)

theorem ok (a : α) (hsubset : follow ⊆ first) : PromptAt first follow (fun s => .ok (a, s)) s where
  reads := by
    rintro _ _ ⟨⟩
    exact ⟨[], rfl, fun _ => hsubset, fun _ _ => rfl⟩
  refuses := nofun

/-- Nothing is read of a stream that does not begin as it should. -/
theorem refused {expected : List Kind}
    (hR : ∀ s : TokenStream, (∀ kind ∈ expected, s.nextKind? ≠ some kind) →
      R s = .error (s.unexpected expected))
    (hs : ∀ kind ∈ expected, s.nextKind? ≠ some kind) (hcompletes : Completes first follow R) :
    PromptAt first follow R s where
  reads := by
    intro a rest hread
    cases (hR s hs).symm.trans hread
  refuses := by
    intro position found expected' hrefused
    have herror := Except.error.inj ((hR s hs).symm.trans hrefused)
    have hstands : s.StandsAt position found ∧ found ∉ expected' := by
      cases s with
      | broken e => cases herror
      | done finish =>
          cases herror
          exact ⟨⟨rfl, rfl⟩, fun hmem => hs _ hmem rfl⟩
      | next t rest =>
          cases herror
          exact ⟨⟨rfl, rfl⟩, fun hmem => hs _ hmem rfl⟩
    refine ⟨[], s, rfl, hstands.1, hstands.2, ?_, ?_⟩
    · intro s' hsame
      have hs' : ∀ kind ∈ expected, s'.nextKind? ≠ some kind := by
        rw [hsame.nextKind?_eq]
        exact hs
      rw [prepend_nil, hR s' hs', hsame.unexpected_eq, herror]
    · obtain ⟨back, a, hwell, hback⟩ := hcompletes
      refine ⟨back, a, hwell, fun rest hrest => ?_⟩
      obtain ⟨hbegins, hread⟩ := hback rest hrest
      exact ⟨fun _ => hbegins, hread⟩

/-- The reader has taken a token and goes on as another one. -/
theorem next {t : Token} {rest : TokenStream} {R' : Reader α}
    (hR : ∀ s, R (.next t s) = R' s) (hrest : PromptAt first' follow R' rest) :
    PromptAt first follow R (.next t rest) where
  reads := by
    intro a rest' hread
    obtain ⟨front, rfl, -, htakes⟩ := hrest.reads ((hR rest).symm.trans hread)
    refine ⟨t :: front, rfl, nofun, fun s hs => ?_⟩
    rw [prepend_cons, hR]
    exact htakes s hs
  refuses := by
    intro position found expected hrefused
    obtain ⟨front, offender, rfl, hrefuses⟩ := hrest.refuses ((hR rest).symm.trans hrefused)
    refine ⟨t :: front, offender, rfl, hrefuses.stands, hrefuses.not_expected, ?_, ?_⟩
    · intro s hsame
      rw [prepend_cons, hR]
      exact hrefuses.same s hsame
    · obtain ⟨back, a, hwell, hback⟩ := hrefuses.completes
      refine ⟨back, a, hwell, fun rest' hrest' => ⟨nofun, ?_⟩⟩
      rw [prepend_cons, hR]
      exact (hback rest' hrest').2

/-- The reader does as another one does, as long as a token of certain kinds comes next. -/
theorem congr {R' : Reader α} {P : Kind → Prop}
    (hR : ∀ s kind, s.nextKind? = some kind → P kind → R s = R' s)
    (hs : ∃ kind, s.nextKind? = some kind ∧ P kind) (hP : ∀ kind ∈ first', P kind)
    (hsubset : first' ⊆ first) (hprompt : PromptAt first' follow R' s) :
    PromptAt first follow R s := by
  obtain ⟨kind, hkind, hPkind⟩ := hs
  -- behind a front the next kind is that of the front, behind none it is still as it should be
  have agrees (front : List Token) (u v : TokenStream) (hu : s = u.prepend front)
      (hv : front = [] → v.nextKind? = u.nextKind? ∨ v.NextIn first') :
      R (v.prepend front) = R' (v.prepend front) := by
    subst hu
    cases front with
    | cons t front => exact hR _ kind hkind hPkind
    | nil =>
        rcases hv rfl with hsame | ⟨kind', hmem, hkind'⟩
        · exact hR _ kind (hsame.trans hkind) hPkind
        · exact hR _ kind' hkind' (hP kind' hmem)
  have hself : R s = R' s := hR s kind hkind hPkind
  constructor
  · intro a rest hread
    obtain ⟨front, hsplit, hempty, htakes⟩ := hprompt.reads (hself.symm.trans hread)
    refine ⟨front, hsplit, fun hnil => List.Subset.trans (hempty hnil) hsubset, ?_⟩
    intro rest' hrest'
    rw [agrees front rest rest' hsplit fun hnil => hrest'.imp_right (·.mono (hempty hnil))]
    exact htakes rest' hrest'
  · intro position found expected hrefused
    obtain ⟨front, offender, hsplit, hrefuses⟩ := hprompt.refuses (hself.symm.trans hrefused)
    refine ⟨front, offender, hsplit, hrefuses.stands, hrefuses.not_expected, ?_, ?_⟩
    · intro s' hsame
      rw [agrees front offender s' hsplit fun _ => .inl hsame.nextKind?_eq]
      exact hrefuses.same s' hsame
    · obtain ⟨back, a, hwell, hback⟩ := hrefuses.completes
      refine ⟨back, a, hwell, fun rest hrest => ?_⟩
      obtain ⟨hbegins, hread⟩ := hback rest hrest
      refine ⟨fun hnil => (hbegins hnil).mono hsubset, ?_⟩
      rw [agrees front offender (rest.prepend back) hsplit fun hnil => .inr (hbegins hnil)]
      exact hread

/-- A check of something that does not depend on the stream. -/
theorem check {x : Except SyntaxError γ} {K : γ → Reader α}
    (hx : ∀ e, x = .error e → ∀ position found expected, e ≠ refusal position found expected)
    (hK : ∀ c, x = .ok c → PromptAt first follow (K c) s) :
    PromptAt first follow (fun s => x >>= fun c => K c s) s := by
  cases x with
  | error e => exact of_error rfl (hx e rfl)
  | ok c => exact hK c rfl

/-- A text of two parts.  What the second part can begin with can stand behind the first. -/
theorem bind {K : α × TokenStream → Except SyntaxError (β × TokenStream)}
    (hR : PromptAt first follow R s) (hcompletes : ∀ a, Completes first' follow' fun s => K (a, s))
    (hK : ∀ a rest, R s = .ok (a, rest) → PromptAt first' follow' (fun s => K (a, s)) rest)
    (hsubset : first' ⊆ follow) : PromptAt first follow' (fun s => R s >>= K) s := by
  constructor
  · intro b rest hread
    obtain ⟨⟨a, mid⟩, hfirst, hsecond⟩ := bind_eq_ok.mp hread
    obtain ⟨front₁, rfl, hempty₁, htakes₁⟩ := hR.reads hfirst
    obtain ⟨front₂, rfl, hempty₂, htakes₂⟩ := (hK a _ hfirst).reads hsecond
    have hbehind (hnil : front₂ = []) : follow' ⊆ follow :=
      List.Subset.trans (hempty₂ hnil) hsubset
    refine ⟨front₁ ++ front₂, by rw [prepend_append], ?_, htakes₁.bind htakes₂ hbehind⟩
    intro hnil
    obtain ⟨rfl, rfl⟩ := List.append_eq_nil_iff.mp hnil
    exact List.Subset.trans (hbehind rfl) (hempty₁ rfl)
  · intro position found expected hrefused
    cases hfirst : R s with
    | error e =>
        rw [hfirst] at hrefused
        cases hrefused
        obtain ⟨front, offender, hsplit, hrefuses⟩ := hR.refuses hfirst
        exact ⟨front, offender, hsplit, hrefuses.bind hcompletes hsubset⟩
    | ok parsed =>
        obtain ⟨a, mid⟩ := parsed
        obtain ⟨front₁, rfl, hempty₁, htakes₁⟩ := hR.reads hfirst
        have hsecond : K (a, mid) = .error (refusal position found expected) := by
          rw [hfirst] at hrefused
          exact hrefused
        obtain ⟨front₂, offender, rfl, hrefuses⟩ := (hK a _ hfirst).refuses hsecond
        exact ⟨front₁ ++ front₂, offender, by rw [prepend_append],
          hrefuses.behind htakes₁ hempty₁ hsubset⟩

end PromptAt

namespace Completes

theorem ok (a : α) (hsubset : follow ⊆ first) : Completes first follow fun s => .ok (a, s) :=
  ⟨[], a, List.forall_mem_nil _, fun _ hrest => ⟨hrest.mono hsubset, rfl⟩⟩

theorem congr {R' : Reader α} {P : Kind → Prop}
    (hR : ∀ s kind, s.nextKind? = some kind → P kind → R s = R' s)
    (hP : ∀ kind ∈ first', P kind) (hsubset : first' ⊆ first)
    (hcompletes : Completes first' follow R') : Completes first follow R := by
  obtain ⟨ts, a, hwell, hts⟩ := hcompletes
  refine ⟨ts, a, hwell, fun rest hrest => ?_⟩
  obtain ⟨hbegins, hread⟩ := hts rest hrest
  refine ⟨hbegins.mono hsubset, ?_⟩
  obtain ⟨kind, hmem, hkind⟩ := hbegins
  exact (hR _ kind hkind (hP kind hmem)).trans hread

theorem bind {K : α × TokenStream → Except SyntaxError (β × TokenStream)}
    (hR : Completes first follow R) (hK : ∀ a, Completes first' follow' fun s => K (a, s))
    (hsubset : first' ⊆ follow) : Completes first follow' fun s => R s >>= K := by
  obtain ⟨ts, a, hwell, hts⟩ := hR
  obtain ⟨us, b, hwell', hus⟩ := hK a
  refine ⟨ts ++ us, b, List.forall_mem_append.mpr ⟨hwell, hwell'⟩, fun rest hrest => ?_⟩
  obtain ⟨hbegins, hread⟩ := hus rest hrest
  obtain ⟨hbegins', hread'⟩ := hts _ (hbegins.mono hsubset)
  rw [prepend_append]
  exact ⟨hbegins', bind_eq_ok.mpr ⟨_, hread', hread⟩⟩

end Completes

/-! ## Rules for readers -/

namespace Prompt

variable {bound : Nat}

theorem ok (a : α) (hsubset : follow ⊆ first) : Prompt first follow (fun s => .ok (a, s)) bound :=
  ⟨.ok a hsubset, fun _ _ => .ok a hsubset⟩

theorem bind {K : α × TokenStream → Except SyntaxError (β × TokenStream)}
    (hR : Prompt first follow R bound) (first' : List Kind) (hsubset : first' ⊆ follow)
    (hK : ∀ a, Prompt first' follow' (fun s => K (a, s)) bound) :
    Prompt first follow' (fun s => R s >>= K) bound where
  completes := hR.completes.bind (fun a => (hK a).completes) hsubset
  promptAt := by
    intro s hs
    refine (hR.promptAt s hs).bind (fun a => (hK a).completes) (fun a rest hread => ?_) hsubset
    obtain ⟨front, hsplit, -⟩ := (hR.promptAt s hs).reads hread
    exact (hK a).promptAt rest (lt_of_le_of_lt (length_le_of_prepend hsplit) hs)

/-- Only a value is computed from what has been read. -/
theorem map (hR : Prompt first follow R bound) (f : α → β) :
    Prompt first follow (fun s => R s >>= fun (a, rest) => .ok (f a, rest)) bound :=
  hR.bind follow (List.Subset.refl follow) fun a => .ok (f a) (List.Subset.refl follow)

theorem congr {R' : Reader α} {P : Kind → Prop}
    (hR : ∀ s kind, s.nextKind? = some kind → P kind → R s = R' s)
    (hP : ∀ kind ∈ first', P kind) (hsubset : first' ⊆ first)
    (hprompt : Prompt first' follow R' bound)
    (hother : ∀ s : TokenStream, s.length < bound →
      (∀ kind, s.nextKind? = some kind → ¬P kind) → PromptAt first follow R s) :
    Prompt first follow R bound where
  completes := hprompt.completes.congr hR hP hsubset
  promptAt := by
    intro s hs
    by_cases hnext : ∃ kind, s.nextKind? = some kind ∧ P kind
    · exact .congr hR hnext hP hsubset (hprompt.promptAt s hs)
    · exact hother s hs fun kind hkind hPkind => hnext ⟨kind, hkind, hPkind⟩

end Prompt

/-! ## Single tokens -/

theorem ne_refusal_lexical (e : LexError) (position : Position) (found : Kind)
    (expected : List Kind) : SyntaxError.lexical e ≠ refusal position found expected :=
  nofun

theorem expectAmong_of_ne {expected : List Kind} {kind : Kind} {s : TokenStream}
    (hs : s.nextKind? ≠ some kind) :
    outcome (s.expectAmong expected kind) = .error (s.unexpected expected) := by
  cases s with
  | done | broken => rfl
  | next t rest =>
      have hkind : t.kind ≠ kind := fun heq => hs (congrArg some heq)
      rw [expectAmong, if_neg hkind, outcome_error]

theorem expectAmong_next {expected : List Kind} {kind : Kind} {t : Token} (hkind : t.kind = kind)
    (rest : TokenStream) : outcome ((next t rest).expectAmong expected kind) = .ok (t, rest) := by
  rw [expectAmong, if_pos hkind, outcome_ok]

theorem completes_expectAmong (expected : List Kind) {kind : Kind} (heof : kind ≠ .eof)
    (follow : List Kind) :
    Completes [kind] follow fun s => outcome (s.expectAmong expected kind) := by
  obtain ⟨t, rfl, hwell⟩ := Token.exists_wellFormed heof
  exact ⟨[t], t, List.forall_mem_singleton.mpr hwell, fun rest _ =>
    ⟨nextIn_next (List.mem_singleton_self t.kind) rest, expectAmong_next rfl rest⟩⟩

/-- A token that has to come next, where no other one that is named comes next. -/
theorem promptAt_expectAmong {expected : List Kind} {kind : Kind} (heof : kind ≠ .eof)
    (hmem : kind ∈ expected) (hs : ∀ other ∈ expected, other = kind ∨ s.nextKind? ≠ some other) :
    PromptAt [kind] follow (fun s => outcome (s.expectAmong expected kind)) s := by
  by_cases hkind : s.nextKind? = some kind
  · cases s with
    | done => exact absurd (Option.some.inj hkind).symm heof
    | broken => cases hkind
    | next t rest =>
        exact .next (expectAmong_next (Option.some.inj hkind)) (.ok t (List.Subset.refl follow))
  · refine .refused (fun s hs => expectAmong_of_ne (hs kind hmem)) ?_
      (completes_expectAmong expected heof follow)
    intro other hother
    rcases hs other hother with rfl | hne
    · exact hkind
    · exact hne

theorem prompt_expect (kind : Kind) (heof : kind ≠ .eof) (bound : Nat) :
    Prompt [kind] follow (fun s => outcome (s.expect kind)) bound where
  completes := completes_expectAmong [kind] heof follow
  promptAt := fun _ _ => promptAt_expectAmong heof (List.mem_singleton_self kind)
    fun _ hother => .inl (List.mem_singleton.mp hother)

/-- A token that has to come next, with what stands behind it. -/
theorem prompt_behind (kind : Kind) (heof : kind ≠ .eof) (first' : List Kind) {bound : Nat}
    {K : Token × TokenStream → Except SyntaxError (α × TokenStream)}
    (hK : ∀ t, Prompt first' follow (fun s => K (t, s)) bound) :
    Prompt [kind] follow (fun s => outcome (s.expect kind) >>= K) bound :=
  (prompt_expect kind heof bound).bind first' (List.Subset.refl first') hK

theorem prompt_expectIdent (bound : Nat) :
    Prompt [.identifier] follow (fun s => outcome s.expectIdent) bound := by
  rw [funext outcome_expectIdent]
  exact (prompt_expect .identifier (by decide) bound).map fun t => (⟨t.position, t.literal⟩ : Ident)

/-- An optional token, with what stands behind it or in its place. -/
theorem promptAt_accept {kind : Kind} (heof : kind ≠ .eof) (hkind : kind ∉ first)
    {K : Bool × TokenStream → Except SyntaxError (α × TokenStream)}
    (htrue : ∀ t rest, s = next t rest → t.kind = kind →
      PromptAt first' follow (fun s => K (true, s)) rest)
    (hfalse : PromptAt first follow (fun s => K (false, s)) s) :
    PromptAt first follow (fun s => outcome (s.accept kind) >>= K) s := by
  have hother (s : TokenStream) (other : Kind) (hs : s.nextKind? = some other)
      (hne : other ≠ kind) : outcome (s.accept kind) >>= K = K (false, s) := by
    rw [(accept_false heof).mpr ⟨rfl, other, hs, hne⟩]
    rfl
  cases s with
  | done finish =>
      exact hfalse.congr hother ⟨.eof, rfl, heof.symm⟩
        (fun _ hmem heq => hkind (heq ▸ hmem)) (List.Subset.refl first)
  | broken e => exact .of_error rfl (ne_refusal_lexical e)
  | next t rest =>
      by_cases ht : t.kind = kind
      · have hnext (s : TokenStream) : outcome ((next t s).accept kind) >>= K = K (true, s) := by
          rw [accept_next ht]
          rfl
        exact .next hnext (htrue t rest rfl ht)
      · exact hfalse.congr hother ⟨t.kind, rfl, ht⟩
          (fun _ hmem heq => hkind (heq ▸ hmem)) (List.Subset.refl first)

theorem completes_accept {kind : Kind} (heof : kind ≠ .eof) (hkind : kind ∉ first)
    {K : Bool × TokenStream → Except SyntaxError (α × TokenStream)}
    (hfalse : Completes first follow fun s => K (false, s)) :
    Completes first follow fun s => outcome (s.accept kind) >>= K := by
  refine hfalse.congr (P := (· ≠ kind)) (fun s other hs hne => ?_)
    (fun _ hmem heq => hkind (heq ▸ hmem)) (List.Subset.refl first)
  rw [(accept_false heof).mpr ⟨rfl, other, hs, hne⟩]
  rfl

theorem prompt_accept {bound : Nat} {kind : Kind} (heof : kind ≠ .eof) (hkind : kind ∉ first)
    {K : Bool × TokenStream → Except SyntaxError (α × TokenStream)}
    (htrue : ∃ first', Prompt first' follow (fun s => K (true, s)) bound)
    (hfalse : Prompt first follow (fun s => K (false, s)) bound) :
    Prompt first follow (fun s => outcome (s.accept kind) >>= K) bound where
  completes := completes_accept heof hkind hfalse.completes
  promptAt := by
    intro s hs
    obtain ⟨first', hprompt⟩ := htrue
    have hbehind : ∀ t rest, s = next t rest → t.kind = kind →
        PromptAt first' follow (fun s => K (true, s)) rest := by
      rintro t rest rfl -
      rw [TokenStream.length] at hs
      exact hprompt.promptAt rest (by omega)
    exact promptAt_accept heof hkind hbehind (hfalse.promptAt s hs)

/-! ## Lists -/

section Lists

variable {bound : Nat} {item : Reader α} {list : Reader (List α)}

theorem completes_list
    (hlist : ∀ s, list s = item s >>= fun (first, rest) =>
      outcome (rest.accept .comma) >>= fun (more, rest) =>
        if more then list rest >>= fun (others, rest) => .ok (first :: others, rest)
        else .ok ([first], rest))
    (hitem : Completes first follow item) (hfollow : follow' ⊆ follow)
    (hcomma : .comma ∉ follow') : Completes first follow' list := by
  rw [funext hlist]
  exact hitem.bind (fun a => completes_accept (by decide) hcomma
    (.ok [a] (List.Subset.refl follow'))) hfollow

/-- One more item, and the items behind the next comma. -/
theorem prompt_list_succ
    (hlist : ∀ s, list s = item s >>= fun (first, rest) =>
      outcome (rest.accept .comma) >>= fun (more, rest) =>
        if more then list rest >>= fun (others, rest) => .ok (first :: others, rest)
        else .ok ([first], rest))
    (hitem : Prompt first follow item (bound + 1)) (hfollow : follow' ⊆ follow)
    (hcomma : .comma ∉ follow') (hothers : Prompt first follow' list bound) :
    Prompt first follow' list (bound + 1) where
  completes := completes_list hlist hitem.completes hfollow hcomma
  promptAt := by
    intro s hs
    rw [funext hlist]
    refine (hitem.promptAt s hs).bind (fun a => completes_accept (by decide) hcomma
      (.ok [a] (List.Subset.refl follow'))) (fun a rest hread => ?_) hfollow
    obtain ⟨front, hsplit, -⟩ := (hitem.promptAt s hs).reads hread
    have hrest := length_le_of_prepend hsplit
    have hmore : ∀ t others, rest = next t others → t.kind = .comma →
        PromptAt first follow'
          (fun s => list s >>= fun (others, rest) => .ok (a :: others, rest)) others := by
      rintro t others rfl -
      rw [TokenStream.length] at hrest
      exact (hothers.map (a :: ·)).promptAt others (by omega)
    exact promptAt_accept (by decide) hcomma hmore (.ok [a] (List.Subset.refl follow'))

end Lists

theorem prompt_commaSeparated {item : (s : TokenStream) → Parse α s.length}
    (hitem : ∀ bound, Prompt first follow (fun s => outcome (item s)) bound)
    (hfollow : follow' ⊆ follow) (hcomma : .comma ∉ follow') (bound : Nat) :
    Prompt first follow' (fun s => outcome (s.commaSeparated item)) bound := by
  induction bound with
  | zero => exact ⟨completes_list (outcome_commaSeparated item) (hitem 0).completes hfollow hcomma,
      nofun⟩
  | succ bound ih =>
      exact prompt_list_succ (outcome_commaSeparated item) (hitem (bound + 1)) hfollow hcomma ih

end Rules

end PocketSql

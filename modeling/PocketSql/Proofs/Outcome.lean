import Mathlib
import PocketSql.Fault

/-!
# Outcomes

A computation that may fail succeeds exactly when each of its steps does.  The
lemmas below take a successful `do` block, map or walk over a list apart into
the successes it consists of.  Putting a fault at a position, or taking the
fault of a cast as that of a statement, changes no success.  Where an error is the first
of a list, the elements in front of it have none.
-/

namespace PocketSql

variable {ε ε' α β : Type}

theorem bind_eq_ok {x : Except ε α} {f : α → Except ε β} {b : β} :
    x >>= f = .ok b ↔ ∃ a, x = .ok a ∧ f a = .ok b := by
  cases x with
  | error e => simp [bind, Except.bind]
  | ok a => simp [bind, Except.bind]

theorem bind_of_ok {x : Except ε α} {f : α → Except ε β} {a : α} {result : Except ε β}
    (hx : x = .ok a) (hf : f a = result) : x >>= f = result := by
  rw [hx]
  exact hf

theorem bind_of_error {x : Except ε α} {f : α → Except ε β} {e : ε} (hx : x = .error e) :
    x >>= f = .error e := by
  rw [hx]
  rfl

theorem map_eq_ok {x : Except ε α} {f : α → β} {b : β} :
    x.map f = .ok b ↔ ∃ a, x = .ok a ∧ f a = b := by
  cases x with
  | error e => simp [Except.map]
  | ok a => simp [Except.map]

theorem mapError_eq_ok {x : Except ε α} {f : ε → ε'} {a : α} :
    x.mapError f = .ok a ↔ x = .ok a := by
  cases x with
  | error e => simp [Except.mapError]
  | ok a => simp [Except.mapError]

@[simp]
theorem pure_eq_ok {a b : α} : (pure a : Except ε α) = .ok b ↔ a = b := by
  simp [pure, Except.pure]

@[simp]
theorem faultAt_eq_ok {position : Position} {x : Except Fault α} {a : α} :
    faultAt position x = .ok a ↔ x = .ok a :=
  mapError_eq_ok

@[simp]
theorem orCastFault_eq_ok {x : Except CastFault α} {a : α} :
    orCastFault x = .ok a ↔ x = .ok a :=
  mapError_eq_ok

/-- Where an error is caught plays no part for what it says. -/
@[simp]
theorem EvalError.value_caughtAt (position : Position) (e : EvalError) :
    (caughtAt position e).value = e.value := by
  rw [caughtAt]
  split <;> rfl

/-- A walk over a list succeeds with the results of its elements, in order. -/
theorem mapM_eq_ok {f : α → Except ε β} {xs : List α} {ys : List β} :
    xs.mapM f = .ok ys ↔ List.Forall₂ (fun x y => f x = .ok y) xs ys := by
  induction xs generalizing ys with
  | nil =>
      rw [List.mapM_nil, pure_eq_ok, List.forall₂_nil_left_iff]
      exact eq_comm
  | cons x xs ih =>
      rw [List.mapM_cons, bind_eq_ok]
      constructor
      · rintro ⟨y, hy, hrest⟩
        obtain ⟨others, hothers, heq⟩ := bind_eq_ok.mp hrest
        cases heq
        exact .cons hy (ih.mp hothers)
      · rintro (_ | ⟨hy, hrest⟩)
        exact ⟨_, hy, bind_eq_ok.mpr ⟨_, ih.mpr hrest, rfl⟩⟩

theorem length_of_mapM {f : α → Except ε β} {xs : List α} {ys : List β}
    (hwalk : xs.mapM f = .ok ys) : xs.length = ys.length :=
  (mapM_eq_ok.mp hwalk).length_eq

/-- Every result of a walk is the result of an element. -/
theorem exists_of_mem_mapM {f : α → Except ε β} {xs : List α} {ys : List β} {y : β}
    (hwalk : xs.mapM f = .ok ys) (hy : y ∈ ys) : ∃ x ∈ xs, f x = .ok y := by
  obtain ⟨index, hindex, rfl⟩ := List.mem_iff_getElem.mp hy
  have hlength := length_of_mapM hwalk
  have hstep := (List.forall₂_iff_get.mp (mapM_eq_ok.mp hwalk)).2 index
    (hlength ▸ hindex) hindex
  exact ⟨_, List.getElem_mem _, hstep⟩

/-- The results of a walk stand in the order of the elements. -/
theorem getElem?_of_mapM {f : α → Except ε β} {xs : List α} {ys : List β} {index : Nat} {x : α}
    (hwalk : xs.mapM f = .ok ys) (hx : xs[index]? = some x) :
    ∃ y, ys[index]? = some y ∧ f x = .ok y := by
  obtain ⟨hindex, rfl⟩ := List.getElem?_eq_some_iff.mp hx
  have hlt : index < ys.length := length_of_mapM hwalk ▸ hindex
  have hstep := (List.forall₂_iff_get.mp (mapM_eq_ok.mp hwalk)).2 index hindex hlt
  exact ⟨ys[index], List.getElem?_eq_getElem hlt, hstep⟩

/-- A walk gives a list when it gives the elements of the list place by place. -/
theorem mapM_eq_ok_iff_getElem? {f : α → Except ε β} {xs : List α} {ys : List β} :
    xs.mapM f = .ok ys ↔ xs.length = ys.length ∧
      ∀ (index : Nat) (x : α), xs[index]? = some x → ∃ y, f x = .ok y ∧ ys[index]? = some y := by
  constructor
  · intro hwalk
    refine ⟨length_of_mapM hwalk, fun index x hx => ?_⟩
    obtain ⟨y, hy, hstep⟩ := getElem?_of_mapM hwalk hx
    exact ⟨y, hstep, hy⟩
  · rintro ⟨hlength, hsteps⟩
    refine mapM_eq_ok.mpr (List.forall₂_iff_get.mpr ⟨hlength, fun index hindex hindex' => ?_⟩)
    obtain ⟨y, hstep, hy⟩ := hsteps index xs[index] (List.getElem?_eq_getElem hindex)
    rw [List.getElem?_eq_getElem hindex'] at hy
    rw [List.get_eq_getElem, List.get_eq_getElem, Option.some.inj hy]
    exact hstep

/-- A walk succeeds when every step of it does. -/
theorem exists_mapM_eq_ok {f : α → Except ε β} {xs : List α} :
    (∃ ys, xs.mapM f = .ok ys) ↔ ∀ x ∈ xs, ∃ y, f x = .ok y := by
  simp only [mapM_eq_ok]
  induction xs with
  | nil => simp
  | cons x xs ih =>
      rw [List.forall_mem_cons, ← ih]
      constructor
      · rintro ⟨_, _ | ⟨hy, hys⟩⟩
        exact ⟨⟨_, hy⟩, _, hys⟩
      · rintro ⟨⟨y, hy⟩, ys, hys⟩
        exact ⟨y :: ys, .cons hy hys⟩

/-- The results of a walk may be mapped one by one or all together. -/
theorem mapM_map {γ : Type} (f : α → Except ε β) (g : β → γ) (xs : List α) :
    (xs.mapM fun x => (f x).map g) = (xs.mapM f).map (List.map g) := by
  induction xs with
  | nil => rfl
  | cons x xs ih =>
      rw [List.mapM_cons, List.mapM_cons, ih]
      cases f x with
      | error e => rfl
      | ok y => cases xs.mapM f <;> rfl

/-- Walks whose steps go together go together. -/
theorem mapM_congr {γ : Type} {f : α → Except ε β} {g : γ → Except ε β} {xs : List α}
    {ys : List γ} (hsame : List.Forall₂ (fun x y => f x = g y) xs ys) :
    xs.mapM f = ys.mapM g := by
  induction hsame with
  | nil => rfl
  | cons hxy _ ih => rw [List.mapM_cons, List.mapM_cons, hxy, ih]

/-- A walk in which one step succeeds with another result. -/
theorem mapM_set {f g : α → Except ε β} {xs : List α} {place : Nat} {b : β}
    (hplace : ∀ x, xs[place]? = some x → g x = .ok b ∧ ∃ a, f x = .ok a)
    (hothers : ∀ index x, xs[index]? = some x → index ≠ place → g x = f x) :
    xs.mapM g = (xs.mapM f).map (·.set place b) := by
  induction xs generalizing place with
  | nil => rfl
  | cons x xs ih =>
      rw [List.mapM_cons, List.mapM_cons]
      cases place with
      | zero =>
          obtain ⟨hg, a, hf⟩ := hplace x rfl
          have hrest : xs.mapM g = xs.mapM f := by
            refine mapM_congr (List.forall₂_same.mpr fun y hy => ?_)
            obtain ⟨index, hindex⟩ := List.mem_iff_getElem?.mp hy
            exact hothers (index + 1) y hindex (Nat.succ_ne_zero index)
          rw [hg, hf, hrest]
          cases xs.mapM f <;> rfl
      | succ place =>
          have hrest : xs.mapM g = (xs.mapM f).map (·.set place b) :=
            ih hplace fun index y hy hne =>
              hothers (index + 1) y hy fun heq => hne (Nat.succ.inj heq)
          rw [hothers 0 x rfl (Nat.succ_ne_zero place).symm, hrest]
          cases f x with
          | error e => rfl
          | ok a => cases xs.mapM f <;> rfl

/-- A walk fails with the error of the first element that has one. -/
theorem exists_of_mapM_eq_error {f : α → Except ε β} {xs : List α} {e : ε}
    (hwalk : xs.mapM f = .error e) :
    ∃ front x back, xs = front ++ x :: back ∧ (∀ y ∈ front, (f y).isOk) ∧ f x = .error e := by
  induction xs with
  | nil => cases hwalk
  | cons x xs ih =>
      rw [List.mapM_cons] at hwalk
      cases hx : f x with
      | error e' =>
          rw [hx] at hwalk
          cases hwalk
          exact ⟨[], x, xs, rfl, List.forall_mem_nil _, hx⟩
      | ok b =>
          have hrest : xs.mapM f = .error e := by
            rw [hx] at hwalk
            cases hrest : xs.mapM f <;> rw [hrest] at hwalk <;> cases hwalk
            rfl
          obtain ⟨front, y, back, rfl, hfront, hy⟩ := ih hrest
          refine ⟨x :: front, y, back, rfl, ?_, hy⟩
          exact List.forall_mem_cons.mpr ⟨by rw [hx]; rfl, hfront⟩

/-- The error is that of the first element that has one. -/
def FirstError (P : α → ε → Prop) (xs : List α) (e : ε) : Prop :=
  ∃ front x back, xs = front ++ x :: back ∧ P x e ∧ ∀ y ∈ front, ∀ other, ¬P y other

namespace FirstError

variable {P : α → ε → Prop} {xs ys : List α} {e : ε}

theorem append_right (herror : FirstError P xs e) (ys : List α) : FirstError P (xs ++ ys) e := by
  obtain ⟨front, x, back, rfl, hx, hfront⟩ := herror
  exact ⟨front, x, back ++ ys, List.append_assoc _ _ _, hx, hfront⟩

theorem append_left (hxs : ∀ x ∈ xs, ∀ other, ¬P x other) (herror : FirstError P ys e) :
    FirstError P (xs ++ ys) e := by
  obtain ⟨front, y, back, rfl, hy, hfront⟩ := herror
  refine ⟨xs ++ front, y, back, (List.append_assoc _ _ _).symm, hy, ?_⟩
  exact List.forall_mem_append.mpr ⟨hxs, hfront⟩

theorem singleton {x : α} (hx : P x e) : FirstError P [x] e :=
  ⟨[], x, [], rfl, hx, List.forall_mem_nil _⟩

theorem exists_mem (herror : FirstError P xs e) : ∃ x ∈ xs, P x e := by
  obtain ⟨front, x, back, rfl, hx, -⟩ := herror
  exact ⟨x, List.mem_append_right _ List.mem_cons_self, hx⟩

/-- Two errors that are first belong to the same element: neither stands behind the other. -/
theorem unique {e' : ε} (herror : FirstError P xs e) (hother : FirstError P xs e')
    (hP : ∀ x e e', P x e → P x e' → e = e') : e = e' := by
  obtain ⟨front, x, back, rfl, hx, hfront⟩ := herror
  obtain ⟨front', x', back', heq, hx', hfront'⟩ := hother
  rcases List.append_eq_append_iff.mp heq with ⟨between, rfl, hback⟩ | ⟨between, rfl, hback⟩
  · cases between with
    | nil =>
        cases hback
        exact hP x e e' hx hx'
    | cons y ys =>
        cases hback
        exact absurd hx (hfront' x (List.mem_append_right _ List.mem_cons_self) e)
  · cases between with
    | nil =>
        cases hback
        exact hP x e e' hx hx'
    | cons y ys =>
        cases hback
        exact absurd hx' (hfront x' (List.mem_append_right _ List.mem_cons_self) e')

end FirstError

/-- A walk whose steps can only give the values of a function gives those. -/
theorem eq_map_of_mapM {f : α → Except ε β} {g : α → β} {xs : List α} {ys : List β}
    (hwalk : xs.mapM f = .ok ys) (hg : ∀ x y, f x = .ok y → y = g x) : ys = xs.map g := by
  have hsteps := mapM_eq_ok.mp hwalk
  induction hsteps with
  | nil => rfl
  | cons hy _ ih =>
      rw [List.map_cons, hg _ _ hy, ih (mapM_eq_ok.mpr ‹_›)]

end PocketSql

import Mathlib.Data.List.Forall2

/-!
# Computations side by side

Two runs over inputs that are alike are compared step by step: they either go on with values that
are alike or stop with failures that are alike.  Lists that are alike element by element are
searched and walked through side by side.

* `Agree`             both computations succeed alike or fail alike
* `Agree.bind`        steps in a row
* `Agree.mapM`        runs over lists
* `rel_find?`         searches for the same thing
-/

namespace EntityModel

/-! ### Computations that come out alike -/

/-- Two computations both succeed, with results that are alike, or both fail, with failures that
    are alike. -/
inductive Agree {ε ε' α β : Type} (E : ε → ε' → Prop) (R : α → β → Prop) :
    Except ε α → Except ε' β → Prop
  | ok {a : α} {b : β} (h : R a b) : Agree E R (.ok a) (.ok b)
  | error {u : ε} {v : ε'} (h : E u v) : Agree E R (.error u) (.error v)

namespace Agree

variable {ε ε' α β γ δ : Type} {E : ε → ε' → Prop} {R : α → β → Prop} {S : γ → δ → Prop}
  {x : Except ε α} {y : Except ε' β}

/-- Steps in a row come out alike if each step does. -/
theorem bind {f : α → Except ε γ} {g : β → Except ε' δ} (h : Agree E R x y)
    (hfg : ∀ a b, R a b → Agree E S (f a) (g b)) : Agree E S (x >>= f) (y >>= g) := by
  cases h with
  | ok hab => exact hfg _ _ hab
  | error huv => exact .error huv

/-- What follows from alike results is alike. -/
theorem map {f : α → γ} {g : β → δ} (h : Agree E R x y) (hfg : ∀ a b, R a b → S (f a) (g b)) :
    Agree E S (x.map f) (y.map g) := by
  cases h with
  | ok hab => exact .ok (hfg _ _ hab)
  | error huv => exact .error huv

/-- Runs over two lists that are alike element by element come out alike. -/
theorem mapM {P : α → β → Prop} {as : List α} {bs : List β} {f : α → Except ε γ}
    {g : β → Except ε' δ} (h : List.Forall₂ P as bs) (hfg : ∀ a b, P a b → Agree E S (f a) (g b)) :
    Agree E (List.Forall₂ S) (as.mapM f) (bs.mapM g) := by
  induction h with
  | nil => exact .ok .nil
  -- the heads come out alike, and then the tails
  | cons hab _ ih =>
    rw [List.mapM_cons, List.mapM_cons]
    exact (hfg _ _ hab).bind fun _ _ hcd => ih.bind fun _ _ hrest => .ok (.cons hcd hrest)

end Agree

/-- What maps alike elements to one value maps alike lists to one list. -/
theorem map_eq_map_of_forall₂ {α β γ : Type} {R : α → β → Prop} {as : List α} {bs : List β}
    {f : α → γ} {g : β → γ} (h : List.Forall₂ R as bs) (hfg : ∀ a b, R a b → f a = g b) :
    as.map f = bs.map g := by
  have heq : List.Forall₂ Eq (as.map f) (bs.map g) := by
    rw [List.forall₂_map_left_iff, List.forall₂_map_right_iff]
    exact h.imp hfg
  rwa [List.forall₂_eq_eq_eq] at heq

/-- What maps alike elements to one list maps alike lists to one list. -/
theorem flatMap_eq_flatMap_of_forall₂ {α β γ : Type} {R : α → β → Prop} {as : List α}
    {bs : List β} {f : α → List γ} {g : β → List γ} (h : List.Forall₂ R as bs)
    (hfg : ∀ a b, R a b → f a = g b) : as.flatMap f = bs.flatMap g := by
  rw [List.flatMap_def, List.flatMap_def, map_eq_map_of_forall₂ h hfg]

/-- What is alike to two lists in a row is two lists in a row. -/
theorem exists_of_forall₂_append {α β : Type} {R : α → β → Prop} {as bs : List α} {cs : List β}
    (h : List.Forall₂ R (as ++ bs) cs) :
    ∃ ds es, cs = ds ++ es ∧ List.Forall₂ R as ds ∧ List.Forall₂ R bs es := by
  induction as generalizing cs with
  | nil => exact ⟨[], cs, rfl, .nil, h⟩
  | cons a as ih =>
    -- the first of the list is alike to the first, and the rest by induction
    obtain ⟨c, cs, hc, hrest, rfl⟩ := List.forall₂_cons_left_iff.mp h
    obtain ⟨ds, es, rfl, hds, hes⟩ := ih hrest
    exact ⟨c :: ds, es, rfl, .cons hc hds, hes⟩

/-- What is alike to an element is in the other list. -/
theorem exists_of_mem_forall₂ {α β : Type} {R : α → β → Prop} {as : List α} {bs : List β}
    (h : List.Forall₂ R as bs) {a : α} (ha : a ∈ as) : ∃ b ∈ bs, R a b := by
  induction h with
  | nil => exact absurd ha List.not_mem_nil
  | cons hab _ ih =>
    rcases List.mem_cons.mp ha with rfl | ha
    · exact ⟨_, List.mem_cons_self, hab⟩
    · obtain ⟨b, hb, hab⟩ := ih ha
      exact ⟨b, List.mem_cons_of_mem _ hb, hab⟩

/-- In lists that are alike element by element, searches for the same thing find what is alike. -/
theorem rel_find? {α β : Type} {R : α → β → Prop} {p : α → Bool} {q : β → Bool} {as : List α}
    {bs : List β} (h : List.Forall₂ R as bs) (hpq : ∀ a b, R a b → p a = q b) :
    Option.Rel R (as.find? p) (bs.find? q) := by
  induction h with
  | nil => exact .none
  | @cons a b as bs hab _ ih =>
    rw [List.find?_cons, List.find?_cons, hpq a b hab]
    -- the first elements are both found or both passed over
    cases q b with
    | true => exact .some hab
    | false => exact ih

section

variable {α β γ δ : Type} {R : α → β → Prop} {S : γ → δ → Prop} {x : Option α} {y : Option β}

/-- Either of two things is found alike if both are. -/
theorem rel_or {x' : Option α} {y' : Option β} (h : Option.Rel R x y) (h' : Option.Rel R x' y') :
    Option.Rel R (x.or x') (y.or y') := by
  cases h with
  | some hab => exact .some hab
  | none => exact h'

/-- What is looked for in what was found is found alike. -/
theorem rel_bind {f : α → Option γ} {g : β → Option δ} (h : Option.Rel R x y)
    (hfg : ∀ a b, R a b → Option.Rel S (f a) (g b)) : Option.Rel S (x.bind f) (y.bind g) := by
  cases h with
  | some hab => exact hfg _ _ hab
  | none => exact .none

/-- What follows from what was found is alike. -/
theorem rel_map {f : α → γ} {g : β → δ} (h : Option.Rel R x y)
    (hfg : ∀ a b, R a b → S (f a) (g b)) : Option.Rel S (x.map f) (y.map g) := by
  cases h with
  | some hab => exact .some (hfg _ _ hab)
  | none => exact .none

/-- What is found is the same if being alike is being the same. -/
theorem rel_eq {x y : Option α} (h : Option.Rel Eq x y) : x = y := by
  cases h with
  | some hab => rw [hab]
  | none => rfl

end

end EntityModel

/-! # Log records and computations that write them

`Traced ε α` is a computation that writes log records and ends in a value or an error; the records
written before an error are kept.  `outcome` forgets the records and is a morphism to `Except`, so a
statement about results never has to speak of the log.

* `outcome_pure`, `outcome_bind`, `outcome_note`, `outcome_mapError`   the morphism laws -/

namespace EntityModel

/-- How important a log record is. -/
inductive Level where
  | error
  | warn
  | info
  | debug
deriving DecidableEq, Repr

namespace Level

/-- The word for a level. -/
def text : Level → String
  | error => "error"
  | warn => "warn"
  | info => "info"
  | debug => "debug"

/-- The place of a level, from the most important on. -/
def rank : Level → Nat
  | error => 1
  | warn => 2
  | info => 3
  | debug => 4

end Level

/-- A log record: a fixed message and named values. -/
structure Record where
  level : Level
  message : String
  fields : List (String × String)
deriving DecidableEq, Repr

namespace Record

/-- The records at least as important as the level of the given rank. -/
def upTo (rank : Nat) (records : List Record) : List Record :=
  records.filter fun r => r.level.rank ≤ rank

end Record

/-- A computation that writes log records and ends in a value or an error. -/
structure Traced (ε : Type) (α : Type) where
  records : List Record
  outcome : Except ε α

namespace Traced

variable {ε α β : Type}

instance : Monad (Traced ε) where
  pure a := ⟨[], .ok a⟩
  bind x f :=
    match x.outcome with
    | .error e => ⟨x.records, .error e⟩
    | .ok a => ⟨x.records ++ (f a).records, (f a).outcome⟩

/-- End in an error. -/
def fail (e : ε) : Traced ε α := ⟨[], .error e⟩

/-- End as the given result does, without a record. -/
def ofExcept (x : Except ε α) : Traced ε α := ⟨[], x⟩

/-- Write one record. -/
def note (level : Level) (message : String) (fields : List (String × String)) : Traced ε Unit :=
  ⟨[⟨level, message, fields⟩], .ok ()⟩

/-- Change the error. -/
def mapError {δ : Type} (f : ε → δ) (x : Traced ε α) : Traced δ α :=
  ⟨x.records, x.outcome.mapError f⟩

@[simp] theorem outcome_pure (a : α) : (pure a : Traced ε α).outcome = .ok a := rfl

@[simp] theorem outcome_ofExcept (x : Except ε α) : (ofExcept x).outcome = x := rfl

@[simp] theorem outcome_note (l : Level) (m : String) (fs : List (String × String)) :
    (note l m fs : Traced ε Unit).outcome = .ok () := rfl

@[simp] theorem outcome_mapError {δ : Type} (f : ε → δ) (x : Traced ε α) :
    (x.mapError f).outcome = x.outcome.mapError f := rfl

/-- Forgetting the records commutes with sequencing. -/
@[simp] theorem outcome_bind (x : Traced ε α) (f : α → Traced ε β) :
    (x >>= f).outcome = (x.outcome >>= fun a => (f a).outcome) := by
  obtain ⟨r, e | a⟩ := x <;> rfl

/-- Run a traced computation on each element from the left, stopping at the first error. -/
def forEach (f : α → Traced ε β) : List α → Traced ε (List β)
  | [] => pure []
  | a :: as => do
    let b ← f a
    let bs ← forEach f as
    pure (b :: bs)

/-- The result of a run over a list is the run of the results. -/
theorem outcome_forEach (f : α → Traced ε β) (as : List α) :
    (forEach f as).outcome = as.mapM fun a => (f a).outcome := by
  induction as with
  | nil => simp [forEach]; rfl
  | cons a as ih =>
    simp only [forEach, outcome_bind, outcome_pure, List.mapM_cons, ih]
    rfl

end Traced

end EntityModel

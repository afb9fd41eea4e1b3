import EntityModel.Log
import EntityModel.Storage.Basic

/-! # Activities

An activity works on a storage, writes log records and ends in a value or an error.  Where it ends
in an error, what it has done to the storage and what it has written stay.

* `resume_ok`, `resume_error`   an activity that goes on appends its records -/

namespace EntityModel

/-- A computation that works on a storage, writes log records and ends in a value or an error. -/
structure Activity (m : Type → Type) (ε α : Type) where
  run : m (Traced ε α)

namespace Activity

variable {m : Type → Type} [Monad m] {ε α β : Type}

/-- Go on with what comes after a traced value, unless it is an error. -/
def resume (first : Traced ε α) (next : α → Activity m ε β) : m (Traced ε β) :=
  match first.outcome with
  | .error e => pure ⟨first.records, .error e⟩
  | .ok a => do
    let second ← (next a).run
    pure ⟨first.records ++ second.records, second.outcome⟩

instance : Monad (Activity m ε) where
  pure a := ⟨pure (pure a)⟩
  bind x f := ⟨x.run >>= fun first => resume first f⟩

/-- Do what leaves the storage alone. -/
def ofTraced (x : Traced ε α) : Activity m ε α := ⟨pure x⟩

/-- End in an error. -/
def fail (e : ε) : Activity m ε α := ofTraced (Traced.fail e)

/-- Write one record. -/
def note (level : Level) (message : String) (fields : List (String × String)) :
    Activity m ε Unit :=
  ofTraced (Traced.note level message fields)

/-- Do one thing to the storage, which answers with a value. -/
def perform (x : m α) : Activity m ε α := ⟨x >>= fun a => pure (pure a)⟩

/-- Do one thing to the storage and end in the error if it fails. -/
def attempt {δ : Type} (f : δ → ε) (x : m (Except δ α)) : Activity m ε α :=
  ⟨x >>= fun result => pure (Traced.ofExcept (result.mapError f))⟩

/-- Change the error. -/
def mapError {δ : Type} (f : ε → δ) (x : Activity m ε α) : Activity m δ α :=
  ⟨x.run >>= fun traced => pure (traced.mapError f)⟩

/-- Where the activity ends in an error, clean up before that. -/
def onError (x : Activity m ε α) (cleanup : m Unit) : Activity m ε α :=
  ⟨x.run >>= fun traced =>
    match traced.outcome with
    | .error _ => cleanup >>= fun _ => pure traced
    | .ok _ => pure traced⟩

@[simp] theorem run_bind (x : Activity m ε α) (f : α → Activity m ε β) :
    (x >>= f).run = x.run >>= fun first => resume first f := rfl

theorem resume_ok {first : Traced ε α} {a : α} (h : first.outcome = .ok a)
    (next : α → Activity m ε β) :
    resume first next =
      (next a).run >>= fun second => pure ⟨first.records ++ second.records, second.outcome⟩ := by
  simp [resume, h]

theorem resume_error {first : Traced ε α} {e : ε} (h : first.outcome = .error e)
    (next : α → Activity m ε β) : resume first next = pure ⟨first.records, .error e⟩ := by
  simp [resume, h]

end Activity

end EntityModel

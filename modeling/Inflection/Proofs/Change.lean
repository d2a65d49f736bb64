/-!
# Changes in place

A change in place works on a state step by step and may stop with an error on the way; what it has
written by then stays.  `Change.Does` says that it writes all or nothing: it has the outcome of a
function from states to new states or errors.
-/

namespace Inflection

/-- A change of a state in place, which may stop with an error. -/
abbrev Change (ε σ : Type) : Type → Type := ExceptT ε (StateM σ)

namespace Change

variable {ε σ α : Type} {c : Change ε σ Unit} {f : σ → Except ε σ} {s s' : σ} {e : ε}

/-- The reply of a change, and the state that it leaves. -/
def outcome (c : Change ε σ Unit) (s : σ) : Except ε Unit × σ := (c.run.run s).run

/-! ## Steps -/

theorem outcome_get_bind (k : σ → Change ε σ Unit) (s : σ) :
    (get >>= k).outcome s = (k s).outcome s := rfl

theorem outcome_ofExcept_bind (x : Except ε α) (k : α → Change ε σ Unit) (s : σ) :
    (ofExcept x >>= k).outcome s = match x with
      | .ok a => (k a).outcome s
      | .error e => (.error e, s) := by
  cases x with
  | ok a => rfl
  | error e => rfl

/-! ## All or nothing -/

/-- A change does what a function says, and if this is an error it leaves the state alone. -/
def Does (c : Change ε σ Unit) (f : σ → Except ε σ) : Prop :=
  ∀ s, c.outcome s = match f s with
    | .ok s' => (.ok (), s')
    | .error e => (.error e, s)

theorem Does.outcome_of_ok (h : c.Does f) (hf : f s = .ok s') : c.outcome s = (.ok (), s') := by
  rw [h s, hf]

theorem Does.outcome_of_error (h : c.Does f) (hf : f s = .error e) :
    c.outcome s = (.error e, s) := by
  rw [h s, hf]

end Change

end Inflection

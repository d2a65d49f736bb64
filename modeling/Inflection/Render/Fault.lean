/-!
# Faults of patterns

A fault is what is wrong with a pattern for the options of a call.  Rendering is written for any
monad in which a fault can be noted.  There are two: in `Except Fault` the first fault ends the
rendering, in `Report` every fault is kept and the rendering goes on.
-/

namespace Inflection

/-- What is wrong with a pattern; each fault begins with the text of the pattern. -/
inductive Fault where
  | invalidToken (pattern token : String)
  | misplacedToken (pattern token kind expected : String)
  | invalidKind (pattern kind : String)
  | optionNotFound (pattern kind : String)
  | optionIncorrect (pattern kind option : String)
  | complexPatternMalformed (pattern tokens : String) (expected got : Nat)
deriving DecidableEq, Repr

/-- The text of the fault. -/
def Fault.message : Fault → String
  | invalidToken pattern token => s!"invalid inflection token '{token}' in pattern '{pattern}'"
  | misplacedToken pattern token kind expected =>
    s!"misplaced inflection token '{token}' of kind '{kind}' in pattern '{pattern}', " ++
      s!"expected kind '{expected}'"
  | invalidKind pattern kind => s!"invalid inflection kind '{kind}' in pattern '{pattern}'"
  | optionNotFound pattern kind =>
    s!"no option given for inflection kind '{kind}' in pattern '{pattern}'"
  | optionIncorrect pattern kind option =>
    s!"option '{option}' is not a token of kind '{kind}' in pattern '{pattern}'"
  | complexPatternMalformed pattern tokens expected got =>
    s!"complex pattern '{pattern}' declares {expected} kinds but token set '{tokens}' has {got}"

/-- A monad in which a fault can be noted. -/
class MonadFault (m : Type → Type) where
  note : Fault → m Unit

export MonadFault (note)

instance : MonadFault (Except Fault) := ⟨.error⟩

/-! ## Reports -/

/-- A value with the faults noted on the way to it, in order. -/
structure Report (α : Type) where
  value : α
  faults : List Fault
deriving DecidableEq, Repr

namespace Report

variable {α β : Type}

instance : Monad Report where
  pure a := ⟨a, []⟩
  bind r f := ⟨(f r.value).value, r.faults ++ (f r.value).faults⟩

instance : MonadFault Report := ⟨fun fault => ⟨(), [fault]⟩⟩

@[simp] theorem value_pure (a : α) : (pure a : Report α).value = a := rfl
@[simp] theorem faults_pure (a : α) : (pure a : Report α).faults = [] := rfl

@[simp] theorem value_bind (r : Report α) (f : α → Report β) :
    (r >>= f).value = (f r.value).value := rfl

@[simp] theorem faults_bind (r : Report α) (f : α → Report β) :
    (r >>= f).faults = r.faults ++ (f r.value).faults := rfl

@[simp] theorem value_note (fault : Fault) : (note fault : Report Unit).value = () := rfl
@[simp] theorem faults_note (fault : Fault) : (note fault : Report Unit).faults = [fault] := rfl

@[simp] theorem value_map (f : α → β) (r : Report α) : (f <$> r).value = f r.value := rfl

@[simp] theorem faults_map (f : α → β) (r : Report α) : (f <$> r).faults = r.faults :=
  List.append_nil _

theorem ext {r s : Report α} (hv : r.value = s.value) (hf : r.faults = s.faults) : r = s := by
  cases r
  cases s
  rw [Report.mk.injEq]
  exact ⟨hv, hf⟩

instance : LawfulMonad Report := LawfulMonad.mk' Report
  (fun _ => ext rfl (List.append_nil _))
  (fun _ _ => rfl)
  (fun _ _ _ => ext rfl (List.append_assoc _ _ _))

end Report

end Inflection

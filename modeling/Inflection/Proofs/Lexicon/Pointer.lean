import Inflection.Lexicon.Load
import Inflection.Proofs.Except

/-!
# Walks along pointers

`RawKind.Leads` is the walk along the pointers of a kind, step by step; `follow_eq_ok_iff` says
that `RawKind.follow` ends it whenever it takes no more look-ups than allowed.  `RawKind.Strays` is
a walk that fails within a number of look-ups, and `follow_eq_error_iff` says that it is what
`RawKind.follow` reports.
-/

namespace Inflection.RawKind

/-- The walk from a pointer reaches the entry of a true token with a given number of look-ups.
Every name that is looked up is a name, and not that of the default. -/
inductive Leads (entries : RawKind) : Nat → String → String → Prop
  | stop {pointer value : String} (hn : isName (stripMark pointer))
      (hd : stripMark pointer ≠ defaultName)
      (hget : entries.get? (stripMark pointer) = some (some value)) (hv : isMarked value = false) :
      Leads entries 1 pointer (stripMark pointer)
  | step {n : Nat} {pointer value name : String} (hn : isName (stripMark pointer))
      (hd : stripMark pointer ≠ defaultName)
      (hget : entries.get? (stripMark pointer) = some (some value)) (hv : isMarked value)
      (h : Leads entries n value name) : Leads entries (n + 1) pointer name

/-- The walk from a pointer fails when a number of look-ups are allowed: they are used up, or one
of them is of a text that is no name of a token, or finds no value. -/
inductive Strays (entries : RawKind) : Nat → String → PointerFlaw → Prop
  | exhausted {pointer : String} : Strays entries 0 pointer .tooLongOrCyclic
  | invalid {n : Nat} {pointer : String}
      (h : ¬(isName (stripMark pointer) ∧ stripMark pointer ≠ defaultName)) :
      Strays entries (n + 1) pointer .invalidPointer
  | nowhere {n : Nat} {pointer : String} (hn : isName (stripMark pointer))
      (hd : stripMark pointer ≠ defaultName)
      (hget : ∀ value, entries.get? (stripMark pointer) ≠ some (some value)) :
      Strays entries (n + 1) pointer .leadsNowhere
  | step {n : Nat} {pointer value : String} {flaw : PointerFlaw}
      (hn : isName (stripMark pointer)) (hd : stripMark pointer ≠ defaultName)
      (hget : entries.get? (stripMark pointer) = some (some value)) (hv : isMarked value)
      (h : Strays entries n value flaw) : Strays entries (n + 1) pointer flaw

variable {entries : RawKind} {pointer name : String}

/-- A walk ends at a true token. -/
theorem Leads.plain {n : Nat} (h : entries.Leads n pointer name) :
    isName name ∧ name ≠ defaultName ∧
      ∃ description, entries.get? name = some (some description) ∧
        isMarked description = false := by
  induction h with
  | stop hn hd hget hv => exact ⟨hn, hd, _, hget, hv⟩
  | step _ _ _ _ _ ih => exact ih

theorem Leads.unique {m n : Nat} {name' : String} (h : entries.Leads m pointer name)
    (h' : entries.Leads n pointer name') : m = n ∧ name = name' := by
  induction h generalizing n name' with
  | stop hn hd hget hv =>
    cases h' with
    | stop => exact ⟨rfl, rfl⟩
    | step _ _ hget' hv' =>
      rw [hget] at hget'
      cases hget'
      rw [hv] at hv'
      cases hv'
  | step hn hd hget hv _ ih =>
    cases h' with
    | stop _ _ hget' hv' =>
      rw [hget] at hget'
      cases hget'
      rw [hv] at hv'
      cases hv'
    | step _ _ hget' _ h' =>
      rw [hget] at hget'
      cases hget'
      obtain ⟨rfl, rfl⟩ := ih h'
      exact ⟨rfl, rfl⟩

/-- Following a pointer gives the end of the walk when the walk takes no more look-ups than are
allowed. -/
theorem follow_eq_ok_iff {lookups : Nat} :
    entries.follow lookups pointer = .ok name ↔ ∃ n ≤ lookups, entries.Leads n pointer name := by
  induction lookups generalizing pointer with
  | zero =>
    refine ⟨?_, ?_⟩
    · intro h
      cases h
    · intro h
      obtain ⟨n, hn, h⟩ := h
      cases h <;> omega
  | succ lookups ih =>
    rw [follow]
    refine ⟨?_, ?_⟩
    · intro h
      split at h
      · cases h
      · rename_i hname
        rw [Bool.not_eq_true, Bool.or_eq_false_iff, Bool.not_eq_false', beq_eq_false_iff_ne]
          at hname
        split at h
        · rename_i value hget
          split at h
          case isTrue hv =>
            obtain ⟨n, hn, hl⟩ := ih.1 h
            exact ⟨n + 1, Nat.succ_le_succ hn, .step hname.1 hname.2 hget hv hl⟩
          case isFalse hv =>
            cases h
            exact ⟨1, by omega, .stop hname.1 hname.2 hget (Bool.not_eq_true _ ▸ hv)⟩
        · cases h
    · intro h
      obtain ⟨n, hn, h⟩ := h
      cases h with
      | stop hn hd hget hv => simp [hn, hd, hget, hv]
      | step hname hd hget hv h =>
        simp only [hname, hd, hget, hv, Bool.not_true, Bool.false_or, beq_iff_eq, if_false, if_true]
        exact ih.2 ⟨_, by omega, h⟩

/-- Following a pointer fails when the walk does, with the same flaw. -/
theorem follow_eq_error_iff {lookups : Nat} {flaw : PointerFlaw} :
    entries.follow lookups pointer = .error flaw ↔ entries.Strays lookups pointer flaw := by
  induction lookups generalizing pointer with
  | zero =>
    refine ⟨?_, ?_⟩
    · intro h
      cases h
      exact .exhausted
    · intro h
      cases h
      rfl
  | succ lookups ih =>
    rw [follow]
    refine ⟨?_, ?_⟩
    · intro h
      split at h
      case isTrue hbad =>
        cases h
        refine .invalid ?_
        rintro ⟨hn, hd⟩
        simp [hn, hd] at hbad
      case isFalse hname =>
        rw [Bool.not_eq_true, Bool.or_eq_false_iff, Bool.not_eq_false', beq_eq_false_iff_ne]
          at hname
        split at h
        case h_1 value hget =>
          split at h
          case isTrue hv => exact .step hname.1 hname.2 hget hv (ih.1 h)
          case isFalse => cases h
        case h_2 hget =>
          cases h
          exact .nowhere hname.1 hname.2 hget
    · intro h
      cases h with
      | invalid hbad =>
        have hname : (!isName (stripMark pointer) || stripMark pointer == defaultName) = true := by
          cases hn : isName (stripMark pointer) with
          | false => rfl
          | true => simpa [hn] using hbad
        simp [hname]
      | nowhere hn hd hget =>
        simp only [hn, hd, Bool.not_true, Bool.false_or, beq_iff_eq, if_false]
      | step hn hd hget hv h =>
        simp only [hn, hd, hget, hv, Bool.not_true, Bool.false_or, beq_iff_eq, if_false, if_true]
        exact ih.2 h

end Inflection.RawKind

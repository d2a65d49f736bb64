import Inflection.Render.Fault

/-!
# Reports

A report goes on whatever is noted in it, so its value and its faults are computed each for itself.
Two more views of a report are used where renderings are compared.  `Report.raise` is what a
rendering that ends at the first fault would have given; `Report.mapFaults` changes the faults and
keeps the value.  Both commute with binding.

## Main statements

* `Report.bind_congr`: reports with the same faults go on alike if their values do.
* `Report.raise_bind`, `Report.raise_eq_ok_iff`, `Report.raise_eq_error_iff`: the first fault.
* `Report.bind_eq_mapFaults`: changed faults.
-/

namespace Inflection.Report

variable {α β : Type}

/-! ## Values and faults -/

theorem value_mapM (f : α → Report β) (as : List α) :
    (as.mapM f).value = as.map fun a => (f a).value := by
  induction as with
  | nil => rfl
  | cons a as ih => simp only [List.mapM_cons, value_bind, value_pure, List.map_cons, ih]

/-- Reports with the same faults go on alike if their values do. -/
theorem bind_congr {r r' : Report α} {g g' : α → Report β} (hf : r.faults = r'.faults)
    (hg : g r.value = g' r'.value) : r >>= g = r' >>= g' := by
  refine ext ?_ ?_
  · rw [value_bind, value_bind, hg]
  · rw [faults_bind, faults_bind, hf, hg]

/-! ## The first fault -/

/-- The first fault of a report, or its value if there is none. -/
def raise (r : Report α) : Except Fault α :=
  match r.faults with
  | [] => .ok r.value
  | fault :: _ => .error fault

theorem raise_pure (a : α) : (pure a : Report α).raise = pure a := rfl

theorem raise_note (fault : Fault) : (note fault : Report Unit).raise = note fault := rfl

theorem raise_bind (r : Report α) (f : α → Report β) :
    (r >>= f).raise = r.raise >>= fun a => (f a).raise := by
  unfold raise
  rw [faults_bind, value_bind]
  cases r.faults with
  | nil => rfl
  | cons fault faults => rfl

theorem raise_map (f : α → β) (r : Report α) : (f <$> r).raise = f <$> r.raise := by
  unfold raise
  rw [faults_map, value_map]
  cases r.faults with
  | nil => rfl
  | cons fault faults => rfl

theorem raise_mapM {f : α → Report β} {g : α → Except Fault β} (h : ∀ a, (f a).raise = g a)
    (as : List α) : (as.mapM f).raise = as.mapM g := by
  induction as with
  | nil => rfl
  | cons a as ih => simp only [List.mapM_cons, raise_bind, raise_pure, h, ih]

theorem raise_eq_ok_iff {r : Report α} {a : α} :
    r.raise = .ok a ↔ r.faults = [] ∧ r.value = a := by
  unfold raise
  cases r.faults with
  | nil => simp
  | cons fault faults => simp

theorem raise_eq_error_iff {r : Report α} {fault : Fault} :
    r.raise = .error fault ↔ r.faults.head? = some fault := by
  unfold raise
  cases r.faults with
  | nil => simp
  | cons fault faults => simp

/-! ## Changed faults -/

/-- The report with its faults changed. -/
def mapFaults (f : Fault → Fault) (r : Report α) : Report α := ⟨r.value, r.faults.map f⟩

variable {f : Fault → Fault}

@[simp] theorem value_mapFaults (r : Report α) : (r.mapFaults f).value = r.value := rfl
@[simp] theorem faults_mapFaults (r : Report α) : (r.mapFaults f).faults = r.faults.map f := rfl

theorem mapFaults_bind (r : Report α) (g : α → Report β) :
    (r >>= g).mapFaults f = r.mapFaults f >>= fun a => (g a).mapFaults f := by
  refine ext rfl ?_
  simp only [faults_mapFaults, faults_bind, value_mapFaults, List.map_append]

theorem mapFaults_id (r : Report α) : r.mapFaults id = r := ext rfl (List.map_id _)

theorem raise_mapFaults (r : Report α) : (r.mapFaults f).raise = r.raise.mapError f := by
  unfold raise
  rw [faults_mapFaults, value_mapFaults]
  cases r.faults with
  | nil => rfl
  | cons fault faults => rfl

/-- A report goes on alike if it does so with its value. -/
theorem bind_eq_mapFaults {r r' : Report α} {g g' : α → Report β} (hr : r' = r.mapFaults f)
    (hg : g' r.value = (g r.value).mapFaults f) : r' >>= g' = (r >>= g).mapFaults f := by
  rw [mapFaults_bind, hr]
  exact bind_congr rfl hg

end Inflection.Report

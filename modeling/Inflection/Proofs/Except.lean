/-!
# Computations that may fail

When a computation in `Except` ends well, what was bound in it ended well.  For a fold of steps
that may fail, `foldlM_isOk_iff` says when it ends well, and `foldlM_holds_iff` what then holds.
When they fail, `mapM_eq_error_iff` and `exists_of_foldlM_eq_error` say at which item.  In `Option`
there is no error to speak of, and `mapM_cons_eq_bind` is enough.
-/

namespace Inflection

universe u v

variable {ε : Type u} {α : Type v} {β : Type v}

theorem bind_eq_ok_iff {x : Except ε α} {f : α → Except ε β} {b : β} :
    x >>= f = .ok b ↔ ∃ a, x = .ok a ∧ f a = .ok b := by
  cases x with
  | error e =>
    refine ⟨?_, ?_⟩
    · intro h
      cases h
    · intro h
      obtain ⟨a, h, -⟩ := h
      cases h
  | ok a =>
    refine ⟨?_, ?_⟩
    · intro h
      exact ⟨a, rfl, h⟩
    · intro h
      obtain ⟨a', h, hb⟩ := h
      cases h
      exact hb

theorem bind_eq_error_iff {x : Except ε α} {f : α → Except ε β} {e : ε} :
    x >>= f = .error e ↔ x = .error e ∨ ∃ a, x = .ok a ∧ f a = .error e := by
  cases x with
  | error e' =>
    refine ⟨?_, ?_⟩
    · intro h
      exact .inl (by cases h; rfl)
    · rintro (h | ⟨a, h, -⟩)
      · cases h
        rfl
      · cases h
  | ok a =>
    refine ⟨?_, ?_⟩
    · intro h
      exact .inr ⟨a, rfl, h⟩
    · rintro (h | ⟨a', h, he⟩)
      · cases h
      · cases h
        exact he

theorem map_eq_ok_iff {x : Except ε α} {f : α → β} {b : β} :
    x.map f = .ok b ↔ ∃ a, x = .ok a ∧ f a = b := by
  cases x with
  | error e => simp [Except.map]
  | ok a => simp [Except.map]

theorem map_eq_error_iff {x : Except ε α} {f : α → β} {e : ε} :
    f <$> x = .error e ↔ x = .error e := by
  cases x with
  | error e' =>
    refine ⟨?_, ?_⟩
    · intro h
      cases h
      rfl
    · intro h
      cases h
      rfl
  | ok a =>
    refine ⟨?_, ?_⟩
    · intro h
      cases h
    · intro h
      cases h

/-- When the results that a function may give are known, so are the lists of its results. -/
theorem mapM_eq_ok_iff {f : α → Except ε β} {P : α → Prop} {g : α → β}
    (hf : ∀ {a b}, f a = .ok b ↔ P a ∧ b = g a) {as : List α} {bs : List β} :
    as.mapM f = .ok bs ↔ (∀ a ∈ as, P a) ∧ bs = as.map g := by
  induction as generalizing bs with
  | nil =>
    rw [List.mapM_nil]
    refine ⟨?_, ?_⟩
    · intro h
      cases h
      exact ⟨fun _ h => (nomatch h), rfl⟩
    · intro h
      obtain ⟨-, rfl⟩ := h
      rfl
  | cons a as ih =>
    simp only [List.mapM_cons, bind_eq_ok_iff, hf, ih, List.forall_mem_cons, List.map_cons]
    refine ⟨?_, ?_⟩
    · intro h
      obtain ⟨b, ⟨ha, rfl⟩, bs', ⟨has, rfl⟩, h⟩ := h
      cases h
      exact ⟨⟨ha, has⟩, rfl⟩
    · intro h
      obtain ⟨⟨ha, has⟩, rfl⟩ := h
      exact ⟨g a, ⟨ha, rfl⟩, as.map g, ⟨has, rfl⟩, rfl⟩

/-- A list of computations fails as the first of them that fails. -/
theorem mapM_eq_error_iff {f : α → Except ε β} {as : List α} {e : ε} :
    as.mapM f = .error e ↔ ∃ before a after, as = before ++ a :: after ∧
      (∀ a' ∈ before, ∃ b, f a' = .ok b) ∧ f a = .error e := by
  induction as with
  | nil =>
    rw [List.mapM_nil]
    refine ⟨?_, ?_⟩
    · intro h
      cases h
    · rintro ⟨before, a, after, has, -⟩
      exact absurd has (by simp)
  | cons a as ih =>
    rw [List.mapM_cons, bind_eq_error_iff]
    refine ⟨?_, ?_⟩
    · rintro (h | ⟨b, hb, h⟩)
      · exact ⟨[], a, as, rfl, fun _ h => (nomatch h), h⟩
      · rcases bind_eq_error_iff.1 h with h | ⟨bs, -, h⟩
        · obtain ⟨before, a', after, rfl, hbefore, ha'⟩ := ih.1 h
          exact ⟨a :: before, a', after, rfl, List.forall_mem_cons.2 ⟨⟨b, hb⟩, hbefore⟩, ha'⟩
        · cases h
    · rintro ⟨before, a', after, has, hbefore, ha'⟩
      cases before with
      | nil =>
        obtain ⟨rfl, -⟩ := List.cons.inj has
        exact .inl ha'
      | cons a'' before =>
        obtain ⟨rfl, htail⟩ := List.cons.inj has
        obtain ⟨⟨b, hb⟩, hrest⟩ := List.forall_mem_cons.1 hbefore
        refine .inr ⟨b, hb, bind_eq_error_iff.2 (.inl ?_)⟩
        exact ih.2 ⟨before, a', after, htail, hrest, ha'⟩

theorem mapM_eq_error {f : α → Except ε β} {as : List α} {e : ε} (h : as.mapM f = .error e) :
    ∃ a ∈ as, f a = .error e := by
  obtain ⟨before, a, after, rfl, -, ha⟩ := mapM_eq_error_iff.1 h
  exact ⟨a, by simp, ha⟩

theorem mapM_congr {f g : α → Except ε β} {as : List α} (h : ∀ a ∈ as, f a = g a) :
    as.mapM f = as.mapM g := by
  induction as with
  | nil => rfl
  | cons a as ih =>
    obtain ⟨ha, has⟩ := List.forall_mem_cons.1 h
    rw [List.mapM_cons, List.mapM_cons, ha, ih has]

theorem mapM_cons_eq_bind {α β : Type} (f : α → Option β) (a : α) (as : List α) :
    (a :: as).mapM f = (f a).bind fun b => (as.mapM f).map (b :: ·) := by
  rw [List.mapM_cons]
  cases f a with
  | none => rfl
  | some b => cases as.mapM f <;> rfl

/-! ## Folds -/

section Folds

variable {σ ι κ γ : Type} {ε : Type} {step : σ → ι → Except ε σ} (Inv : σ → Prop)

/-- A fold of folds is one fold. -/
theorem foldlM_foldlM (step : σ → ι → Except ε σ) (g : κ → List ι) (ks : List κ) (s : σ) :
    ks.foldlM (fun s k => (g k).foldlM step s) s = (ks.flatMap g).foldlM step s := by
  induction ks generalizing s with
  | nil => rfl
  | cons k ks ih =>
    rw [List.flatMap_cons, List.foldlM_append, List.foldlM_cons]
    exact congrArg _ (funext fun s' => ih s')

/-- A fold that fails does so at one item, after it has ended well on those before. -/
theorem exists_of_foldlM_eq_error {is : List ι} {s : σ} {e : ε} (h : is.foldlM step s = .error e) :
    ∃ before i after s', is = before ++ i :: after ∧ before.foldlM step s = .ok s' ∧
      step s' i = .error e := by
  induction is generalizing s with
  | nil => cases h
  | cons i is ih =>
    rw [List.foldlM_cons] at h
    rcases bind_eq_error_iff.1 h with h | ⟨s', hs', h⟩
    · exact ⟨[], i, is, s, rfl, rfl, h⟩
    · obtain ⟨before, j, after, s'', rfl, hbefore, hj⟩ := ih h
      refine ⟨i :: before, j, after, s'', rfl, ?_, hj⟩
      rw [List.foldlM_cons, hs']
      exact hbefore

/-- A fold ends well when each item is good and free at the start, and no item takes away what a
later one needs. -/
theorem foldlM_isOk_iff {Good : ι → Prop} {Free : σ → ι → Prop} {Apart : ι → ι → Prop}
    {is : List ι}
    (hok : ∀ i ∈ is, ∀ s, Inv s → ((∃ s', step s i = .ok s') ↔ Good i ∧ Free s i))
    (hnext : ∀ i ∈ is, ∀ s s', Inv s → step s i = .ok s' →
      Inv s' ∧ ∀ j, Free s' j ↔ Free s j ∧ Apart i j)
    {s : σ} (hs : Inv s) :
    (∃ s', is.foldlM step s = .ok s') ↔ (∀ i ∈ is, Good i ∧ Free s i) ∧ is.Pairwise Apart := by
  induction is generalizing s with
  | nil => exact ⟨fun _ => ⟨fun _ h => (nomatch h), .nil⟩, fun _ => ⟨s, rfl⟩⟩
  | cons i is ih =>
    have ih' {s' : σ} (hs' : Inv s') := ih (fun j hj => hok j (List.mem_cons_of_mem _ hj))
      (fun j hj => hnext j (List.mem_cons_of_mem _ hj)) hs'
    simp only [List.foldlM_cons, bind_eq_ok_iff, List.forall_mem_cons, List.pairwise_cons]
    refine ⟨?_, ?_⟩
    · intro h
      obtain ⟨s'', s', hi, his⟩ := h
      obtain ⟨hs', hfree⟩ := hnext i List.mem_cons_self s s' hs hi
      obtain ⟨hall, hpair⟩ := (ih' hs').1 ⟨s'', his⟩
      refine ⟨⟨(hok i List.mem_cons_self s hs).1 ⟨s', hi⟩, fun j hj => ?_⟩, fun j hj => ?_, hpair⟩
      · exact ⟨(hall j hj).1, ((hfree j).1 (hall j hj).2).1⟩
      · exact ((hfree j).1 (hall j hj).2).2
    · intro h
      obtain ⟨⟨hi, hall⟩, hapart, hpair⟩ := h
      obtain ⟨s', hs'⟩ := (hok i List.mem_cons_self s hs).2 hi
      obtain ⟨hinv, hfree⟩ := hnext i List.mem_cons_self s s' hs hs'
      obtain ⟨s'', h⟩ := (ih' hinv).2 ⟨fun j hj =>
        ⟨(hall j hj).1, (hfree j).2 ⟨(hall j hj).2, hapart j hj⟩⟩, hpair⟩
      exact ⟨s'', s', hs', h⟩

/-- A fold ends well when each item is good, if that is all that its steps ask for. -/
theorem foldlM_isOk_iff_forall {Good : ι → Prop} {is : List ι}
    (hok : ∀ i ∈ is, ∀ s, Inv s → ((∃ s', step s i = .ok s') ↔ Good i))
    (hnext : ∀ i ∈ is, ∀ s s', Inv s → step s i = .ok s' → Inv s') {s : σ} (hs : Inv s) :
    (∃ s', is.foldlM step s = .ok s') ↔ ∀ i ∈ is, Good i := by
  have hpair : is.Pairwise fun _ _ => True := List.pairwise_of_forall fun _ _ => trivial
  have hok' : ∀ i ∈ is, ∀ s, Inv s → ((∃ s', step s i = .ok s') ↔ Good i ∧ True) := by
    intro i hi s hs
    exact (hok i hi s hs).trans (and_iff_left trivial).symm
  have hnext' : ∀ i ∈ is, ∀ s s', Inv s → step s i = .ok s' →
      Inv s' ∧ ∀ _ : ι, True ↔ True ∧ True := by
    intro i hi s s' hs hstep
    exact ⟨hnext i hi s s' hs hstep, fun _ => (and_iff_left trivial).symm⟩
  have h := @foldlM_isOk_iff σ ι ε step Inv Good (fun _ _ => True) (fun _ _ => True) is hok'
    hnext' s hs
  rw [h, and_iff_left hpair]
  exact forall₂_congr fun i _ => and_iff_left trivial

/-- When each step adds some facts to those that hold, a fold adds the facts of all its items. -/
theorem foldlM_holds_iff {Holds : σ → γ → Prop} {Adds : ι → γ → Prop} {is : List ι}
    (hnext : ∀ i ∈ is, ∀ s s', Inv s → step s i = .ok s' →
      Inv s' ∧ ∀ c, Holds s' c ↔ Holds s c ∨ Adds i c)
    {s s' : σ} (hs : Inv s) (h : is.foldlM step s = .ok s') :
    Inv s' ∧ ∀ c, Holds s' c ↔ Holds s c ∨ ∃ i ∈ is, Adds i c := by
  induction is generalizing s with
  | nil =>
    cases h
    exact ⟨hs, by simp⟩
  | cons i is ih =>
    rw [List.foldlM_cons, bind_eq_ok_iff] at h
    obtain ⟨s₁, hi, his⟩ := h
    obtain ⟨hs₁, hadd⟩ := hnext i List.mem_cons_self s s₁ hs hi
    obtain ⟨hs', hall⟩ := ih (fun j hj => hnext j (List.mem_cons_of_mem _ hj)) hs₁ his
    refine ⟨hs', ?_⟩
    intro c
    simp only [hall, hadd, or_assoc, List.mem_cons, exists_eq_or_imp]

end Folds

end Inflection

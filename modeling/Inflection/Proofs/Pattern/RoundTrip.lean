import Inflection.Proofs.Pattern.Written

/-!
# Writing and scanning patterns

What is read from a text is well formed at every level, from members up to patterns, because each
level splits its text at the characters that the level below may not hold.  With
`Pattern.scan_written` this makes the well-formed patterns exactly those that scanning gives back
from their written form.

## Main statements

* `Pattern.wellFormed_ofBody`: what is read from a raw pattern is well formed.
* `wellFormed_iff_scan_written`: writing and scanning are inverse on the well-formed patterns, and
  scanning gives no others.
-/

namespace Inflection

/-! ## What is read from a text -/

theorem Member.wellFormed_ofChars {cs : List Char} (h : ∀ c ∈ ['+', ',', ':', '|', '}'], c ∉ cs) :
    (ofChars cs).WellFormed := by
  unfold ofChars
  split
  · rename_i rest
    refine ⟨?_, fun hplain => by cases hplain⟩
    intro c hc hmem
    rw [String.toList_ofList] at hmem
    exact h c hc (List.mem_cons_of_mem _ hmem)
  · rename_i hmark
    refine ⟨?_, ?_⟩
    · intro c hc hmem
      rw [String.toList_ofList] at hmem
      exact h c hc hmem
    · intro _ hhead
      rw [String.toList_ofList] at hhead
      obtain ⟨rest, hrest⟩ := List.head?_eq_some_iff.1 hhead
      exact hmark rest hrest

theorem Group.wellFormed_ofChars {cs : List Char} (h : ∀ c ∈ ['+', ':', '|', '}'], c ∉ cs) :
    (ofChars cs).WellFormed := by
  refine ⟨by simp [ofChars, List.splitOn_ne_nil], ?_⟩
  intro m hm
  obtain ⟨part, hpart, rfl⟩ := List.mem_map.1 hm
  obtain ⟨hcomma, hsub⟩ := Text.mem_splitOn hpart
  refine Member.wellFormed_ofChars ?_
  intro c hc hmem
  by_cases he : c = ','
  · exact hcomma (he ▸ hmem)
  · refine h c ?_ (hsub hmem)
    simpa [he] using hc

theorem Value.wellFormed_ofChars {cs : List Char} (hbar : '|' ∉ cs) (hclose : '}' ∉ cs) :
    (ofChars cs).WellFormed := by
  unfold ofChars
  split
  · exact trivial
  · rename_i rest
    simp only [Value.WellFormed, String.toList_ofList]
    exact ⟨fun hmem => hbar (List.mem_cons_of_mem _ hmem),
      fun hmem => hclose (List.mem_cons_of_mem _ hmem)⟩
  · simp only [Value.WellFormed, String.toList_ofList]
    exact ⟨hbar, hclose⟩

theorem Clause.wellFormed_ofTokens {tokens value : List Char}
    (htokens : ∀ c ∈ [':', '|', '}'], c ∉ tokens) (hbar : '|' ∉ value) (hclose : '}' ∉ value) :
    (ofTokens tokens value).WellFormed := by
  refine ⟨by simp [List.splitOn_ne_nil], ?_, Value.wellFormed_ofChars hbar hclose⟩
  intro g hg
  obtain ⟨part, hpart, rfl⟩ := List.mem_map.1 hg
  obtain ⟨hplus, hsub⟩ := Text.mem_splitOn hpart
  refine Group.wellFormed_ofChars ?_
  intro c hc hmem
  by_cases he : c = '+'
  · exact hplus (he ▸ hmem)
  · refine htokens c ?_ (hsub hmem)
    simpa [he] using hc

/-- The text of a part on both sides of its first colon. -/
theorem Clause.wellFormed_of_splitFirst {part tokens value : List Char} (hbar : '|' ∉ part)
    (hclose : '}' ∉ part) (h : Text.splitFirst ':' part = some (tokens, value)) :
    (ofTokens tokens value).WellFormed := by
  obtain ⟨rfl, hcolon⟩ := Text.splitFirst_eq_some_iff.1 h
  simp only [List.mem_append, List.mem_cons, not_or] at hbar hclose
  refine wellFormed_ofTokens ?_ hbar.2.2 hclose.2.2
  intro c hc
  simp only [List.mem_cons, List.not_mem_nil, or_false] at hc
  rcases hc with rfl | rfl | rfl
  · exact hcolon
  · exact hbar.1
  · exact hclose.1

/-- The text of a part without a colon. -/
theorem notMem_of_splitFirst {part : List Char} (hbar : '|' ∉ part) (hclose : '}' ∉ part)
    (h : Text.splitFirst ':' part = none) : ∀ c ∈ [':', '|', '}'], c ∉ part := by
  intro c hc
  simp only [List.mem_cons, List.not_mem_nil, or_false] at hc
  rcases hc with rfl | rfl | rfl
  · exact Text.splitFirst_eq_none_iff.1 h
  · exact hbar
  · exact hclose

theorem Clause.wellFormed_ofChars {part : List Char} (hbar : '|' ∉ part) (hclose : '}' ∉ part) :
    (ofChars part).WellFormed := by
  unfold ofChars
  cases h : Text.splitFirst ':' part with
  | none =>
    simp only [Clause.WellFormed, String.toList_ofList]
    exact notMem_of_splitFirst hbar hclose h
  | some p => exact wellFormed_of_splitFirst hbar hclose h

theorem Target.wellFormed_ofKinds {kinds : List Char}
    (h : ∀ c ∈ kinds, c ∉ ['{', '}', '@', '|'] ∧ Text.isBlank c = false) :
    (ofKinds (String.ofList kinds)).WellFormed := by
  by_cases hempty : String.ofList kinds = ""
  · rw [hempty]
    exact trivial
  · by_cases hnames : ∃ names : List String, names.Nodup ∧ (∀ name ∈ names, isName name) ∧
        String.ofList kinds = "+".intercalate names
    · obtain ⟨names, hnodup, hall, hjoin⟩ := hnames
      have hne : names ≠ [] := by
        rintro rfl
        exact hempty hjoin
      rw [hjoin, ofKinds_join hne hnodup hall]
      match names, hne, hnodup, hall with
      | [kind], _, _, hall => exact hall kind (List.mem_singleton_self _)
      | kind :: kind' :: rest, _, hnodup, hall => exact ⟨by simp, hnodup, hall⟩
    · have hother : ∀ names : List String, names.Nodup → (∀ name ∈ names, isName name) →
          String.ofList kinds ≠ "+".intercalate names :=
        fun names hnodup hall hjoin => hnames ⟨names, hnodup, hall, hjoin⟩
      rw [ofKinds_of_ne hother]
      refine ⟨?_, hother⟩
      rwa [String.toList_ofList]

namespace Pattern

/-- The parts of a body are read as well-formed clauses, of which the last one has a value if there
is no free text. -/
theorem wellFormed_readParts {parts : List (List Char)}
    (h : ∀ part ∈ parts, '|' ∉ part ∧ '}' ∉ part) :
    (∀ clause ∈ (readParts parts).1, clause.WellFormed) ∧
      (∀ s, (readParts parts).2 = some s → ∀ c ∈ [':', '|', '}'], c ∉ s.toList) ∧
      (parts ≠ [] → (readParts parts).2 = none →
        ∃ gs v, (readParts parts).1.getLast? = some (.choice gs v)) := by
  induction parts with
  | nil =>
    refine ⟨?_, ?_, fun hne => absurd rfl hne⟩
    · intro clause hclause
      cases hclause
    · intro s hs
      cases hs
  | cons part parts ih =>
    obtain ⟨hbar, hclose⟩ := h part List.mem_cons_self
    by_cases hlast : parts = []
    · subst hlast
      cases hs : Text.splitFirst ':' part with
      | none =>
        simp only [readParts, hs]
        refine ⟨?_, ?_, fun _ hnone => by cases hnone⟩
        · intro clause hclause
          cases hclause
        · intro s he
          rw [← Option.some.inj he, String.toList_ofList]
          exact notMem_of_splitFirst hbar hclose hs
      | some p =>
        obtain ⟨tokens, value⟩ := p
        simp only [readParts, hs]
        refine ⟨?_, ?_, fun _ _ => ⟨_, _, rfl⟩⟩
        · intro clause hclause
          rw [List.mem_singleton.1 hclause]
          exact Clause.wellFormed_of_splitFirst hbar hclose hs
        · intro s he
          cases he
    · obtain ⟨hclauses, hfree, hvalue⟩ := ih fun q hq => h q (List.mem_cons_of_mem _ hq)
      rw [readParts_cons hlast]
      refine ⟨?_, hfree, ?_⟩
      · intro clause hclause
        rcases List.mem_cons.1 hclause with rfl | hclause
        · exact Clause.wellFormed_ofChars hbar hclose
        · exact hclauses clause hclause
      · intro _ hnone
        obtain ⟨gs, v, hget⟩ := hvalue hlast hnone
        refine ⟨gs, v, ?_⟩
        rw [List.getLast?_cons, hget]
        rfl

/-- A body that is not empty has a clause or a free text that is not empty. -/
theorem readParts_splitOn_ne {body : List Char} (h : body ≠ []) :
    (readParts (body.splitOn '|')).1 ≠ [] ∨
      ∃ s, (readParts (body.splitOn '|')).2 = some s ∧ s ≠ "" := by
  have hjoin : ['|'].intercalate (body.splitOn '|') = body := List.intercalate_splitOn '|'
  cases hs : body.splitOn '|' with
  | nil => exact absurd hs (List.splitOn_ne_nil _ _)
  | cons part parts =>
    by_cases hlast : parts = []
    · subst hlast
      rw [hs, List.intercalate_singleton] at hjoin
      subst hjoin
      cases hc : Text.splitFirst ':' part with
      | some p => exact .inl (by simp [readParts, hc])
      | none =>
        refine .inr ⟨String.ofList part, by simp only [readParts, hc], ?_⟩
        intro hempty
        refine h ?_
        rw [← String.toList_ofList (l := part), hempty]
        rfl
    · rw [readParts_cons hlast]
      exact .inl (List.cons_ne_nil _ _)

/-- What is read from a raw pattern is well formed. -/
theorem wellFormed_ofBody {raw : RawPattern} (hraw : raw.WellFormed) {body : List Char}
    (hbody : body ∈ raw.bodies) : (ofBody raw.kinds body).WellFormed := by
  obtain ⟨hne, hclose⟩ := hraw.isBody body hbody
  have hparts : ∀ part ∈ body.splitOn '|', '|' ∉ part ∧ '}' ∉ part := by
    intro part hpart
    obtain ⟨hbar, hsub⟩ := Text.mem_splitOn hpart
    exact ⟨hbar, fun hmem => hclose (hsub hmem)⟩
  obtain ⟨hclauses, hfree, hvalue⟩ := wellFormed_readParts hparts
  refine ⟨Target.wellFormed_ofKinds hraw.kinds, hclauses, hfree, ?_, readParts_splitOn_ne hne⟩
  intro hnone s hbare
  obtain ⟨gs, v, hget⟩ := hvalue (List.splitOn_ne_nil _ _) hnone
  have heq : some (Clause.bare s) = some (.choice gs v) := hbare.symm.trans hget
  cases heq

theorem wellFormed_of_mem_patterns {text : String} {p : Pattern} (h : p ∈ patterns text) :
    p.WellFormed := by
  obtain ⟨raw, hraw, body, hbody, rfl⟩ := exists_of_mem_patterns h
  exact wellFormed_ofBody hraw hbody

theorem wellFormed_withSource {p : Pattern} (s : String) :
    { p with source := s }.WellFormed ↔ p.WellFormed := by
  constructor
  · rintro ⟨htarget, hclauses, hfree, hlast, hne⟩
    exact ⟨htarget, hclauses, hfree, hlast, hne⟩
  · rintro ⟨htarget, hclauses, hfree, hlast, hne⟩
    exact ⟨htarget, hclauses, hfree, hlast, hne⟩

end Pattern

/-- The well-formed patterns are those that scanning gives back from their written form, with that
form as their source; and all patterns that scanning gives are well formed. -/
theorem wellFormed_iff_scan_written (p : Pattern) :
    (p.WellFormed ↔ scan p.written = [.pattern { p with source := p.written }]) ∧
      ∀ text, p ∈ patterns text → p.WellFormed := by
  refine ⟨⟨Pattern.scan_written, ?_⟩, fun text h => Pattern.wellFormed_of_mem_patterns h⟩
  intro h
  have hmem : { p with source := p.written } ∈ patterns p.written := by
    simp [patterns, h]
  exact (Pattern.wellFormed_withSource p.written).1 (Pattern.wellFormed_of_mem_patterns hmem)

/-- A value that is read without its backslash is written without it as well. -/
example : (patterns r"@{!f,m:\x|n:\~|a|}").map Pattern.written =
    [r"@{!f,m:x|n:\~|a|}"] := by
  decide +kernel

end Inflection

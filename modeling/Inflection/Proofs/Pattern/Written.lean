import Inflection.Proofs.Pattern.Segments

/-!
# The written form of patterns

`Pattern.written` writes a pattern as a text, from its target, its clauses and its free text alone.
`Pattern.WellFormed` says which patterns are read back from their written form: each part may hold
no character that the notation gives a meaning at its place.

## Main statements

* `Target.ofKinds_kinds`, `Clause.ofChars_written`: targets and clauses are read back.
* `Pattern.readParts_written`: so are the parts of a body, the last of which is read by a rule of
  its own.
* `Pattern.scan_written`: a well-formed pattern is the one segment of its written form.
-/

namespace Inflection

/-! ## Written forms -/

/-- The value as it is written.  A backslash is put before a text that would be read otherwise. -/
def Value.written : Value → String
  | loud => "~"
  | text s => if s = "~" ∨ s.toList.head? = some '\\' then "\\" ++ s else s

/-- The clause as it is written. -/
def Clause.written : Clause → String
  | bare s => s
  | choice gs v => (choice gs v).tokens ++ ":" ++ v.written

namespace Pattern

/-- The parts of the body as they are written, the free text last. -/
def parts (p : Pattern) : List String := p.clauses.map Clause.written ++ p.freeText?.toList

/-- The body as it is written. -/
def body (p : Pattern) : String := "|".intercalate p.parts

/-- The pattern as it is written. -/
def written (p : Pattern) : String := "@" ++ p.target.kinds ++ r"{" ++ p.body ++ r"}"

end Pattern

/-! ## Well-formed patterns -/

/-- A member that is read back: its name ends neither the member nor what the member is part of,
and does not negate it. -/
structure Member.WellFormed (m : Member) : Prop where
  chars : ∀ c ∈ ['+', ',', ':', '|', '}'], c ∉ m.name.toList
  plain : m.negated = false → m.name.toList.head? ≠ some '!'

/-- A group that is read back. -/
structure Group.WellFormed (g : Group) : Prop where
  nonempty : g.members ≠ []
  members : ∀ m ∈ g.members, m.WellFormed

/-- A value that is read back. -/
def Value.WellFormed : Value → Prop
  | loud => True
  | text s => '|' ∉ s.toList ∧ '}' ∉ s.toList

/-- A clause that is read back. -/
def Clause.WellFormed : Clause → Prop
  | bare s => ∀ c ∈ [':', '|', '}'], c ∉ s.toList
  | choice gs v => gs ≠ [] ∧ (∀ g ∈ gs, g.WellFormed) ∧ v.WellFormed

/-- A target that is read back: distinct names as kinds, or else a text that is no list of distinct
names. -/
def Target.WellFormed : Target → Prop
  | loose => True
  | named kind => isName kind
  | complex kinds => 2 ≤ kinds.length ∧ kinds.Nodup ∧ ∀ kind ∈ kinds, isName kind
  | invalid s => (∀ c ∈ s.toList, c ∉ ['{', '}', '@', '|'] ∧ Text.isBlank c = false) ∧
      ∀ kinds : List String, kinds.Nodup → (∀ kind ∈ kinds, isName kind) →
        s ≠ "+".intercalate kinds

/-- A pattern that is read back: no bare clause is the last part, and the body is not empty. -/
structure Pattern.WellFormed (p : Pattern) : Prop where
  target : p.target.WellFormed
  clauses : ∀ clause ∈ p.clauses, clause.WellFormed
  freeText : ∀ s, p.freeText? = some s → ∀ c ∈ [':', '|', '}'], c ∉ s.toList
  last : p.freeText? = none → ∀ s, p.clauses.getLast? ≠ some (.bare s)
  nonempty : p.clauses ≠ [] ∨ ∃ s, p.freeText? = some s ∧ s ≠ ""

/-! ## Targets -/

namespace Target

theorem isKindsChar_of_isNameChar {c : Char} (h : isNameChar c) : RawPattern.isKindsChar c := by
  rw [isNameChar, Bool.and_eq_true, Bool.not_eq_true', Bool.not_eq_true'] at h
  obtain ⟨hblank, hreserved⟩ := h
  refine RawPattern.isKindsChar_iff.2 ⟨?_, hblank⟩
  intro hc
  have hall : reservedChars.contains c = true := by
    simp only [List.mem_cons, List.not_mem_nil, or_false] at hc
    rcases hc with rfl | rfl | rfl | rfl <;> rfl
  rw [hall] at hreserved
  cases hreserved

theorem isNameChar_of_mem {kind : String} {c : Char} (h : isName kind) (hc : c ∈ kind.toList) :
    isNameChar c := by
  rw [isName, Bool.and_eq_true] at h
  exact List.all_eq_true.1 h.2 c hc

theorem plus_notMem {kind : String} (h : isName kind) : '+' ∉ kind.toList := by
  intro hc
  have := isNameChar_of_mem h hc
  exact absurd this (by decide)

/-- The names that a text of kinds is split into are those that it joins. -/
theorem splitOn_kinds {kinds : List String} (hne : kinds ≠ [])
    (h : ∀ kind ∈ kinds, isName kind) :
    (("+".intercalate kinds).toList.splitOn '+').map String.ofList = kinds := by
  rw [Text.splitOn_join rfl hne fun kind hkind => plus_notMem (h kind hkind), List.map_map]
  have hid : String.ofList ∘ String.toList = id := funext fun _ => String.ofList_toList
  rw [hid, List.map_id]

/-- The target of some names. -/
def ofNames : List String → Target
  | [kind] => .named kind
  | kinds => .complex kinds

/-- What a text of kinds is read as, when it joins distinct names. -/
theorem ofKinds_join {kinds : List String} (hne : kinds ≠ []) (hnodup : kinds.Nodup)
    (h : ∀ kind ∈ kinds, isName kind) : ofKinds ("+".intercalate kinds) = ofNames kinds := by
  have hempty : "+".intercalate kinds ≠ "" := by
    intro he
    have hsplit := splitOn_kinds hne h
    rw [he] at hsplit
    -- The one part of the empty text is no name.
    have hmem : "" ∈ kinds := hsplit ▸ List.mem_singleton_self _
    exact absurd (h "" hmem) (by decide)
  rw [ofKinds, if_neg hempty, splitOn_kinds hne h, if_pos ⟨hnodup, List.all_eq_true.2 h⟩]
  rcases kinds with _ | ⟨kind, _ | ⟨kind', rest⟩⟩ <;> rfl

/-- What a text of kinds is read as, when it joins no distinct names. -/
theorem ofKinds_of_ne {s : String} (h : ∀ kinds : List String, kinds.Nodup →
    (∀ kind ∈ kinds, isName kind) → s ≠ "+".intercalate kinds) : ofKinds s = .invalid s := by
  have hempty : s ≠ "" := h [] List.nodup_nil fun _ hk => by cases hk
  rw [ofKinds, if_neg hempty]
  refine if_neg ?_
  rintro ⟨hnodup, hall⟩
  exact h _ hnodup (List.all_eq_true.1 hall) (Text.join_splitOn rfl s).symm

/-- A target is read back from its kinds. -/
theorem ofKinds_kinds {t : Target} (h : t.WellFormed) : ofKinds t.kinds = t := by
  cases t with
  | loose => rfl
  | named kind =>
    have hall : ∀ k ∈ [kind], isName k := by
      intro k hk
      rw [List.mem_singleton.1 hk]
      exact h
    have hjoin := ofKinds_join (List.cons_ne_nil kind []) (by simp) hall
    rwa [String.intercalate_singleton] at hjoin
  | complex kinds =>
    obtain ⟨hlen, hnodup, hall⟩ := h
    match kinds, hlen, hnodup, hall with
    | kind :: kind' :: rest, _, hnodup, hall => exact ofKinds_join (by simp) hnodup hall
  | invalid s => exact ofKinds_of_ne h.2

/-- The kinds of a target hold no character that would end them. -/
theorem isKindsChar_of_mem {t : Target} (h : t.WellFormed) {c : Char} (hc : c ∈ t.kinds.toList) :
    RawPattern.isKindsChar c := by
  cases t with
  | loose => cases hc
  | named kind => exact isKindsChar_of_isNameChar (isNameChar_of_mem h hc)
  | complex kinds =>
    rcases Text.mem_join rfl hc with rfl | ⟨kind, hkind, hc⟩
    · decide
    · exact isKindsChar_of_isNameChar (isNameChar_of_mem (h.2.2 kind hkind) hc)
  | invalid s => exact RawPattern.isKindsChar_iff.2 (h.1 c hc)

end Target

/-! ## Members, groups and values -/

theorem Member.ofChars_text {m : Member} (h : m.WellFormed) : ofChars m.text.toList = m := by
  obtain ⟨name, negated⟩ := m
  cases negated with
  | true =>
    show ofChars ("!" ++ name).toList = _
    rw [String.toList_append]
    show (⟨String.ofList name.toList, true⟩ : Member) = _
    rw [String.ofList_toList]
  | false =>
    have hplain := h.plain rfl
    show ofChars name.toList = _
    unfold ofChars
    split
    · rename_i cs hcs
      exact absurd (by rw [hcs]; rfl) hplain
    · rw [String.ofList_toList]

/-- The text of a member adds at most the mark of negation to its name. -/
theorem Member.notMem_text {m : Member} {c : Char} (hname : c ∉ m.name.toList) (hc : c ≠ '!') :
    c ∉ m.text.toList := by
  unfold text
  split
  · rw [String.toList_append]
    intro hmem
    rcases List.mem_append.1 hmem with hmem | hmem
    · exact hc (List.mem_singleton.1 hmem)
    · exact hname hmem
  · exact hname

theorem Group.ofChars_text {g : Group} (h : g.WellFormed) : ofChars g.text.toList = g := by
  obtain ⟨members⟩ := g
  have hne : members.map Member.text ≠ [] := by simpa using h.nonempty
  have hcomma : ∀ part ∈ members.map Member.text, ',' ∉ part.toList := by
    intro part hpart
    obtain ⟨m, hm, rfl⟩ := List.mem_map.1 hpart
    exact Member.notMem_text ((h.members m hm).chars ',' (by simp)) (by decide)
  rw [ofChars, text, Text.splitOn_join rfl hne hcomma, List.map_map, List.map_map]
  refine congrArg Group.mk ((List.map_congr_left ?_).trans (List.map_id members))
  intro m hm
  exact Member.ofChars_text (h.members m hm)

theorem Group.notMem_text {g : Group} (h : g.WellFormed) {c : Char}
    (hc : c ∈ ['+', ':', '|', '}']) : c ∉ g.text.toList := by
  intro hmem
  rcases Text.mem_join rfl hmem with rfl | ⟨part, hpart, hmem⟩
  · exact absurd hc (by decide)
  · obtain ⟨m, hm, rfl⟩ := List.mem_map.1 hpart
    have hsub : c ∈ ['+', ',', ':', '|', '}'] ∧ c ≠ '!' := by
      simp only [List.mem_cons, List.not_mem_nil, or_false] at hc
      rcases hc with rfl | rfl | rfl | rfl <;> decide
    exact Member.notMem_text ((h.members m hm).chars c hsub.1) hsub.2 hmem

theorem Value.ofChars_written (v : Value) : ofChars v.written.toList = v := by
  cases v with
  | loud => rfl
  | text s =>
    simp only [written]
    split
    case isTrue =>
      rw [String.toList_append]
      show text (String.ofList s.toList) = text s
      rw [String.ofList_toList]
    case isFalse h =>
      unfold ofChars
      split
      · rename_i hs
        exact absurd (.inl (String.toList_inj.1 hs)) h
      · rename_i cs hs
        exact absurd (.inr (by rw [hs]; rfl)) h
      · rw [String.ofList_toList]

theorem Value.notMem_written {v : Value} (h : v.WellFormed) {c : Char} (hc : c = '|' ∨ c = '}') :
    c ∉ v.written.toList := by
  cases v with
  | loud => rcases hc with rfl | rfl <;> decide
  | text s =>
    have hs : c ∉ s.toList := by
      rcases hc with rfl | rfl
      · exact h.1
      · exact h.2
    simp only [written]
    split
    · rw [String.toList_append]
      intro hmem
      rcases List.mem_append.1 hmem with hmem | hmem
      · rw [List.mem_singleton.1 hmem] at hc
        exact absurd hc (by decide)
      · exact hs hmem
    · exact hs

/-! ## Clauses -/

namespace Clause

theorem toList_written_choice (gs : List Group) (v : Value) :
    (choice gs v).written.toList = (choice gs v).tokens.toList ++ ':' :: v.written.toList := by
  rw [written, String.toList_append, String.toList_append, List.append_assoc]
  rfl

theorem notMem_tokens {gs : List Group} {v : Value} (h : (choice gs v).WellFormed) {c : Char}
    (hc : c ∈ [':', '|', '}']) : c ∉ (choice gs v).tokens.toList := by
  intro hmem
  rcases Text.mem_join rfl hmem with rfl | ⟨part, hpart, hmem⟩
  · exact absurd hc (by decide)
  · obtain ⟨g, hg, rfl⟩ := List.mem_map.1 hpart
    exact Group.notMem_text (h.2.1 g hg) (List.mem_cons_of_mem _ hc) hmem

theorem ofTokens_written {gs : List Group} {v : Value} (h : (choice gs v).WellFormed) :
    ofTokens (choice gs v).tokens.toList v.written.toList = choice gs v := by
  obtain ⟨hne, hgroups, -⟩ := h
  have hplus : ∀ part ∈ gs.map Group.text, '+' ∉ part.toList := by
    intro part hpart
    obtain ⟨g, hg, rfl⟩ := List.mem_map.1 hpart
    exact Group.notMem_text (hgroups g hg) (by simp)
  have hread : (gs.map Group.text).map (Group.ofChars ∘ String.toList) = gs := by
    rw [List.map_map]
    refine (List.map_congr_left ?_).trans (List.map_id gs)
    intro g hg
    exact Group.ofChars_text (hgroups g hg)
  rw [ofTokens, tokens, Text.splitOn_join rfl (by simpa using hne) hplus, List.map_map, hread,
    Value.ofChars_written]

theorem splitFirst_choice {gs : List Group} {v : Value} (h : (choice gs v).WellFormed) :
    Text.splitFirst ':' (choice gs v).written.toList =
      some ((choice gs v).tokens.toList, v.written.toList) := by
  rw [toList_written_choice]
  exact Text.splitFirst_append (notMem_tokens h (by simp))

/-- A clause is read back from its written form. -/
theorem ofChars_written {clause : Clause} (h : clause.WellFormed) :
    ofChars clause.written.toList = clause := by
  cases clause with
  | bare s =>
    have hnone : Text.splitFirst ':' s.toList = none :=
      Text.splitFirst_eq_none_iff.2 (h ':' (by simp))
    show ofChars s.toList = _
    simp only [ofChars, hnone, String.ofList_toList]
  | choice gs v => simp only [ofChars, splitFirst_choice h, ofTokens_written h]

theorem notMem_written {clause : Clause} (h : clause.WellFormed) {c : Char}
    (hc : c = '|' ∨ c = '}') : c ∉ clause.written.toList := by
  have hmem : c ∈ [':', '|', '}'] := by
    rcases hc with rfl | rfl <;> simp
  cases clause with
  | bare s => exact h c hmem
  | choice gs v =>
    rw [toList_written_choice]
    intro hin
    rcases List.mem_append.1 hin with hin | hin
    · exact notMem_tokens h hmem hin
    · rcases List.mem_cons.1 hin with rfl | hin
      · exact absurd hc (by decide)
      · exact Value.notMem_written h.2.2 hc hin

end Clause

/-! ## Patterns -/

namespace Pattern

theorem readParts_cons {part : List Char} {parts : List (List Char)} (h : parts ≠ []) :
    readParts (part :: parts) = (.ofChars part :: (readParts parts).1, (readParts parts).2) := by
  cases parts with
  | nil => exact absurd rfl h
  | cons part' parts => rfl

/-- The parts of a body are read back. -/
theorem readParts_written {clauses : List Clause} {freeText? : Option String}
    (hclauses : ∀ clause ∈ clauses, clause.WellFormed)
    (hfree : ∀ s, freeText? = some s → ':' ∉ s.toList)
    (hlast : freeText? = none → ∀ s, clauses.getLast? ≠ some (.bare s)) :
    readParts ((clauses.map Clause.written ++ freeText?.toList).map String.toList) =
      (clauses, freeText?) := by
  induction clauses with
  | nil =>
    cases freeText? with
    | none => rfl
    | some s =>
      have hnone := Text.splitFirst_eq_none_iff.2 (hfree s rfl)
      show readParts [s.toList] = _
      simp only [readParts, hnone, String.ofList_toList]
  | cons clause clauses ih =>
    have hclause := hclauses clause List.mem_cons_self
    by_cases hrest : clauses = [] ∧ freeText? = none
    · obtain ⟨rfl, rfl⟩ := hrest
      -- A clause that is the last part has a colon.
      cases clause with
      | bare s => exact absurd rfl (hlast rfl s)
      | choice gs v =>
        show readParts [(Clause.choice gs v).written.toList] = _
        simp only [readParts, Clause.splitFirst_choice hclause, Clause.ofTokens_written hclause]
    · have hne : (clauses.map Clause.written ++ freeText?.toList).map String.toList ≠ [] := by
        intro hnil
        refine hrest ?_
        simpa using hnil
      have ih' := ih (fun c hc => hclauses c (List.mem_cons_of_mem _ hc)) fun hnone s hs => by
        cases clauses with
        | nil => exact hrest ⟨rfl, hnone⟩
        | cons c cs => exact hlast hnone s (by rwa [List.getLast?_cons_cons])
      rw [List.map_cons, List.cons_append, List.map_cons, readParts_cons hne, ih',
        Clause.ofChars_written hclause]

theorem parts_ne_nil {p : Pattern} (h : p.WellFormed) : p.parts ≠ [] := by
  intro hnil
  obtain ⟨hclauses, hfree⟩ := List.append_eq_nil_iff.1 hnil
  rcases h.nonempty with hne | ⟨s, hs, -⟩
  · exact hne (by simpa using hclauses)
  · rw [hs] at hfree
    cases hfree

theorem notMem_parts {p : Pattern} (h : p.WellFormed) {c : Char} (hc : c = '|' ∨ c = '}') :
    ∀ part ∈ p.parts, c ∉ part.toList := by
  intro part hpart
  rcases List.mem_append.1 hpart with hpart | hpart
  · obtain ⟨clause, hclause, rfl⟩ := List.mem_map.1 hpart
    exact Clause.notMem_written (h.clauses clause hclause) hc
  · refine h.freeText part (by simpa using hpart) c ?_
    rcases hc with rfl | rfl <;> simp

theorem isBody_body {p : Pattern} (h : p.WellFormed) : RawPattern.IsBody p.body.toList := by
  have hsplit : p.body.toList.splitOn '|' = p.parts.map String.toList :=
    Text.splitOn_join rfl (parts_ne_nil h) (notMem_parts h (.inl rfl))
  constructor
  · intro hempty
    rw [hempty, List.splitOn_nil] at hsplit
    have hread := readParts_written h.clauses (fun s hs => h.freeText s hs ':' (by simp)) h.last
    -- An empty body would be read as an empty free text.
    have hparts : readParts (p.parts.map String.toList) = ([], some "") := by
      rw [← hsplit]
      rfl
    obtain ⟨hclauses, hfree⟩ := Prod.mk.inj (hread.symm.trans hparts)
    rcases h.nonempty with hne | ⟨s, hs, hne⟩
    · exact hne hclauses
    · exact hne (Option.some.inj (hs.symm.trans hfree))
  · intro hclose
    rcases Text.mem_join rfl hclose with he | ⟨part, hpart, hmem⟩
    · exact absurd he (by decide)
    · exact notMem_parts h (.inr rfl) part hpart hmem

/-! ## Patterns with a given body -/

/-- The pattern of a target with the given body. -/
def withBody (target : Target) (body : String) : Pattern :=
  ofBody target.kinds.toList body.toList

theorem source_withBody (target : Target) (body : String) :
    (withBody target body).source = "@" ++ target.kinds ++ r"{" ++ body ++ r"}" := by
  rw [← String.toList_inj, withBody, Piece.source_ofBody]
  simp

theorem target_withBody {target : Target} (h : target.WellFormed) (body : String) :
    (withBody target body).target = target := by
  show Target.ofKinds (String.ofList target.kinds.toList) = target
  rw [String.ofList_toList, Target.ofKinds_kinds h]

/-- A pattern with a given body is the one segment of its source. -/
theorem scan_withBody {target : Target} (h : target.WellFormed) {body : String}
    (hbody : RawPattern.IsBody body.toList) :
    scan (withBody target body).source = [.pattern (withBody target body)] := by
  refine scan_ofBody ⟨?_, List.cons_ne_nil _ _, ?_⟩
  · intro c hc
    exact RawPattern.isKindsChar_iff.1 (Target.isKindsChar_of_mem h hc)
  · intro body' hbody'
    rw [List.mem_singleton.1 hbody']
    exact hbody

/-- The body of a well-formed pattern is read back, with the written form as its source. -/
theorem withBody_body {p : Pattern} (h : p.WellFormed) :
    withBody p.target p.body = { p with source := p.written } := by
  have hsplit : p.body.toList.splitOn '|' = p.parts.map String.toList :=
    Text.splitOn_join rfl (parts_ne_nil h) (notMem_parts h (.inl rfl))
  have hread : readParts (p.parts.map String.toList) = (p.clauses, p.freeText?) :=
    readParts_written h.clauses (fun s hs => h.freeText s hs ':' (by simp)) h.last
  have hsource := source_withBody p.target p.body
  have htarget := target_withBody h.target p.body
  unfold withBody ofBody at hsource htarget ⊢
  rw [hsplit, hread] at hsource htarget ⊢
  exact congrArg₂ (fun s t => Pattern.mk s t p.clauses p.freeText?) hsource htarget

/-- A well-formed pattern is the one segment of its written form. -/
theorem scan_written {p : Pattern} (h : p.WellFormed) :
    scan p.written = [.pattern { p with source := p.written }] := by
  rw [← withBody_body h, ← scan_withBody h.target (isBody_body h), source_withBody]
  rfl

end Pattern

end Inflection

import Inflection.Proofs.Pattern.Segments

/-!
# Protected texts

`protect` puts one more mark before each raw pattern of a text, so that every one of them stands
escaped.  The new marks give rise to no raw pattern: from its mark up to its first body a raw
pattern holds no other mark, so one that the protected text has was in the text before.

## Main statements

* `RawPattern.exists_begins_iff`: whether a text begins with a raw pattern.
* `Piece.Cuts.guarded`: how a protected text is cut.
* `patterns_protect`, `flatMap_source_scan_protect`: it holds no patterns, and its literal text is
  the text before.
-/

namespace Inflection

/-! ## Where a raw pattern begins -/

namespace RawPattern

/-- A body can be read from a text after its opening brace. -/
def Opens (cs : List Char) : Prop := '}' ∈ cs ∧ cs.head? ≠ some '}'

theorem exists_isBody_iff {cs : List Char} :
    (∃ body rest, IsBody body ∧ '{' :: cs = braced body ++ rest) ↔ Opens cs := by
  constructor
  · rintro ⟨body, rest, ⟨hne, hclose⟩, hcs⟩
    have hcs' : cs = body ++ '}' :: rest := by simpa [braced] using hcs
    refine ⟨by simp [hcs'], ?_⟩
    cases body with
    | nil => exact absurd rfl hne
    | cons c body =>
      rintro hhead
      rw [hcs', List.cons_append, List.head?_cons] at hhead
      exact hclose (Option.some.inj hhead ▸ List.mem_cons_self)
  · rintro ⟨hmem, hhead⟩
    cases hs : Text.splitFirst '}' cs with
    | none => exact absurd hmem (Text.splitFirst_eq_none_iff.1 hs)
    | some p =>
      obtain ⟨body, rest⟩ := p
      obtain ⟨rfl, hclose⟩ := Text.splitFirst_eq_some_iff.1 hs
      refine ⟨body, rest, ⟨?_, hclose⟩, by simp [braced]⟩
      rintro rfl
      exact hhead rfl

theorem ends_iff {cs : List Char} : Ends cs ↔ ∀ cs', cs = '{' :: cs' → ¬Opens cs' := by
  constructor
  · rintro h cs' rfl hopens
    obtain ⟨body, rest, hbody, hcs⟩ := exists_isBody_iff.2 hopens
    exact h body rest hbody hcs
  · intro h body rest hbody hcs
    refine h (body ++ '}' :: rest) (by simp [hcs, braced]) ?_
    exact exists_isBody_iff.1 ⟨body, rest, hbody, by simp [braced]⟩

/-- A text begins with a raw pattern when a body stands after its mark and the kinds. -/
theorem exists_begins_iff {cs : List Char} :
    (∃ raw rest, Begins cs raw rest) ↔ ∃ kinds cs', cs = '@' :: (kinds ++ '{' :: cs') ∧
      (∀ c ∈ kinds, isKindsChar c) ∧ Opens cs' := by
  constructor
  · rintro ⟨⟨kinds, bodies⟩, rest, ⟨hkinds, hne, hbodies⟩, hcs, -⟩
    cases bodies with
    | nil => exact absurd rfl hne
    | cons body bodies =>
      have hbody := hbodies body List.mem_cons_self
      refine ⟨kinds, body ++ '}' :: (bodies.flatMap braced ++ rest), ?_, ?_, ?_⟩
      · simp [hcs, text, braced, mark]
      · exact fun c hc => isKindsChar_iff.2 (hkinds c hc)
      · exact exists_isBody_iff.1
          ⟨body, bodies.flatMap braced ++ rest, hbody, by simp [braced]⟩
  · rintro ⟨kinds, cs', rfl, hkinds, hopens⟩
    obtain ⟨body, rest, ⟨hne, hclose⟩, hcs⟩ := exists_isBody_iff.2 hopens
    have hread := readBodies_of_some (readBody_eq_some_iff.2 ⟨hcs, hne, hclose⟩)
    obtain ⟨hbodies, hends⟩ := isBody_of_mem_readBodies ('{' :: cs')
    refine ⟨⟨kinds, (readBodies ('{' :: cs')).1⟩, (readBodies ('{' :: cs')).2,
      ⟨fun c hc => isKindsChar_iff.1 (hkinds c hc), ?_, hbodies⟩, ?_, hends⟩
    · rw [hread]
      exact List.cons_ne_nil _ _
    · rw [text, List.cons_append, List.append_assoc, flatMap_readBodies, mark]

/-- The kinds of a raw pattern hold no mark. -/
theorem mark_notMem_kinds {kinds : List Char} (h : ∀ c ∈ kinds, isKindsChar c) : '@' ∉ kinds := by
  intro hmem
  exact absurd (h '@' hmem) (by decide)

theorem mark_cons_ne {kinds cs cs' : List Char} (h : '@' ∉ kinds) :
    '@' :: cs ≠ kinds ++ '{' :: cs' := by
  intro he
  cases kinds with
  | nil => exact absurd (List.cons.inj he).1 (by decide)
  | cons c kinds => exact h ((List.cons.inj he).1 ▸ List.mem_cons_self)

/-- No raw pattern begins with two marks. -/
theorem not_begins_mark_mark {c : Char} {cs rest : List Char} {raw : RawPattern} :
    ¬Begins (c :: '@' :: cs) raw rest := by
  intro h
  obtain ⟨kinds, cs', hcs, hkinds, -⟩ := exists_begins_iff.1 ⟨raw, rest, h⟩
  exact mark_cons_ne (mark_notMem_kinds hkinds) (List.cons.inj hcs).2

end RawPattern

/-! ## Guarded pieces -/

namespace Piece

open RawPattern

/-- The piece as it is written with one more mark before its raw pattern, if it has one. -/
def guarded : Piece → List Char
  | escaped c raw => c :: '@' :: raw.text
  | pattern raw => '@' :: raw.text
  | char c => [c]

/-- The pieces that a piece with one more mark is cut into. -/
def guardedPieces : Piece → List Piece
  | escaped c raw => [.char c, .escaped '@' raw]
  | pattern raw => [.escaped '@' raw]
  | char c => [.char c]

theorem mem_guarded_iff {piece : Piece} {c : Char} (hc : c ≠ '@') :
    c ∈ piece.guarded ↔ c ∈ piece.text := by
  cases piece with
  | escaped e raw => simp [guarded, text, hc]
  | pattern raw => simp [guarded, text, hc]
  | char d => rfl

namespace Cuts

variable {cs : List Char} {pieces : List Piece}

theorem flatMap_text (h : Cuts cs pieces) : pieces.flatMap text = cs := by
  rw [h.eq_cut, text_cut]

theorem head?_guarded (h : Cuts cs pieces) : (pieces.flatMap Piece.guarded).head? = cs.head? := by
  cases h with
  | nil => rfl
  | escaped => rfl
  | pattern _ h => exact h.head?_eq.symm
  | char => rfl

/-- A body can be read after an opening brace exactly when one could before. -/
theorem opens_guarded_iff (h : Cuts cs pieces) :
    Opens (pieces.flatMap Piece.guarded) ↔ Opens cs := by
  have hmem : '}' ∈ pieces.flatMap Piece.guarded ↔ '}' ∈ cs := by
    rw [← h.flatMap_text, List.mem_flatMap, List.mem_flatMap]
    exact exists_congr fun piece => and_congr_right fun _ => mem_guarded_iff (by decide)
  rw [Opens, Opens, hmem, h.head?_guarded]

/-- Text of the guarded pieces up to an opening brace is text of the pieces, if it holds no
mark. -/
theorem exists_of_guarded_eq {kinds cs' : List Char} (h : Cuts cs pieces) (hkinds : '@' ∉ kinds)
    (he : pieces.flatMap Piece.guarded = kinds ++ '{' :: cs') :
    ∃ rest pieces', cs = kinds ++ '{' :: rest ∧ Cuts rest pieces' ∧
      pieces'.flatMap Piece.guarded = cs' := by
  induction h generalizing kinds with
  | nil => simp at he
  | @escaped c cs rest raw pieces hc =>
    rw [List.flatMap_cons, Piece.guarded, List.cons_append, List.cons_append] at he
    cases kinds with
    | nil =>
      have hopen : c = '{' := (List.cons.inj he).1
      rcases hc with rfl | rfl
      · exact absurd hopen (by decide)
      · exact absurd hopen (by decide)
    | cons k kinds =>
      have hmem : '@' ∉ kinds := fun hk => hkinds (List.mem_cons_of_mem _ hk)
      exact absurd (List.cons.inj he).2 (mark_cons_ne hmem)
  | pattern =>
    rw [List.flatMap_cons, Piece.guarded, List.cons_append] at he
    exact absurd he (mark_cons_ne hkinds)
  | @char c cs pieces _ _ hrest ih =>
    rw [List.flatMap_cons, Piece.guarded, List.singleton_append] at he
    cases kinds with
    | nil =>
      obtain ⟨rfl, htail⟩ := List.cons.inj he
      exact ⟨cs, pieces, rfl, hrest, htail⟩
    | cons k kinds =>
      obtain ⟨rfl, htail⟩ := List.cons.inj he
      have hmem : '@' ∉ kinds := fun hk => hkinds (List.mem_cons_of_mem _ hk)
      obtain ⟨rest, pieces', rfl, hrest', he'⟩ := ih hmem htail
      exact ⟨rest, pieces', rfl, hrest', he'⟩

theorem ends_guarded (h : Cuts cs pieces) (hends : Ends cs) :
    Ends (pieces.flatMap Piece.guarded) := by
  refine ends_iff.2 ?_
  intro cs' he hopens
  have hnil : '@' ∉ ([] : List Char) := List.not_mem_nil
  obtain ⟨rest, pieces', rfl, hrest, rfl⟩ := h.exists_of_guarded_eq hnil he
  exact ends_iff.1 hends rest rfl (hrest.opens_guarded_iff.1 hopens)

/-- When the guarded pieces begin with a raw pattern, so did the text. -/
theorem exists_begins_of_guarded (h : Cuts cs pieces)
    (hb : ∃ raw rest, Begins (pieces.flatMap Piece.guarded) raw rest) :
    ∃ raw rest, Begins cs raw rest := by
  obtain ⟨raw, rest, hb⟩ := hb
  cases h with
  | nil => exact ⟨raw, rest, hb⟩
  | escaped => exact absurd hb not_begins_mark_mark
  | pattern => exact absurd hb not_begins_mark_mark
  | @char c cs pieces _ _ hrest =>
    obtain ⟨kinds, cs', he, hkinds, hopens⟩ := exists_begins_iff.1 ⟨raw, rest, hb⟩
    obtain ⟨rfl, htail⟩ := List.cons.inj he
    obtain ⟨rest', pieces', rfl, hrest', rfl⟩ :=
      hrest.exists_of_guarded_eq (mark_notMem_kinds hkinds) htail
    exact exists_begins_iff.2 ⟨kinds, rest', rfl, hkinds, hrest'.opens_guarded_iff.1 hopens⟩

/-- The guarded pieces are cut where the pieces were, and before each new mark. -/
theorem guarded (h : Cuts cs pieces) :
    Cuts (pieces.flatMap Piece.guarded) (pieces.flatMap guardedPieces) := by
  induction h with
  | nil => exact .nil
  | @escaped c cs rest raw pieces hc h hrest ih =>
    rw [List.flatMap_cons, List.flatMap_cons]
    have hbegins : Begins (raw.text ++ pieces.flatMap Piece.guarded) raw _ :=
      ⟨h.wellFormed, rfl, hrest.ends_guarded h.ends⟩
    refine .char ?_ (fun _ _ => not_begins_mark_mark) (.escaped (.inl rfl) hbegins ih)
    rintro ⟨-, raw', rest', hb⟩
    exact not_begins_mark_mark hb
  | @pattern c cs rest raw pieces _ h hrest ih =>
    rw [List.flatMap_cons, List.flatMap_cons]
    exact .escaped (.inl rfl) ⟨h.wellFormed, rfl, hrest.ends_guarded h.ends⟩ ih
  | @char c cs pieces hescape h hrest ih =>
    have hcuts : Cuts (c :: cs) (.char c :: pieces) := .char hescape h hrest
    refine .char ?_ ?_ ih
    · rintro ⟨hc, hb⟩
      exact hescape ⟨hc, hrest.exists_begins_of_guarded hb⟩
    · intro raw rest hb
      obtain ⟨raw', rest', hb'⟩ := hcuts.exists_begins_of_guarded ⟨raw, rest, hb⟩
      exact h raw' rest' hb'

end Cuts

/-- The pieces of a piece with one more mark give no pattern. -/
theorem filterMap_pattern?_guardedPieces (piece : Piece) :
    (piece.guardedPieces.flatMap segments).filterMap Segment.pattern? = [] := by
  cases piece <;> rfl

/-- They give the text of the piece. -/
theorem flatMap_source_guardedPieces (piece : Piece) :
    (piece.guardedPieces.flatMap segments).flatMap Segment.source = piece.text := by
  cases piece with
  | escaped c raw => simp [guardedPieces, segments, Segment.source, text]
  | pattern raw => simp [guardedPieces, segments, Segment.source, text]
  | char c => simp [guardedPieces, segments, Segment.source, text]

end Piece

/-! ## Protected texts -/

/-- The text with one more mark right before each raw pattern, escaped or not. -/
def protect (text : String) : String :=
  String.ofList ((Piece.cut text.toList).flatMap Piece.guarded)

theorem scan_protect (text : String) : scan (protect text) =
    Segment.joined ((Piece.cut text.toList).flatMap fun piece =>
      piece.guardedPieces.flatMap Piece.segments) := by
  rw [scan_eq_joined, protect, String.toList_ofList, ← (Piece.cuts_cut text.toList).guarded.eq_cut,
    List.flatMap_assoc]

/-- A protected text holds no pattern. -/
theorem patterns_protect (text : String) : patterns (protect text) = [] := by
  rw [patterns, scan_protect, Segment.filterMap_pattern?_joined, List.filterMap_flatMap]
  exact List.flatMap_eq_nil_iff.2 fun piece _ => piece.filterMap_pattern?_guardedPieces

/-- The literal text of a protected text is the text before. -/
theorem flatMap_source_scan_protect (text : String) :
    (scan (protect text)).flatMap Segment.source = text.toList := by
  rw [scan_protect, Segment.flatMap_source_joined, List.flatMap_assoc]
  simp only [Piece.flatMap_source_guardedPieces, Piece.text_cut]

/-- The mark goes between an escape and its raw pattern, and none is put before a mark that begins
no raw pattern. -/
example : protect r"\@{a}@k{b}{c}@x@{}" = r"\@@{a}@@k{b}{c}@x@{}" := by decide +kernel

end Inflection

import Inflection.Proofs.Pattern.Grammar
import Mathlib.Data.List.Chain

/-!
# The segments of a text

Each piece of a text gives its segments by itself: literal text, or the patterns of a raw pattern.
`Segment.joined` puts neighbouring literals together, and what comes out is the scan of the text.

## Main statements

* `Segment.ofPieces_eq_joined`: the segments of a cut are those of its pieces, joined.
* `exists_of_mem_patterns`, `scan_source`: each pattern of a text is one body of a raw pattern of
  its cut, and the one segment of its own source.
* `existsUnique_cut_scan`: a text has one cut, and its scan is what the pieces of the cut give.
-/

namespace Inflection

/-! ## Joining literals -/

namespace Segment

/-- The text that a segment is written as. -/
def source : Segment → List Char
  | literal s => s.toList
  | pattern p => p.source.toList

/-- Whether a segment is literal text. -/
def isLiteral : Segment → Bool
  | literal _ => true
  | pattern _ => false

/-- Two neighbours are not both literal. -/
def Separate (s t : Segment) : Prop := ¬(s.isLiteral ∧ t.isLiteral)

/-- The segments with neighbouring literals put together. -/
def joined : List Segment → List Segment
  | [] => []
  | literal s :: segments =>
    match joined segments with
    | literal t :: rest => literal (s ++ t) :: rest
    | rest => literal s :: rest
  | pattern p :: segments => pattern p :: joined segments

@[simp] theorem joined_pattern (p : Pattern) (segments : List Segment) :
    joined (pattern p :: segments) = pattern p :: joined segments := rfl

theorem joined_literal_of_literal {s t : String} {segments rest : List Segment}
    (h : joined segments = literal t :: rest) :
    joined (literal s :: segments) = literal (s ++ t) :: rest := by
  rw [joined, h]

theorem joined_literal_of_ne {s : String} {segments : List Segment}
    (h : ∀ t rest, joined segments ≠ literal t :: rest) :
    joined (literal s :: segments) = literal s :: joined segments := by
  rw [joined]
  split
  · rename_i t rest hrest
    exact absurd hrest (h t rest)
  · rfl

theorem joined_map_pattern (ps : List Pattern) (segments : List Segment) :
    joined (ps.map pattern ++ segments) = ps.map pattern ++ joined segments := by
  induction ps with
  | nil => rfl
  | cons p ps ih => rw [List.map_cons, List.cons_append, joined_pattern, ih, List.cons_append]

/-- A literal before some segments, joined: it is put before the first of them, or takes it in. -/
theorem joined_literal_cases (s : String) (segments : List Segment) :
    (∃ t rest, joined segments = literal t :: rest ∧
        joined (literal s :: segments) = literal (s ++ t) :: rest) ∨
      ((∀ t rest, joined segments ≠ literal t :: rest) ∧
        joined (literal s :: segments) = literal s :: joined segments) := by
  by_cases h : ∃ t rest, joined segments = literal t :: rest
  · obtain ⟨t, rest, h⟩ := h
    exact .inl ⟨t, rest, h, joined_literal_of_literal h⟩
  · have hne : ∀ t rest, joined segments ≠ literal t :: rest := fun t rest ht => h ⟨t, rest, ht⟩
    exact .inr ⟨hne, joined_literal_of_ne hne⟩

/-- Joining neither adds nor drops a character. -/
theorem flatMap_source_joined (segments : List Segment) :
    (joined segments).flatMap source = segments.flatMap source := by
  induction segments with
  | nil => rfl
  | cons segment segments ih =>
    cases segment with
    | pattern p => rw [joined_pattern, List.flatMap_cons, List.flatMap_cons, ih]
    | literal s =>
      rw [List.flatMap_cons, ← ih]
      rcases joined_literal_cases s segments with ⟨t, rest, h, hjoined⟩ | ⟨-, hjoined⟩
      · rw [hjoined, h, List.flatMap_cons, List.flatMap_cons, ← List.append_assoc]
        simp only [source, String.toList_append]
      · rw [hjoined, List.flatMap_cons]

/-- Joining leaves the patterns alone. -/
theorem filterMap_pattern?_joined (segments : List Segment) :
    (joined segments).filterMap pattern? = segments.filterMap pattern? := by
  induction segments with
  | nil => rfl
  | cons segment segments ih =>
    cases segment with
    | pattern p => simp [ih]
    | literal s =>
      rw [List.filterMap_cons_none (pattern?_literal s), ← ih]
      rcases joined_literal_cases s segments with ⟨t, rest, h, hjoined⟩ | ⟨-, hjoined⟩
      · rw [hjoined, h, List.filterMap_cons_none (pattern?_literal _),
          List.filterMap_cons_none (pattern?_literal _)]
      · rw [hjoined, List.filterMap_cons_none (pattern?_literal s)]

theorem empty_notMem_joined {segments : List Segment} (h : literal "" ∉ segments) :
    literal "" ∉ joined segments := by
  induction segments with
  | nil => exact h
  | cons segment segments ih =>
    have hne : literal "" ≠ segment := fun he => h (he ▸ List.mem_cons_self)
    have hrest := ih fun hmem => h (List.mem_cons_of_mem _ hmem)
    cases segment with
    | pattern p =>
      rw [joined_pattern]
      intro hmem
      rcases List.mem_cons.1 hmem with he | hmem
      · cases he
      · exact hrest hmem
    | literal s =>
      intro hmem
      rcases joined_literal_cases s segments with ⟨t, rest, hj, hjoined⟩ | ⟨-, hjoined⟩
      · rw [hjoined] at hmem
        rw [hj] at hrest
        rcases List.mem_cons.1 hmem with he | hmem
        · have hst : s ++ t = "" := (Segment.literal.inj he).symm
          have hs : s = "" := (String.append_eq_empty_iff.1 hst).1
          exact hne (congrArg literal hs.symm)
        · exact hrest (List.mem_cons_of_mem _ hmem)
      · rw [hjoined] at hmem
        rcases List.mem_cons.1 hmem with he | hmem
        · exact hne he
        · exact hrest hmem

/-- After joining, no two literals are neighbours. -/
theorem isChain_joined (segments : List Segment) : (joined segments).IsChain Separate := by
  induction segments with
  | nil => exact .nil
  | cons segment segments ih =>
    cases segment with
    | pattern p =>
      rw [joined_pattern]
      refine List.isChain_cons.2 ⟨?_, ih⟩
      intro t _ h
      cases h.1
    | literal s =>
      rcases joined_literal_cases s segments with ⟨t, rest, h, hjoined⟩ | ⟨hne, hjoined⟩
      · rw [hjoined]
        rw [h, List.isChain_cons] at ih
        exact List.isChain_cons.2 ⟨ih.1, ih.2⟩
      · rw [hjoined]
        refine List.isChain_cons.2 ⟨?_, ih⟩
        intro t ht hlit
        cases t with
        | pattern p => cases hlit.2
        | literal t =>
          obtain ⟨rest, hrest⟩ := List.head?_eq_some_iff.1 ht
          exact hne t rest hrest

end Segment

/-! ## What a piece gives -/

namespace Piece

/-- The segments that a piece gives. -/
def segments : Piece → List Segment
  | escaped _ raw => [.literal (String.ofList raw.text)]
  | pattern raw => raw.bodies.map fun body => .pattern (.ofBody raw.kinds body)
  | char c => [.literal (String.ofList [c])]

/-- What the segments of a piece keep of it: not an escape, and the kinds once for each body. -/
def kept : Piece → List Char
  | escaped _ raw => raw.text
  | pattern raw => raw.bodies.flatMap fun body => '@' :: (raw.kinds ++ '{' :: (body ++ ['}']))
  | char c => [c]

theorem source_ofBody (kinds body : List Char) :
    (Pattern.ofBody kinds body).source.toList = '@' :: (kinds ++ '{' :: (body ++ ['}'])) := by
  show (String.ofList (mark :: (kinds ++ '{' :: (body ++ ['}'])))).toList = _
  rw [String.toList_ofList, mark]

theorem flatMap_source_segments (piece : Piece) :
    piece.segments.flatMap Segment.source = piece.kept := by
  cases piece with
  | escaped c raw => simp [segments, kept, Segment.source]
  | pattern raw => simp [segments, kept, Segment.source, List.flatMap_map, source_ofBody]
  | char c => simp [segments, kept, Segment.source]

theorem empty_notMem_segments (piece : Piece) : .literal "" ∉ piece.segments := by
  cases piece with
  | escaped c raw =>
    intro h
    have htext := congrArg String.toList (Segment.literal.inj (List.mem_singleton.1 h))
    simp [RawPattern.text] at htext
  | pattern raw =>
    intro h
    obtain ⟨body, -, hbody⟩ := List.mem_map.1 h
    cases hbody
  | char c =>
    intro h
    have htext := congrArg String.toList (Segment.literal.inj (List.mem_singleton.1 h))
    simp at htext

end Piece

namespace Segment

/-! ## The segments of a cut -/

/-- Literal text put before segments that have been joined with some text before them. -/
theorem joined_prepend {cs lead : List Char} {segments rest : List Segment} (hcs : cs ≠ [])
    (hjoined : joined segments = prependLiteral lead rest)
    (hrest : ∀ t tail, rest ≠ literal t :: tail) :
    joined (literal (String.ofList cs) :: segments) = prependLiteral (cs ++ lead) rest := by
  have hfull : prependLiteral (cs ++ lead) rest = literal (String.ofList (cs ++ lead)) :: rest := by
    cases cs with
    | nil => exact absurd rfl hcs
    | cons c cs => rfl
  rw [hfull]
  cases lead with
  | nil =>
    have hsame : joined segments = rest := hjoined
    rw [joined_literal_of_ne (by rwa [hsame]), hsame, List.append_nil]
  | cons c lead =>
    have hlit : joined segments = literal (String.ofList (c :: lead)) :: rest := hjoined
    rw [joined_literal_of_literal hlit, String.ofList_append]

/-- What the pieces of a cut are assembled to is what they give, joined; after the text that it
begins with no literal follows. -/
theorem assemble_cuts {cs : List Char} {pieces : List Piece} (h : Piece.Cuts cs pieces) :
    joined (pieces.flatMap Piece.segments) =
        prependLiteral (assemble pieces).1 (assemble pieces).2 ∧
      ∀ t tail, (assemble pieces).2 ≠ literal t :: tail := by
  induction h with
  | nil => exact ⟨rfl, fun t tail h => by cases h⟩
  | @escaped c cs rest raw pieces hc h hrest ih =>
    obtain ⟨hjoined, hne⟩ := ih
    have htext : raw.text ≠ [] := List.cons_ne_nil _ _
    exact ⟨joined_prepend htext hjoined hne, hne⟩
  | @pattern c cs rest raw pieces hescape h hrest ih =>
    obtain ⟨hjoined, -⟩ := ih
    have hmap : (Piece.pattern raw).segments = raw.patterns.map Segment.pattern := by
      show raw.bodies.map _ = (raw.bodies.map _).map _
      rw [List.map_map]
      rfl
    have hassemble : assemble (.pattern raw :: pieces) = ([], raw.patterns.map pattern ++
        prependLiteral (assemble pieces).1 (assemble pieces).2) := rfl
    rw [List.flatMap_cons, hmap, joined_map_pattern, hjoined, hassemble]
    refine ⟨rfl, ?_⟩
    intro t tail
    cases hb : raw.bodies with
    | nil => exact absurd hb h.wellFormed.bodies
    | cons body bodies => simp [RawPattern.patterns, hb]
  | @char c cs pieces hescape h hrest ih =>
    obtain ⟨hjoined, hne⟩ := ih
    exact ⟨joined_prepend (List.cons_ne_nil c []) hjoined hne, hne⟩

theorem ofPieces_eq_joined {cs : List Char} {pieces : List Piece} (h : Piece.Cuts cs pieces) :
    ofPieces pieces = joined (pieces.flatMap Piece.segments) :=
  (assemble_cuts h).1.symm

end Segment

theorem scan_eq_joined (text : String) :
    scan text = Segment.joined ((Piece.cut text.toList).flatMap Piece.segments) :=
  Segment.ofPieces_eq_joined (Piece.cuts_cut _)

/-- Each pattern of a text is one body of a raw pattern of its cut. -/
theorem exists_of_mem_patterns {text : String} {p : Pattern} (h : p ∈ patterns text) :
    ∃ raw : RawPattern, raw.WellFormed ∧ ∃ body ∈ raw.bodies, p = .ofBody raw.kinds body := by
  unfold patterns at h
  rw [scan_eq_joined, Segment.filterMap_pattern?_joined] at h
  obtain ⟨segment, hsegment, hp⟩ := List.mem_filterMap.1 h
  obtain ⟨piece, hpiece, hsegment⟩ := List.mem_flatMap.1 hsegment
  cases piece with
  | escaped c raw =>
    rw [List.mem_singleton.1 hsegment] at hp
    cases hp
  | char c =>
    rw [List.mem_singleton.1 hsegment] at hp
    cases hp
  | pattern raw =>
    obtain ⟨body, hbody, rfl⟩ := List.mem_map.1 hsegment
    exact ⟨raw, (Piece.cuts_cut _).wellFormed hpiece, body, hbody, (Option.some.inj hp).symm⟩

/-- The one segment of a text is among its patterns. -/
theorem mem_patterns_of_scan {text : String} {p : Pattern} (h : scan text = [.pattern p]) :
    p ∈ patterns text := by
  rw [patterns, h]
  exact List.mem_singleton_self p

/-- One body after some kinds is scanned as a pattern. -/
theorem scan_ofBody {kinds body : List Char} (hraw : RawPattern.WellFormed ⟨kinds, [body]⟩) :
    scan (Pattern.ofBody kinds body).source = [.pattern (.ofBody kinds body)] := by
  have htext : RawPattern.text ⟨kinds, [body]⟩ = (Pattern.ofBody kinds body).source.toList := by
    simp [RawPattern.text, RawPattern.braced, mark, Piece.source_ofBody]
  rw [scan_eq_joined, ← htext, ← (Piece.cuts_text hraw).eq_cut]
  rfl

/-- A pattern of a text is the one segment of its source. -/
theorem scan_source {text : String} {p : Pattern} (h : p ∈ patterns text) :
    scan p.source = [.pattern p] := by
  obtain ⟨raw, hraw, body, hbody, rfl⟩ := exists_of_mem_patterns h
  refine scan_ofBody ⟨hraw.kinds, List.cons_ne_nil _ _, ?_⟩
  intro body' hbody'
  rw [List.mem_singleton.1 hbody']
  exact hraw.isBody body hbody

/-- A text is cut in exactly one way, and its scan is what the pieces of that cut give, with
neighbouring literals joined.  So every character is kept, but for the escape of an escaped
pattern, and the kinds of a pattern are repeated for each of its bodies. -/
theorem existsUnique_cut_scan (text : String) :
    (∃! pieces, Piece.Cuts text.toList pieces) ∧
      ∃ pieces, Piece.Cuts text.toList pieces ∧
        scan text = Segment.joined (pieces.flatMap Piece.segments) ∧
        (∀ raw, (Piece.pattern raw).segments.map Segment.source =
          raw.bodies.map fun body => '@' :: (raw.kinds ++ '{' :: (body ++ ['}']))) ∧
        pieces.flatMap Piece.text = text.toList ∧
        (scan text).flatMap Segment.source = pieces.flatMap Piece.kept ∧
        .literal "" ∉ scan text ∧ (scan text).IsChain Segment.Separate := by
  have hcuts : Piece.Cuts text.toList (Piece.cut text.toList) := Piece.cuts_cut _
  have hscan := scan_eq_joined text
  refine ⟨⟨_, hcuts, fun other hother => hother.eq_cut⟩, _, hcuts, hscan, ?_,
    Piece.text_cut _, ?_, ?_, ?_⟩
  · intro raw
    simp only [Piece.segments, List.map_map]
    exact List.map_congr_left fun body _ => Piece.source_ofBody raw.kinds body
  · rw [hscan, Segment.flatMap_source_joined, List.flatMap_assoc]
    exact congrArg (List.flatMap · _) (funext Piece.flatMap_source_segments)
  · rw [hscan]
    refine Segment.empty_notMem_joined ?_
    intro hmem
    obtain ⟨piece, -, hpiece⟩ := List.mem_flatMap.1 hmem
    exact Piece.empty_notMem_segments piece hpiece
  · rw [hscan]
    exact Segment.isChain_joined _

/-- An escape is dropped, and the two bodies of a raw pattern give two patterns. -/
example : (scan "\\@{a}@k{b}{c}!").map Segment.source =
    ["@{a}".toList, "@k{b}".toList, "@k{c}".toList, "!".toList] := by decide +kernel

end Inflection

import Inflection.Proofs.Lexicon.Load
import Inflection.Proofs.Store.Family
import Mathlib.Algebra.GroupWithZero.Nat

/-!
# What summaries account for

The rows of a summary come from the kinds of the stores, their numbers from the tokens.  That
nothing is left out or counted twice is the invariant of the stores: the kinds are those of the
tokens, so the tokens of a store fall apart into those of its kinds.

## Main statements

* `sum_length_ofKind`: tokens split by kinds that come once each and leave out no token.
* `sum_counted_loose`, `sum_counted_strict`: what the rows of a store count is its size.
* `Lexicon.summary_accounts`: a summary lists each kind that has a token once for each sort, and
  counts each token and each alias once.
-/

namespace Inflection

/-! ## The rows of a summary -/

/-- Names that each come once, as many as counted, and that are those with a property. -/
structure Counts (number : Nat) (has : String → Bool) (names : List String) : Prop where
  length : names.length = number
  nodup : names.Nodup
  mem_iff : ∀ name, name ∈ names ↔ has name

namespace KindSummary

/-- A row counts the true tokens of its kind, of which there is one at least, and the aliases, and
its default is one of the true tokens. -/
structure Accounts (row : KindSummary) (isTrue isAlias : String → Bool) : Prop where
  tokens : ∃ names, Counts row.tokens isTrue names ∧
    ∀ name, row.default? = some name → name ∈ names
  aliases : ∃ names, Counts row.aliases isAlias names
  pos : 0 < row.tokens

/-- The number of tokens and aliases of a row. -/
def counted (row : KindSummary) : Nat := row.tokens + row.aliases

/-- The kind of a row as `Lexicon.kindNames` names it. -/
def label (row : KindSummary) : String := if row.strict then putMark row.kind else row.kind

end KindSummary

namespace LooseStore

variable {s : LooseStore}

/-- The names of the listed tokens with a property are those that are found to have it. -/
theorem WellFormed.mem_names_iff (hs : s.WellFormed) {kind? : Option String} {p : Token → Bool}
    {name : String} :
    name ∈ ((s.tokensOf kind?).filter p).map Token.name ↔ (s.token? name kind?).any p := by
  rw [List.mem_map, Option.any_eq_true]
  have hname {name t} (ht : s.token? name kind? = some t) : t.name = name :=
    hs.name_eq (token?_eq_some_iff.1 ht).1
  refine ⟨?_, ?_⟩
  · rintro ⟨t, ht, rfl⟩
    obtain ⟨ht, hp⟩ := List.mem_filter.1 ht
    obtain ⟨name, ht⟩ := mem_tokensOf_iff.1 ht
    exact ⟨t, (hname ht).symm ▸ ht, hp⟩
  · rintro ⟨t, ht, hp⟩
    exact ⟨t, List.mem_filter.2 ⟨mem_tokensOf_iff.2 ⟨name, ht⟩, hp⟩, hname ht⟩

theorem WellFormed.counts (hs : s.WellFormed) (kind : String) (p : Token → Bool) :
    Counts ((s.tokensOf (some kind)).filter p).length
      (fun name => (s.token? name (some kind)).any p)
      (((s.tokensOf (some kind)).filter p).map Token.name) where
  length := List.length_map ..
  nodup := (hs.nodup_names (some kind)).sublist (List.filter_sublist.map _)
  mem_iff _ := hs.mem_names_iff

theorem hasTrueToken_of_get? {name : String} {t : Token} (h : s.tokens.get? name = some t)
    (ht : t.target? = none) : s.hasTrueToken name (some t.kind) := by
  have htoken : s.token? name (some t.kind) = some t :=
    token?_eq_some_iff.2 ⟨h, fun _ => Option.some.inj⟩
  simp [hasTrueToken, htoken, Token.isAlias, ht]

theorem WellFormed.accounts (hs : s.WellFormed) {kind : String} (hkind : s.hasKind kind) :
    (s.summaryOf kind).Accounts (s.hasTrueToken · (some kind)) (s.hasAlias · (some kind)) where
  tokens := by
    refine ⟨_, hs.counts kind (!·.isAlias), ?_⟩
    intro name h
    obtain ⟨t, ht, hnone, rfl⟩ := hs.default h
    exact hs.mem_names_iff.2 (hasTrueToken_of_get? ht hnone)
  aliases := ⟨_, hs.counts kind (·.isAlias)⟩
  pos := by
    obtain ⟨name, t, ht, hnone, rfl⟩ := hs.base hkind
    have hmem : name ∈ (s.trueTokensOf (some t.kind)).map Token.name :=
      hs.mem_names_iff.2 (hasTrueToken_of_get? ht hnone)
    have hpos := List.length_pos_of_mem hmem
    rwa [List.length_map] at hpos

theorem WellFormed.hasKind_iff_hasToken (hs : s.WellFormed) {kind : String} :
    s.hasKind kind ↔ ∃ name, s.hasToken name (some kind) := by
  rw [hs.hasKind_iff]
  simp only [hasToken, Option.isSome_iff_exists, token?_eq_some_iff, Option.some.injEq,
    forall_eq']

/-- A row counts each token of its kind as a true token or as an alias. -/
theorem counted_summaryOf (s : LooseStore) (kind : String) :
    (s.summaryOf kind).counted = (s.tokensOf (some kind)).length := by
  rw [List.length_eq_length_filter_add Token.isAlias, Nat.add_comm]
  rfl

end LooseStore

namespace StrictStore.WellFormed

variable {s : StrictStore}

/-- The row of a strict kind is that of its slice. -/
theorem summaryOf_eq (hs : s.WellFormed) (kind : String) :
    s.summaryOf kind = { (s.slice kind).summaryOf kind with strict := true } := by
  have h := hs.answersLike_slice kind
  rw [StrictStore.summaryOf, h.trueTokens, h.aliases, h.default]
  rfl

theorem accounts (hs : s.WellFormed) {kind : String} (hkind : s.hasKind kind) :
    (s.summaryOf kind).Accounts (s.hasTrueToken · kind) (s.hasAlias · kind) := by
  have h := hs.answersLike_slice kind
  have hslice := (hs.slice kind).accounts (h.hasKind ▸ hkind)
  rw [hs.summaryOf_eq, funext h.hasTrueToken, funext h.hasAlias]
  exact ⟨hslice.tokens, hslice.aliases, hslice.pos⟩

theorem hasKind_iff_hasToken (hs : s.WellFormed) {kind : String} :
    s.hasKind kind ↔ ∃ name, s.hasToken name kind := by
  have h := hs.answersLike_slice kind
  rw [h.hasKind, (hs.slice kind).hasKind_iff_hasToken]
  simp only [h.hasToken]

theorem counted_summaryOf (hs : s.WellFormed) (kind : String) :
    (s.summaryOf kind).counted = (s.tokensOf (some kind)).length := by
  rw [tokensOf_slice hs, ← LooseStore.counted_summaryOf, hs.summaryOf_eq]
  rfl

end StrictStore.WellFormed

/-! ## The sizes of the stores -/

/-- Tokens fall apart into those of each kind, when the kinds leave out none and no kind comes
twice. -/
theorem sum_length_ofKind {kinds : List String} (hnodup : kinds.Nodup) {ts : List Token}
    (h : ∀ t ∈ ts, t.kind ∈ kinds) :
    (kinds.map fun kind => (ts.filter (·.kind == kind)).length).sum = ts.length := by
  induction kinds generalizing ts with
  | nil =>
    rw [List.eq_nil_iff_forall_not_mem.2 fun t ht => List.not_mem_nil (h t ht)]
    rfl
  | cons kind kinds ih =>
    obtain ⟨hnotMem, hnodup⟩ := List.nodup_cons.1 hnodup
    have hrest : ∀ t ∈ ts.filter (!·.kind == kind), t.kind ∈ kinds := by
      intro t ht
      obtain ⟨ht, hne⟩ := List.mem_filter.1 ht
      exact (List.mem_cons.1 (h t ht)).resolve_left (by simpa using hne)
    -- The tokens of a later kind are not of the first one, so they are all left in the rest.
    have hlater : ∀ later ∈ kinds,
        ((ts.filter (!·.kind == kind)).filter (·.kind == later)).length =
          (ts.filter (·.kind == later)).length := by
      intro later hl
      rw [List.filter_filter]
      refine congrArg List.length (List.filter_congr ?_)
      intro t _
      by_cases ht : t.kind = later
      · have hne : later ≠ kind := fun heq => hnotMem (heq ▸ hl)
        simp [ht, hne]
      · simp [ht]
    rw [List.map_cons, List.sum_cons, ← List.map_congr_left hlater, ih hnodup hrest,
      ← List.length_eq_length_filter_add]

theorem sum_counted_loose {s : LooseStore} (hs : s.WellFormed) :
    ((s.kindNames.map s.summaryOf).map KindSummary.counted).sum = s.size := by
  have hkinds : ∀ t ∈ s.tokens.values, t.kind ∈ s.kindNames := by
    intro t ht
    obtain ⟨name, hname⟩ := SortedMap.mem_values_iff.1 ht
    exact SortedMap.mem_keys_iff.2 (hs.hasKind hname)
  have hsum := sum_length_ofKind s.kinds.nodup_keys hkinds
  rw [SortedMap.values, List.length_map] at hsum
  rw [List.map_map, LooseStore.size, SortedMap.size, ← hsum]
  exact congrArg List.sum (List.map_congr_left fun kind _ => s.counted_summaryOf kind)

theorem sum_counted_strict {s : StrictStore} (hs : s.WellFormed) :
    ((s.kindNames.map s.summaryOf).map KindSummary.counted).sum = s.size := by
  have hrow : ∀ e ∈ s.kinds.toList, (s.summaryOf e.1).counted = e.2.tokens.size := by
    intro e he
    have hkind : (s.kinds.toList.filter fun f => (some e.1).all (f.1 == ·)) = [e] := by
      refine (SortedMap.filter_toList s.kinds e.1).trans ?_
      rw [SortedMap.mem_toList_iff.1 he]
      rfl
    rw [hs.counted_summaryOf, StrictStore.tokensOf, hkind, List.flatMap_singleton,
      SortedMap.values, List.length_map, SortedMap.size]
  calc ((s.kindNames.map s.summaryOf).map KindSummary.counted).sum
      = (s.kinds.toList.map fun e => e.2.tokens.size).sum := by
        rw [StrictStore.kindNames, SortedMap.keys, List.map_map, List.map_map]
        exact congrArg List.sum (List.map_congr_left hrow)
    _ = s.size := by
        rw [StrictStore.size, SortedMap.values, List.foldr_map, List.sum_eq_foldr, List.foldr_map]

/-! ## Summaries -/

namespace Lexicon

/-- Rows for the kinds of one sort that have a token, in name order, so that each comes once. -/
structure Lists (d : Lexicon) (strict : Bool) (rows : List KindSummary) : Prop where
  sort_eq : ∀ row ∈ rows, row.strict = strict
  sorted : (rows.map KindSummary.kind).Pairwise (· < ·)
  mem_iff : ∀ kind, kind ∈ rows.map KindSummary.kind ↔ ∃ name, d.hasToken strict name kind

variable {d : Lexicon}

/-- Rows for the names of a map are in name order. -/
theorem lists_map {α : Type} {m : SortedMap α} {strict : Bool} {row : String → KindSummary}
    (hkind : ∀ kind, (row kind).kind = kind) (hstrict : ∀ kind, (row kind).strict = strict)
    (h : ∀ kind, m.contains kind ↔ ∃ name, d.hasToken strict name kind) :
    d.Lists strict (m.keys.map row) := by
  have hkinds : (m.keys.map row).map KindSummary.kind = m.keys := by
    rw [List.map_map]
    exact (List.map_congr_left fun kind _ => hkind kind).trans (List.map_id _)
  constructor
  case sort_eq =>
    intro _ hrow
    obtain ⟨kind, -, rfl⟩ := List.mem_map.1 hrow
    exact hstrict kind
  case sorted =>
    rw [hkinds]
    exact m.keys_sorted
  case mem_iff =>
    intro kind
    rw [hkinds, SortedMap.mem_keys_iff, h]

theorem lists_loose (hs : d.loose.WellFormed) :
    d.Lists false (d.loose.kindNames.map d.loose.summaryOf) :=
  lists_map (fun _ => rfl) (fun _ => rfl) fun _ => hs.hasKind_iff_hasToken

theorem lists_strict (hs : d.strict.WellFormed) :
    d.Lists true (d.strict.kindNames.map d.strict.summaryOf) :=
  lists_map (fun _ => rfl) (fun _ => rfl) fun _ => hs.hasKind_iff_hasToken

theorem map_label_summary (d : Lexicon) : d.summary.map KindSummary.label = d.kindNames := by
  rw [summary, kindNames, List.map_append, List.map_map, List.map_map]
  exact congrArg (· ++ _) (List.map_id _)

theorem sum_counted (hd : d.Built) : (d.summary.map KindSummary.counted).sum = d.tokenCount := by
  rw [summary, List.map_append, List.sum_append, sum_counted_loose hd.wellFormed_loose,
    sum_counted_strict hd.wellFormed_strict, tokenCount]

theorem accounts_of_mem_summary (hd : d.Built) {row : KindSummary} (h : row ∈ d.summary) :
    row.Accounts (d.hasTrueToken row.strict · row.kind) (d.hasAlias row.strict · row.kind) := by
  rcases List.mem_append.1 h with h | h
  · obtain ⟨kind, hkind, rfl⟩ := List.mem_map.1 h
    exact hd.wellFormed_loose.accounts (SortedMap.mem_keys_iff.1 hkind)
  · obtain ⟨kind, hkind, rfl⟩ := List.mem_map.1 h
    exact hd.wellFormed_strict.accounts (SortedMap.mem_keys_iff.1 hkind)

/-- A summary lists each kind that has a token once for each sort, loose kinds first and each part
in name order, as `kindNames` does.  Its numbers add up to all tokens and aliases; each row counts
the true tokens and the aliases of its kind, and its default is one of these true tokens. -/
theorem summary_accounts (hd : d.Reachable) :
    (∃ loose strict, d.summary = loose ++ strict ∧ d.Lists false loose ∧ d.Lists true strict) ∧
      (d.summary.map KindSummary.label = d.kindNames ∧ d.kindNames.Nodup) ∧
      (d.summary.map KindSummary.counted).sum = d.tokenCount ∧
      ∀ row ∈ d.summary, row.Accounts (d.hasTrueToken row.strict · row.kind)
        (d.hasAlias row.strict · row.kind) := by
  have hbuilt := hd.toBuilt
  refine ⟨?_, ?_, ?_, ?_⟩
  · exact ⟨_, _, rfl, lists_loose hbuilt.wellFormed_loose, lists_strict hbuilt.wellFormed_strict⟩
  · exact ⟨map_label_summary d, hbuilt.nodup_kindNames⟩
  · exact sum_counted hbuilt
  · intro row hrow
    exact accounts_of_mem_summary hbuilt hrow

/-- A lexicon of three tokens of a loose kind that has a default, and two of a strict one. -/
theorem summary_accounts_gender :
    let d : Lexicon := ⟨"en", (LooseStore.empty "en").attemptAll
      [.addToken "f" "gender" "female", .addToken "m" "gender" "male",
        .addAlias "fem" "f" (some "gender"), .setDefault "gender" "fem"],
      (StrictStore.empty "en").attemptAll
      [.addToken "m" "gender" "male", .addAlias "masc" "m" "gender"]⟩
    (d.summary.map KindSummary.label = d.kindNames ∧ d.kindNames.Nodup) ∧
      d.kindNames = ["gender", "@gender"] ∧
      (d.summary.map KindSummary.counted).sum = d.tokenCount ∧ d.tokenCount = 5 := by
  intro d
  have hd : d.Reachable := .built ⟨⟨"en", _, rfl⟩, ⟨"en", _, rfl⟩⟩
  have h := summary_accounts hd
  exact ⟨h.2.1, by decide +kernel, h.2.2.1, by decide +kernel⟩

end Lexicon

end Inflection

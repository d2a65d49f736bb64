import Inflection.Proofs.Lexicon.Load
import Inflection.Proofs.Store.Family

/-!
# Writing a lexicon back

`Lexicon.toTree` writes a lexicon as a raw tree: a true token with its description, an alias as a
pointer at its target, and a default under its own name.  In the entries written for a kind every
walk along pointers ends with its first look-up, since aliases are flat and defaults resolved.

## Main statements

* `LooseStore.gives_entriesOf_iff`, `LooseStore.hasDefault_entriesOf_iff`: the entries written for
  a kind give the tokens and the default of the kind.
* `Lexicon.loadable_toTree`, `Lexicon.describes_toTree`: the tree of a lexicon can be loaded, and
  describes it.
* `Lexicon.load_toTree`: loading the tree of a lexicon gives the lexicon back.
-/

namespace Inflection

/-! ## The tree of a lexicon -/

/-- The value of a token in a configuration: its description, or a pointer at its target. -/
def Token.rawValue (t : Token) : String :=
  match t.target? with
  | none => t.description
  | some target => putMark target

theorem Token.rawValue_of_plain {t : Token} (h : t.target? = none) :
    t.rawValue = t.description := by
  rw [rawValue, h]

theorem Token.rawValue_of_alias {t : Token} {target : String} (h : t.target? = some target) :
    t.rawValue = putMark target := by
  rw [rawValue, h]

theorem Token.eq_mk {t : Token} {name kind description : String} {target? : Option String}
    (hn : t.name = name) (hk : t.kind = kind) (hd : t.description = description)
    (ht : t.target? = target?) : t = ⟨name, kind, description, target?⟩ := by
  cases t
  cases hn
  cases hk
  cases hd
  cases ht
  rfl

/-- The entries of a kind with some tokens and a default. -/
def RawKind.ofTokens (tokens : List Token) (default? : Option String) : RawKind :=
  .ofEntries (tokens.map (fun t => (t.name, t.rawValue)) ++
    default?.toList.map fun name => (defaultName, name))

/-- A lexicon as a raw tree. -/
def Lexicon.toTree (d : Lexicon) : RawTree :=
  .ofList
    (d.loose.kindNames.map (fun kind =>
        (kind, .ofTokens (d.loose.tokensOf (some kind)) (d.loose.default? kind))) ++
      d.strict.kindNames.map fun kind =>
        (putMark kind, .ofTokens (d.strict.tokensOf (some kind)) (d.strict.default? kind)))

/-! ## Listed tokens -/

theorem StrictStore.mem_tokensOf_iff {s : StrictStore} {t : Token} :
    t ∈ s.tokensOf none ↔ ∃ name kind, s.token? name kind = some t := by
  have hall : (s.kinds.toList.filter fun e => (none : Option String).all (e.1 == ·)) =
      s.kinds.toList := List.filter_eq_self.2 fun _ _ => rfl
  rw [tokensOf, hall, List.mem_flatMap]
  refine ⟨?_, ?_⟩
  · rintro ⟨⟨kind, entry⟩, he, ht⟩
    obtain ⟨name, hname⟩ := SortedMap.mem_values_iff.1 ht
    exact ⟨name, kind, Option.bind_eq_some_iff.2 ⟨entry, SortedMap.mem_toList_iff.1 he, hname⟩⟩
  · rintro ⟨name, kind, h⟩
    obtain ⟨entry, hentry, hname⟩ := Option.bind_eq_some_iff.1 h
    exact ⟨(kind, entry), SortedMap.mem_toList_iff.2 hentry,
      SortedMap.mem_values_iff.2 ⟨name, hname⟩⟩

/-! ## The entries of a kind -/

namespace LooseStore

variable {s : LooseStore} {kind name target : String} {t : Token}

/-- The entries that are written for a kind. -/
def entriesOf (s : LooseStore) (kind : String) : RawKind :=
  .ofTokens (s.tokensOf (some kind)) (s.default? kind)

/-- No description of a true token begins with the mark. -/
def Unmarked (s : LooseStore) : Prop :=
  ∀ name t, s.tokens.get? name = some t → t.target? = none → isMarked t.description = false

/-- No name is written twice. -/
theorem WellFormed.nodup_entries (hs : s.WellFormed) (kind : String) :
    (((s.tokensOf (some kind)).map (fun t => (t.name, t.rawValue)) ++
      (s.default? kind).toList.map fun name => (defaultName, name)).map (·.1)).Nodup := by
  rw [List.map_append, List.map_map, List.map_map]
  refine List.nodup_append.2 ⟨hs.nodup_names (some kind), ?_, ?_⟩
  · cases s.default? kind with
    | none => exact List.nodup_nil
    | some name => exact List.nodup_singleton _
  · intro name hname name' hname'
    obtain ⟨t, ht, rfl⟩ := List.mem_map.1 hname
    obtain ⟨-, -, rfl⟩ := List.mem_map.1 hname'
    obtain ⟨name, hname⟩ := mem_tokensOf_iff.1 ht
    have hget := (token?_eq_some_iff.1 hname).1
    have hne := (hs.valid hget).2
    rw [← hs.name_eq hget] at hne
    exact hne

theorem get?_entriesOf_eq_some_iff (hs : s.WellFormed) {value? : Option String} :
    (s.entriesOf kind).get? name = some value? ↔
      (∃ t, s.token? name (some kind) = some t ∧ value? = some t.rawValue) ∨
        name = defaultName ∧ ∃ base, s.default? kind = some base ∧ value? = some base := by
  unfold entriesOf RawKind.ofTokens RawKind.ofEntries
  have hnodup := hs.nodup_entries kind
  generalize hes : (s.tokensOf (some kind)).map (fun t => (t.name, t.rawValue)) ++
    (s.default? kind).toList.map (fun name => (defaultName, name)) = es at hnodup ⊢
  have hnodup' : ((es.map fun e => (e.1, some e.2)).map (·.1)).Nodup := by
    rw [List.map_map]
    exact hnodup
  rw [SortedMap.get?_ofList_eq_some_iff hnodup', ← hes]
  simp only [List.mem_map, List.mem_append, Option.mem_toList, Prod.mk.injEq, or_and_right,
    exists_or]
  refine or_congr ⟨?_, ?_⟩ ⟨?_, ?_⟩
  · rintro ⟨_, ⟨t, ht, rfl⟩, rfl, rfl⟩
    obtain ⟨name, hname⟩ := mem_tokensOf_iff.1 ht
    rw [← hs.name_eq (token?_eq_some_iff.1 hname).1] at hname
    exact ⟨t, hname, rfl⟩
  · rintro ⟨t, ht, rfl⟩
    exact ⟨_, ⟨t, mem_tokensOf_iff.2 ⟨_, ht⟩, rfl⟩, hs.name_eq (token?_eq_some_iff.1 ht).1, rfl⟩
  · rintro ⟨_, ⟨base, hbase, rfl⟩, rfl, rfl⟩
    exact ⟨rfl, base, hbase, rfl⟩
  · rintro ⟨rfl, base, hbase, rfl⟩
    exact ⟨_, ⟨base, hbase, rfl⟩, rfl, rfl⟩

theorem token?_defaultName (hs : s.WellFormed) (kind? : Option String) :
    s.token? defaultName kind? = none := by
  refine Option.eq_none_iff_forall_ne_some.2 ?_
  intro t ht
  exact (hs.valid (token?_eq_some_iff.1 ht).1).2 rfl

theorem get?_entriesOf_of_ne (hs : s.WellFormed) (hn : name ≠ defaultName)
    {value? : Option String} :
    (s.entriesOf kind).get? name = some value? ↔
      ∃ t, s.token? name (some kind) = some t ∧ value? = some t.rawValue :=
  (get?_entriesOf_eq_some_iff hs).trans (or_iff_left fun h => hn h.1)

theorem get?_entriesOf_default (hs : s.WellFormed) {value? : Option String} :
    (s.entriesOf kind).get? defaultName = some value? ↔
      ∃ base, s.default? kind = some base ∧ value? = some base := by
  refine (get?_entriesOf_eq_some_iff hs).trans ((or_iff_right ?_).trans (and_iff_right rfl))
  rintro ⟨t, ht, -⟩
  rw [token?_defaultName hs] at ht
  cases ht

/-- A walk ends with its first look-up when this finds a true token. -/
theorem leads_entriesOf (hs : s.WellFormed) (hu : s.Unmarked) {pointer : String}
    (h : s.token? (stripMark pointer) (some kind) = some t) (ht : t.target? = none) :
    (s.entriesOf kind).Leads 1 pointer (stripMark pointer) := by
  have hget := (token?_eq_some_iff.1 h).1
  obtain ⟨hname, hn⟩ := hs.valid hget
  refine .stop hname hn ((get?_entriesOf_of_ne hs hn).2 ⟨t, h, rfl⟩) ?_
  rw [Token.rawValue_of_plain ht]
  exact hu _ _ hget ht

/-- The target of an alias is a true token of its kind, with its description. -/
theorem WellFormed.token?_target (hs : s.WellFormed)
    (h : s.token? name (some kind) = some t) (ht : t.target? = some target) :
    ∃ base, s.token? target (some kind) = some base ∧ base.target? = none ∧
      base.description = t.description := by
  obtain ⟨hget, hkind⟩ := token?_eq_some_iff.1 h
  obtain ⟨base, hbase, hnone, hbk, hdescription⟩ := hs.target hget ht
  refine ⟨base, token?_eq_some_iff.2 ⟨hbase, ?_⟩, hnone, hdescription⟩
  rintro _ ⟨⟩
  exact hbk.trans (hkind kind rfl)

/-- The pointer written for an alias leads to its target. -/
theorem leads_putMark (hs : s.WellFormed) (hu : s.Unmarked)
    (h : s.token? name (some kind) = some t) (ht : t.target? = some target) :
    (s.entriesOf kind).Leads 1 (putMark target) target := by
  obtain ⟨base, hbase, hnone, -⟩ := hs.token?_target h ht
  have hfound : s.token? (stripMark (putMark target)) (some kind) = some base := by
    rw [stripMark_putMark]
    exact hbase
  have hleads := leads_entriesOf hs hu hfound hnone
  rwa [stripMark_putMark] at hleads

/-- The name written for a default leads to it. -/
theorem leads_default (hs : s.WellFormed) (hu : s.Unmarked) (h : s.default? kind = some name) :
    (s.entriesOf kind).Leads 1 name name := by
  obtain ⟨t, hget, hnone, hkind⟩ := hs.default h
  have hstrip : stripMark name = name :=
    stripMark_of_not_isMarked (not_isMarked_of_isName (hs.valid hget).1)
  have htoken : s.token? (stripMark name) (some kind) = some t := by
    rw [hstrip]
    refine token?_eq_some_iff.2 ⟨hget, ?_⟩
    rintro _ ⟨⟩
    exact hkind
  have hleads := leads_entriesOf hs hu htoken hnone
  rwa [hstrip] at hleads

/-- The entries written for a kind give the tokens of the kind. -/
theorem gives_entriesOf_iff (hs : s.WellFormed) (hu : s.Unmarked) :
    (s.entriesOf kind).Gives kind name t ↔ s.token? name (some kind) = some t := by
  refine ⟨?_, ?_⟩
  · intro h
    cases h with
    | plain hn hget hv =>
      obtain ⟨u, hfound, hvalue⟩ := (get?_entriesOf_of_ne hs hn).1 hget
      obtain ⟨hname, hkind⟩ := token?_eq_some_iff.1 hfound
      cases htarget : u.target? with
      | some target =>
        rw [Option.some.inj hvalue, Token.rawValue_of_alias htarget, isMarked_putMark] at hv
        cases hv
      | none =>
        rw [Token.rawValue_of_plain htarget] at hvalue
        rw [hfound, Token.eq_mk (hs.name_eq hname) (hkind kind rfl) rfl htarget,
          Option.some.inj hvalue]
    | pointer hn hget hv hle hleads htarget =>
      obtain ⟨u, hfound, hvalue⟩ := (get?_entriesOf_of_ne hs hn).1 hget
      obtain ⟨hname, hkind⟩ := token?_eq_some_iff.1 hfound
      cases hnone : u.target? with
      | none =>
        rw [Option.some.inj hvalue, Token.rawValue_of_plain hnone, hu _ _ hname hnone] at hv
        cases hv
      | some target' =>
        rw [Option.some.inj hvalue, Token.rawValue_of_alias hnone] at hleads
        obtain ⟨-, rfl⟩ := hleads.unique (leads_putMark hs hu hfound hnone)
        -- The walk ends at the target, whose description the alias has copied.
        obtain ⟨base, hbase, hplain, hdescription⟩ := hs.token?_target hfound hnone
        obtain ⟨base', hbase', hvalue'⟩ :=
          (get?_entriesOf_of_ne hs hleads.plain.2.1).1 htarget
        obtain rfl : base = base' := Option.some.inj (hbase.symm.trans hbase')
        rw [Token.rawValue_of_plain hplain, hdescription] at hvalue'
        rw [hfound, Token.eq_mk (hs.name_eq hname) (hkind kind rfl) rfl hnone,
          Option.some.inj hvalue']
  · intro h
    obtain ⟨hget, hkind⟩ := token?_eq_some_iff.1 h
    have hn := (hs.valid hget).2
    have hentry := (get?_entriesOf_of_ne hs hn).2 ⟨t, h, rfl⟩
    cases htarget : t.target? with
    | none =>
      rw [Token.rawValue_of_plain htarget] at hentry
      rw [Token.eq_mk (hs.name_eq hget) (hkind kind rfl) rfl htarget]
      exact .plain hn hentry (hu _ _ hget htarget)
    | some target =>
      obtain ⟨base, hbase, hplain, hdescription⟩ := hs.token?_target h htarget
      have hleads := leads_putMark hs hu h htarget
      have hend := (get?_entriesOf_of_ne hs hleads.plain.2.1).2 ⟨base, hbase, rfl⟩
      rw [Token.rawValue_of_plain hplain, hdescription] at hend
      rw [Token.rawValue_of_alias htarget] at hentry
      rw [Token.eq_mk (hs.name_eq hget) (hkind kind rfl) rfl htarget]
      exact .pointer hn hentry (isMarked_putMark target) (by omega) hleads hend

/-- The entries written for a kind give the default of the kind. -/
theorem hasDefault_entriesOf_iff (hs : s.WellFormed) (hu : s.Unmarked) :
    (s.entriesOf kind).HasDefault target ↔ s.default? kind = some target := by
  refine ⟨?_, ?_⟩
  · rintro ⟨pointer, hget, n, -, hleads⟩
    obtain ⟨base, hbase, hvalue⟩ := (get?_entriesOf_default hs).1 hget
    rw [Option.some.inj hvalue] at hleads
    obtain ⟨-, rfl⟩ := hleads.unique (leads_default hs hu hbase)
    exact hbase
  · intro h
    exact ⟨target, (get?_entriesOf_default hs).2 ⟨target, h, rfl⟩, 1, by omega,
      leads_default hs hu h⟩

end LooseStore

namespace Lexicon

variable {d : Lexicon}

/-! ## The kinds of the tree -/

/-- No description of a true token begins with the mark, and no kind is named like a switch. -/
structure Writable (d : Lexicon) : Prop where
  loose : ∀ t ∈ d.loose.trueTokensOf none, isMarked t.description = false
  strict : ∀ t ∈ d.strict.trueTokensOf none, isMarked t.description = false
  kind_loose : ∀ kind ∈ d.loose.kindNames, isReservedKey kind = false
  kind_strict : ∀ kind ∈ d.strict.kindNames, isReservedKey kind = false

theorem Writable.unmarked (h : d.Writable) (σ : Option String) : (d.slice σ).Unmarked := by
  intro name t hget ht
  have hplain : !t.isAlias := by rw [Token.isAlias, ht]; rfl
  cases σ with
  | none =>
    refine h.loose t (List.mem_filter.2 ⟨LooseStore.mem_tokensOf_iff.2 ⟨name, ?_⟩, hplain⟩)
    exact LooseStore.token?_eq_some_iff.2 ⟨hget, fun _ h => (nomatch h)⟩
  | some kind =>
    refine h.strict t (List.mem_filter.2 ⟨StrictStore.mem_tokensOf_iff.2 ⟨name, kind, ?_⟩, hplain⟩)
    exact (StrictStore.get?_slice ..).symm.trans hget

theorem get?_toTree_iff (hd : d.Built) {key : String} {entries : RawKind} :
    d.toTree.get? key = some entries ↔
      (d.loose.hasKind key ∧ entries = d.loose.entriesOf key) ∨
        ∃ kind, key = putMark kind ∧ d.strict.hasKind kind ∧
          entries = (d.strict.slice kind).entriesOf kind := by
  have hkeys : (d.loose.kindNames ++ d.strict.kindNames.map putMark).Nodup := hd.nodup_kindNames
  have hstrict (kind : String) :
      RawKind.ofTokens (d.strict.tokensOf (some kind)) (d.strict.default? kind) =
        (d.strict.slice kind).entriesOf kind := by
    rw [LooseStore.entriesOf, StrictStore.tokensOf_slice hd.wellFormed_strict,
      StrictStore.default?_slice, if_pos rfl]
  unfold toTree
  simp only [hstrict]
  rw [SortedMap.get?_ofList_eq_some_iff (by simpa [Function.comp_def] using hkeys),
    List.mem_append, List.mem_map, List.mem_map]
  simp only [Prod.mk.injEq, LooseStore.kindNames, StrictStore.kindNames, SortedMap.mem_keys_iff]
  refine or_congr ⟨?_, ?_⟩ ⟨?_, ?_⟩
  · rintro ⟨kind, hkind, rfl, rfl⟩
    exact ⟨hkind, rfl⟩
  · rintro ⟨hkind, rfl⟩
    exact ⟨key, hkind, rfl, rfl⟩
  · rintro ⟨kind, hkind, rfl, rfl⟩
    exact ⟨kind, rfl, hkind, rfl⟩
  · rintro ⟨kind, rfl, hkind, rfl⟩
    exact ⟨kind, hkind, rfl, rfl⟩

theorem get?_toTree_loose (hd : d.Built) {kind : String} (hm : isMarked kind = false)
    {entries : RawKind} :
    d.toTree.get? kind = some entries ↔
      d.loose.hasKind kind ∧ entries = d.loose.entriesOf kind := by
  refine (get?_toTree_iff hd).trans (or_iff_left ?_)
  rintro ⟨kind', rfl, -⟩
  rw [isMarked_putMark] at hm
  cases hm

theorem get?_toTree_strict (hd : d.Built) {kind : String} {entries : RawKind} :
    d.toTree.get? (putMark kind) = some entries ↔
      d.strict.hasKind kind ∧ entries = (d.strict.slice kind).entriesOf kind := by
  refine (get?_toTree_iff hd).trans ((or_iff_right ?_).trans ⟨?_, ?_⟩)
  · rintro ⟨hkind, -⟩
    have hmark := not_isMarked_of_isName (hd.wellFormed_loose.valid_kind hkind)
    rw [isMarked_putMark] at hmark
    cases hmark
  · rintro ⟨kind', heq, hkind, rfl⟩
    obtain rfl : kind = kind' := by rw [← stripMark_putMark kind, heq, stripMark_putMark]
    exact ⟨hkind, rfl⟩
  · rintro ⟨hkind, rfl⟩
    exact ⟨kind, rfl, hkind, rfl⟩

/-- The entries of a kind of the tree are those of the kind in its namespace. -/
theorem hasKind_of_get?_toTree (hd : d.Built) {key : String} {entries : RawKind}
    (h : d.toTree.get? key = some entries) :
    (d.slice (space (isMarked key) (stripMark key))).hasKind (stripMark key) ∧
      entries = (d.slice (space (isMarked key) (stripMark key))).entriesOf (stripMark key) := by
  cases hm : isMarked key with
  | false =>
    rw [stripMark_of_not_isMarked hm]
    exact (get?_toTree_loose hd hm).1 h
  | true =>
    rw [← putMark_stripMark hm] at h
    obtain ⟨hkind, hentries⟩ := (get?_toTree_strict hd).1 h
    refine ⟨?_, hentries⟩
    show (d.strict.slice (stripMark key)).hasKind (stripMark key) = true
    rw [StrictStore.hasKind_slice, hkind, beq_self_eq_true]
    rfl

/-! ## Loading the tree -/

/-- The tree of a lexicon can be loaded. -/
theorem loadable_toTree (hd : d.Built) (hw : d.Writable) : d.toTree.Loadable where
  kind {key entries} hget := by
    rcases (get?_toTree_iff hd).1 hget with ⟨hkind, -⟩ | ⟨kind, rfl, hkind, -⟩
    · have hname := hd.wellFormed_loose.valid_kind hkind
      rw [stripMark_of_not_isMarked (not_isMarked_of_isName hname)]
      exact ⟨hname, hw.kind_loose key (SortedMap.mem_keys_iff.2 hkind)⟩
    · rw [stripMark_putMark]
      exact ⟨hd.wellFormed_strict.valid_kind hkind,
        hw.kind_strict kind (SortedMap.mem_keys_iff.2 hkind)⟩
  entry {key entries name value?} hget hv hn := by
    obtain ⟨-, rfl⟩ := hasKind_of_get?_toTree hd hget
    have hs := hd.slice (space (isMarked key) (stripMark key))
    obtain ⟨t, ht, rfl⟩ := (LooseStore.get?_entriesOf_of_ne hs hn).1 hv
    exact ⟨(hs.valid (LooseStore.token?_eq_some_iff.1 ht).1).1, _, rfl⟩
  loose {key key' entries entries' name} hget hget' hm hm' hv hv' hn := by
    obtain ⟨-, rfl⟩ := (get?_toTree_loose hd hm).1 hget
    obtain ⟨-, rfl⟩ := (get?_toTree_loose hd hm').1 hget'
    obtain ⟨value?, hv⟩ := Option.isSome_iff_exists.1 hv
    obtain ⟨value?', hv'⟩ := Option.isSome_iff_exists.1 hv'
    obtain ⟨t, ht, -⟩ := (LooseStore.get?_entriesOf_of_ne hd.wellFormed_loose hn).1 hv
    obtain ⟨t', ht', -⟩ := (LooseStore.get?_entriesOf_of_ne hd.wellFormed_loose hn).1 hv'
    obtain ⟨hname, hkind⟩ := LooseStore.token?_eq_some_iff.1 ht
    obtain ⟨hname', hkind'⟩ := LooseStore.token?_eq_some_iff.1 ht'
    rw [hname] at hname'
    rw [← hkind key rfl, ← hkind' key' rfl, Option.some.inj hname']
  pointer {key entries name pointer} hget hv hn hm := by
    obtain ⟨-, rfl⟩ := hasKind_of_get?_toTree hd hget
    have hs := hd.slice (space (isMarked key) (stripMark key))
    obtain ⟨t, ht, hvalue⟩ := (LooseStore.get?_entriesOf_of_ne hs hn).1 hv
    cases htarget : t.target? with
    | none =>
      rw [Option.some.inj hvalue, Token.rawValue_of_plain htarget,
        hw.unmarked _ _ _ (LooseStore.token?_eq_some_iff.1 ht).1 htarget] at hm
      cases hm
    | some target =>
      rw [Option.some.inj hvalue, Token.rawValue_of_alias htarget]
      exact ⟨1, by omega, target, LooseStore.leads_putMark hs (hw.unmarked _) ht htarget⟩
  default {key entries value?} hget hv := by
    obtain ⟨-, rfl⟩ := hasKind_of_get?_toTree hd hget
    have hs := hd.slice (space (isMarked key) (stripMark key))
    obtain ⟨base, hbase, rfl⟩ := (LooseStore.get?_entriesOf_default hs).1 hv
    exact ⟨base, rfl, 1, by omega, base, LooseStore.leads_default hs (hw.unmarked _) hbase⟩

/-- The tree of a lexicon describes it. -/
theorem describes_toTree (hd : d.Built) (hw : d.Writable) (hloose : d.loose.locale = d.locale)
    (hstrict : d.strict.locale = d.locale) : d.toTree.Describes d.locale d where
  locale_eq := ⟨rfl, hloose, hstrict⟩
  loose {name t} := by
    refine ⟨?_, ?_⟩
    · intro h
      have hkind := hd.wellFormed_loose.hasKind h
      have hm := not_isMarked_of_isName (hd.wellFormed_loose.valid_kind hkind)
      refine ⟨t.kind, _, (get?_toTree_loose hd hm).2 ⟨hkind, rfl⟩, hm, ?_⟩
      refine (LooseStore.gives_entriesOf_iff hd.wellFormed_loose (hw.unmarked none)).2
        (LooseStore.token?_eq_some_iff.2 ⟨h, ?_⟩)
      rintro _ ⟨⟩
      rfl
    · rintro ⟨kind, entries, hget, hm, hgives⟩
      obtain ⟨-, rfl⟩ := (get?_toTree_loose hd hm).1 hget
      have htoken :=
        (LooseStore.gives_entriesOf_iff hd.wellFormed_loose (hw.unmarked none)).1 hgives
      exact (LooseStore.token?_eq_some_iff.1 htoken).1
  strict {name kind t} := by
    have hgives : ((d.slice (some kind)).entriesOf kind).Gives kind name t ↔
        (d.slice (some kind)).token? name (some kind) = some t :=
      LooseStore.gives_entriesOf_iff (hd.slice (some kind)) (hw.unmarked (some kind))
    have htoken := StrictStore.token?_slice (hd.wellFormed_strict.slice kind) name
    refine ⟨?_, ?_⟩
    · intro h
      refine ⟨_, (get?_toTree_strict hd).2 ⟨hd.wellFormed_strict.hasKind h, rfl⟩, ?_⟩
      exact hgives.2 (htoken.trans h)
    · rintro ⟨entries, hget, hentry⟩
      obtain ⟨-, rfl⟩ := (get?_toTree_strict hd).1 hget
      exact htoken.symm.trans (hgives.1 hentry)
  default_loose {kind target} := by
    have hdefault : (d.loose.entriesOf kind).HasDefault target ↔
        d.loose.default? kind = some target :=
      LooseStore.hasDefault_entriesOf_iff hd.wellFormed_loose (hw.unmarked none)
    refine ⟨?_, ?_⟩
    · intro h
      obtain ⟨t, ht, -, rfl⟩ := hd.wellFormed_loose.default h
      have hkind := hd.wellFormed_loose.hasKind ht
      have hm := not_isMarked_of_isName (hd.wellFormed_loose.valid_kind hkind)
      exact ⟨_, (get?_toTree_loose hd hm).2 ⟨hkind, rfl⟩, hm, hdefault.2 h⟩
    · rintro ⟨entries, hget, hm, h⟩
      obtain ⟨-, rfl⟩ := (get?_toTree_loose hd hm).1 hget
      exact hdefault.1 h
  default_strict {kind target} := by
    have hdefault : ((d.slice (some kind)).entriesOf kind).HasDefault target ↔
        (d.slice (some kind)).default? kind = some target :=
      LooseStore.hasDefault_entriesOf_iff (hd.slice (some kind)) (hw.unmarked (some kind))
    have hslice : (d.strict.slice kind).default? kind = d.strict.default? kind := by
      rw [StrictStore.default?_slice, if_pos rfl]
    refine ⟨?_, ?_⟩
    · intro h
      obtain ⟨t, ht, -⟩ := hd.wellFormed_strict.default h
      refine ⟨_, (get?_toTree_strict hd).2 ⟨hd.wellFormed_strict.hasKind ht, rfl⟩, ?_⟩
      exact hdefault.2 (hslice.trans h)
    · rintro ⟨entries, hget, h⟩
      obtain ⟨-, rfl⟩ := (get?_toTree_strict hd).1 hget
      exact hslice.symm.trans (hdefault.1 h)
  kind_loose := hd.wellFormed_loose.hasKind_iff
  kind_strict := hd.wellFormed_strict.hasKind_iff

/-! ## Loaded lexicons -/

/-- The lexicon of a locale after registrations, accepted or refused. -/
def registered (locale : String) (rs : List LooseStore.Registration)
    (ss : List StrictStore.Registration) : Lexicon :=
  ⟨locale, (LooseStore.empty locale).attemptAll rs, (StrictStore.empty locale).attemptAll ss⟩

theorem built_registered (locale : String) (rs : List LooseStore.Registration)
    (ss : List StrictStore.Registration) : (registered locale rs ss).Built :=
  ⟨⟨locale, rs, rfl⟩, ⟨locale, ss, rfl⟩⟩

/-- A built lexicon whose stores are of its locale is one after registrations. -/
theorem Built.exists_eq_registered (hd : d.Built) (hloose : d.loose.locale = d.locale)
    (hstrict : d.strict.locale = d.locale) : ∃ rs ss, d = registered d.locale rs ss := by
  obtain ⟨locale, rs, hrs⟩ := hd.loose
  obtain ⟨locale', ss, hss⟩ := hd.strict
  rw [hrs, LooseStore.locale_attemptAll] at hloose
  rw [hss, (StrictStore.wellFormed_empty locale').locale_attemptAll] at hstrict
  refine ⟨rs, ss, ?_⟩
  obtain ⟨l, loose, strict⟩ := d
  obtain rfl : locale = l := hloose
  obtain rfl : locale' = locale := hstrict
  rw [registered, ← show loose = _ from hrs, ← show strict = _ from hss]

/-- A loaded lexicon can be written back. -/
theorem writable_of_load {locale : String} {tree : RawTree} (h : load locale tree = .ok d) :
    d.Writable := by
  have hloadable := loadable_of_load h
  have hdescribes := describes_of_load h
  have hplain {entries : RawKind} {kind name : String} {t : Token} (hg : entries.Gives kind name t)
      (ht : (!t.isAlias) = true) : isMarked t.description = false := by
    cases hg with
    | plain _ _ hv => exact hv
    | pointer => cases ht
  have hkind {entries : RawKind} {kind name : String} {t : Token} (hg : entries.Gives kind name t) :
      t.kind = kind := by
    cases hg <;> rfl
  constructor
  case loose =>
    intro t ht
    obtain ⟨hmem, ht⟩ := List.mem_filter.1 ht
    obtain ⟨name, hname⟩ := LooseStore.mem_tokensOf_iff.1 hmem
    obtain ⟨kind, entries, -, -, hg⟩ :=
      hdescribes.loose.1 (LooseStore.token?_eq_some_iff.1 hname).1
    exact hplain hg ht
  case strict =>
    intro t ht
    obtain ⟨hmem, ht⟩ := List.mem_filter.1 ht
    obtain ⟨name, kind, hname⟩ := StrictStore.mem_tokensOf_iff.1 hmem
    obtain ⟨entries, -, hg⟩ := hdescribes.strict.1 hname
    exact hplain hg ht
  case kind_loose =>
    intro kind hk
    obtain ⟨name, t, ht, rfl⟩ := hdescribes.kind_loose.1 (SortedMap.mem_keys_iff.1 hk)
    obtain ⟨kind, entries, hget, hm, hg⟩ := hdescribes.loose.1 ht
    have hreserved := (hloadable.kind hget).2
    rwa [stripMark_of_not_isMarked hm, ← hkind hg] at hreserved
  case kind_strict =>
    intro kind hk
    obtain ⟨name, t, ht⟩ := hdescribes.kind_strict.1 (SortedMap.mem_keys_iff.1 hk)
    obtain ⟨entries, hget, -⟩ := hdescribes.strict.1 ht
    have hreserved := (hloadable.kind hget).2
    rwa [stripMark_putMark] at hreserved

/-- A lexicon that registrations have built is given back when its tree is loaded, if no
description of a true token begins with the mark and no kind is named like a switch.  A loaded
lexicon is of this sort, so loading what is written of it gives it back. -/
theorem load_toTree (locale : String) :
    (∀ rs ss, (registered locale rs ss).Writable →
      load locale (registered locale rs ss).toTree = .ok (registered locale rs ss)) ∧
    ∀ tree d, load locale tree = .ok d →
      (∃ rs ss, d = registered locale rs ss) ∧ d.Writable ∧ load locale d.toTree = .ok d := by
  have hwritten (rs ss) (hw : (registered locale rs ss).Writable) :
      load locale (registered locale rs ss).toTree = .ok (registered locale rs ss) := by
    have hd := built_registered locale rs ss
    have hloose : (registered locale rs ss).loose.locale = locale :=
      LooseStore.locale_attemptAll ..
    have hstrict : (registered locale rs ss).strict.locale = locale :=
      (StrictStore.wellFormed_empty locale).locale_attemptAll ss
    exact load_of_describes (loadable_toTree hd hw) (describes_toTree hd hw hloose hstrict)
  refine ⟨hwritten, ?_⟩
  intro tree d h
  obtain ⟨hlocale, hloose, hstrict⟩ := (describes_of_load h).locale_eq
  obtain ⟨rs, ss, hd⟩ := (built_of_load h).exists_eq_registered
    (hloose.trans hlocale.symm) (hstrict.trans hlocale.symm)
  rw [hlocale] at hd
  have hw := writable_of_load h
  refine ⟨⟨rs, ss, hd⟩, hw, ?_⟩
  rw [hd] at hw ⊢
  exact hwritten rs ss hw

/-- A default that is set through an alias, and one name in two strict kinds. -/
theorem load_toTree_alias :
    let d := registered "en"
      [.addToken "f" "gender" "female", .addAlias "lady" "f" none, .addAlias "girl" "lady" none,
        .setDefault "gender" "girl", .addToken "f" "number" "few"]
      [.addToken "f" "gender" "female", .addToken "f" "number" "few", .addAlias "p" "f" "number"]
    d.Writable ∧ load "en" d.toTree = .ok d := by
  intro d
  have hw : d.Writable := by
    constructor
    all_goals decide +kernel
  exact ⟨hw, (load_toTree "en").1 _ _ hw⟩

end Lexicon

end Inflection

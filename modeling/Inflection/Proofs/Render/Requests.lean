import Inflection.Proofs.Render.Choice

/-!
# What options ask for

In each kind of a lexicon the options of a call ask for nothing, for a true token, or for a text
that is no token of the kind.  Rendering reads the options through these requests alone, so two
calls whose options come to the same requests have the same outcome, an error included.

## Main statements

* `Setting.select_eq_selectFor`: the selection for a kind depends on the request alone.
* `Setting.Agrees.renderSegments`: with the same requests segments render alike, fault for fault.
* `interpolate_eq_of_request`: texts render alike, and what never makes a difference in the options.
-/

namespace Inflection

/-! ## Requests -/

/-- What options ask for in a kind. -/
inductive Request where
  | nothing
  | token (name : String)
  | unknown (text : String)
deriving DecidableEq, Repr

/-- The kinds of a lexicon, each with the scope that its tokens are looked up in. -/
inductive Lexicon.Offers (d : Lexicon) : Scope → String → Prop
  | loose {kind : String} (h : d.loose.hasKind kind) : Offers d (.loose d.loose) kind
  | strict {kind : String} (h : d.strict.hasKind kind) : Offers d (.strict d.strict kind) kind

/-- The option keys under which a token of a kind is asked for. -/
def Scope.keys (s : Scope) (kind : String) : List String :=
  if s.isStrict then [putMark kind, kind] else [kind]

/-- An option key is read for a kind of a lexicon. -/
def Lexicon.Reads (d : Lexicon) (key : String) (scope : Scope) (kind : String) : Prop :=
  d.Offers scope kind ∧ key ∈ scope.keys kind

namespace Options

/-- What the options ask for in a kind of a scope. -/
def request (o : Options) (scope : Scope) (kind : String) : Request :=
  match o.requested? kind scope.isStrict with
  | none => .nothing
  | some requested =>
    match scope.trueToken? requested kind with
    | some name => .token name
    | none => .unknown requested

/-- The value of a key, where an empty one counts for none. -/
def value? (o : Options) (key : String) : Option String := (o.get? key).filter (· != "")

variable {o o' : Options} {scope : Scope} {key kind : String}

theorem requested?_congr (h : ∀ key ∈ scope.keys kind, o.value? key = o'.value? key) :
    o.requested? kind scope.isStrict = o'.requested? kind scope.isStrict := by
  cases scope with
  | loose s => exact h kind List.mem_cons_self
  | strict s k =>
    have hmark := h (putMark kind) List.mem_cons_self
    have hplain := h kind (List.mem_cons_of_mem _ List.mem_cons_self)
    exact congrArg₂ Option.or hmark hplain

theorem request_congr (h : ∀ key ∈ scope.keys kind, o.value? key = o'.value? key) :
    o.request scope kind = o'.request scope kind := by
  rw [request, request, requested?_congr h]

/-! ### Adding a pair -/

theorem insertIfValid_of_not_reserved (h : isReservedKey key = false) (v : String) :
    o.insertIfValid key v = { o with requests := o.requests.insert key v } := by
  have hnone : Switch.ofKey? key = none := by
    rwa [isReservedKey, Option.isSome_eq_false_iff, Option.isNone_iff_eq_none] at h
  rw [insertIfValid, insert, hnone]

theorem overrides_insertIfValid (h : isReservedKey key = false) (v : String) :
    (o.insertIfValid key v).overrides = o.overrides := by
  rw [insertIfValid_of_not_reserved h]

theorem value?_insertIfValid (h : isReservedKey key = false) (v key' : String) :
    (o.insertIfValid key v).value? key' =
      if key = key' then (some v).filter (· != "") else o.value? key' := by
  rw [insertIfValid_of_not_reserved h, value?, get?, SortedMap.get?_insert]
  split <;> rfl

/-- Once a pair is added, either its value is what is asked for under its key, or it makes no
difference which value it has. -/
theorem requested?_insertIfValid (h : isReservedKey key = false) (hkey : key ∈ scope.keys kind) :
    (∀ v, v ≠ "" → (o.insertIfValid key v).requested? kind scope.isStrict = some v) ∨
      ∃ r, ∀ v, (o.insertIfValid key v).requested? kind scope.isStrict = r := by
  have hself (v : String) (hv : v ≠ "") : (o.insertIfValid key v).value? key = some v := by
    rw [value?_insertIfValid h, if_pos rfl, Option.filter_some, if_pos (bne_iff_ne.2 hv)]
  cases scope with
  | loose s =>
    obtain rfl : key = kind := List.mem_singleton.1 hkey
    exact .inl hself
  | strict s k =>
    have hor (v : String) : (o.insertIfValid key v).requested? kind (Scope.strict s k).isStrict =
        ((o.insertIfValid key v).value? (putMark kind)).or
          ((o.insertIfValid key v).value? kind) := rfl
    rcases List.mem_cons.1 hkey with rfl | hkey
    · refine .inl ?_
      intro v hv
      rw [hor, hself v hv, Option.some_or]
    · obtain rfl : key = kind := List.mem_singleton.1 hkey
      by_cases hmark : key = putMark key
      · refine .inl ?_
        intro v hv
        rw [hor, ← hmark, hself v hv, Option.some_or]
      · cases hvalue : o.value? (putMark key) with
        | none =>
          refine .inl ?_
          intro v hv
          rw [hor, value?_insertIfValid h, if_neg hmark, hvalue, hself v hv, Option.none_or]
        | some r =>
          refine .inr ⟨some r, ?_⟩
          intro v
          rw [hor, value?_insertIfValid h, if_neg hmark, hvalue, Option.some_or]

end Options

/-! ## Selections -/

namespace Setting

section

variable {m : Type → Type} [Monad m] [MonadFault m] {c c' : Setting} {p : Pattern} {scope : Scope}

/-- The selection for a request. -/
def selectFor (c : Setting) (p : Pattern) (scope : Scope) (kind : String) (r : Request) :
    m Selection :=
  let default? := scope.default? kind
  let standIn (fault : Fault) : m Selection :=
    match if c.switches.unknownDefaults then default? else none with
    | some fallback => pure ⟨some fallback, default?⟩
    | none => do
      note fault
      pure ⟨none, default?⟩
  match r with
  | .nothing => standIn (.optionNotFound p.source kind)
  | .token name => pure ⟨some name, default?⟩
  | .unknown text => standIn (.optionIncorrect p.source kind text)

/-- The selection for a kind depends on the options through their request alone. -/
theorem select_eq_selectFor (kind : String) :
    (c.select p scope kind : m Selection) =
      c.selectFor p scope kind (c.options.request scope kind) := by
  unfold select Options.request
  cases c.options.requested? kind scope.isStrict with
  | none => rfl
  | some requested =>
    dsimp only
    cases scope.trueToken? requested kind with
    | none => rfl
    | some name => rfl

/-! ## Rendering -/

/-- Two settings differ in their options at most, and these ask for the same in every kind. -/
structure Agrees (c c' : Setting) : Prop where
  lexicon : c.lexicon = c'.lexicon
  switches : c.switches = c'.switches
  request : ∀ {scope kind}, c.lexicon.Offers scope kind →
    c.options.request scope kind = c'.options.request scope kind

namespace Agrees

theorem select (h : c.Agrees c') {kind : String} (hkind : c.lexicon.Offers scope kind) :
    (c.select p scope kind : m Selection) = c'.select p scope kind := by
  rw [select_eq_selectFor, select_eq_selectFor, h.request hkind]
  unfold selectFor
  rw [h.switches]

theorem selected (h : c.Agrees c') {kind : String} (hkind : c.lexicon.Offers scope kind)
    (selection? : Option Selection) :
    (c.selected p scope kind selection? : m Selection) = c'.selected p scope kind selection? := by
  cases selection? with
  | none => exact h.select hkind
  | some selection => rfl

theorem resolveMember (h : c.Agrees c') (member : Member) :
    (c.resolveMember p scope member : m _) = c'.resolveMember p scope member := by
  unfold Setting.resolveMember lookUp
  rw [h.switches]

theorem resolveMembers (h : c.Agrees c') (members : List Member) (kind? : Option String) :
    (c.resolveMembers p scope members kind? : m _) = c'.resolveMembers p scope members kind? := by
  induction members generalizing kind? with
  | nil => rfl
  | cons member members ih =>
    rw [Setting.resolveMembers, Setting.resolveMembers, h.resolveMember]
    refine congrArg _ (funext ?_)
    intro token?
    cases token? with
    | none => exact ih kind?
    | some t =>
      dsimp only
      rw [ih]

theorem resolveGroup (h : c.Agrees c') (kind? : Option String) (group : Group) :
    (c.resolveGroup p scope kind? group : m _) = c'.resolveGroup p scope kind? group := by
  rw [Setting.resolveGroup, Setting.resolveGroup, h.resolveMembers]

theorem resolveGroups (h : c.Agrees c') (scopes : List Scope) (groups : List Group) :
    (c.resolveGroups p scopes groups : m _) = c'.resolveGroups p scopes groups := by
  induction scopes generalizing groups with
  | nil => rfl
  | cons scope scopes ih =>
    cases groups with
    | nil => rfl
    | cons group groups =>
      rw [Setting.resolveGroups, Setting.resolveGroups, h.resolveGroup]
      refine congrArg _ (funext ?_)
      intro r
      obtain ⟨kind?, _ | tokens⟩ := r
      · rfl
      · dsimp only
        rw [ih]

theorem selectAll (h : c.Agrees c') (kinds : List String)
    (hkinds : ∀ kind ∈ kinds, c.lexicon.strict.hasKind kind) :
    (c.selectAll p (kinds.map (.strict c.lexicon.strict)) kinds : m _) =
      c'.selectAll p (kinds.map (.strict c.lexicon.strict)) kinds := by
  induction kinds with
  | nil => rfl
  | cons kind kinds ih =>
    obtain ⟨hkind, hkinds⟩ := List.forall_mem_cons.1 hkinds
    rw [List.map_cons, Setting.selectAll, Setting.selectAll, h.select (.strict hkind), ih hkinds]

end Agrees

end

section

variable {c c' : Setting} {p : Pattern} {scope : Scope}

/-! ### Loose and named patterns -/

theorem offers_of_isTrue {d : Lexicon} (hd : d.Built) (h : p.scope? d = some scope)
    {kind name : String} (htrue : scope.IsTrue kind name) : d.Offers scope kind := by
  obtain ⟨t, ht, -, rfl⟩ := htrue
  rcases Pattern.scope?_eq_some_iff.1 h with ⟨-, rfl⟩ | ⟨kind, -, hkind, rfl⟩
  · rw [Scope.token?_loose] at ht
    exact .loose (hd.wellFormed_loose.hasKind ht)
  · rw [(hd.wellFormed_strict.name_eq ht).2]
    exact .strict hkind

theorem offers_of_kind? {d : Lexicon} (h : p.scope? d = some scope) {kind : String}
    (hkind : scope.kind? = some kind) : d.Offers scope kind := by
  rcases Pattern.scope?_eq_some_iff.1 h with ⟨-, rfl⟩ | ⟨kind', -, hhas, rfl⟩
  · cases hkind
  · cases hkind
    exact .strict hhas

/-- The kind that is known after a group is one of the lexicon. -/
theorem offers_of_resolveGroup (hd : c.lexicon.Built) (hscope : p.scope? c.lexicon = some scope)
    {kind? : Option String} (hs : ∀ kind, kind? = some kind → c.lexicon.Offers scope kind)
    (group : Group) :
    ∀ kind, (c.resolveGroup p scope kind? group : Report _).value.1 = some kind →
      c.lexicon.Offers scope kind := by
  intro kind h
  rw [value_resolveGroup] at h
  rcases Option.or_eq_some_iff.1 h with h | ⟨-, h⟩
  · exact hs kind h
  · obtain ⟨m, hm, rfl⟩ := Option.map_eq_some_iff.1 h
    have htrue := isTrue_of_mem_mentions (Pattern.wellFormed_of_scope? hd hscope)
      (List.mem_of_mem_head? hm)
    exact offers_of_isTrue hd hscope htrue

theorem Agrees.renderFrom (h : c.Agrees c') (hd : c.lexicon.Built)
    (hscope : p.scope? c.lexicon = some scope) (clauses : List Clause) {s : Progress}
    (hs : ∀ kind, s.kind? = some kind → c.lexicon.Offers scope kind) :
    (c.renderFrom p scope clauses s : Report String) = c'.renderFrom p scope clauses s := by
  induction clauses generalizing s with
  | nil => rfl
  | cons clause clauses ih =>
    rcases clause.groups_cases with ⟨group, hgroup⟩ | hne
    · rw [renderFrom_of_group hgroup, renderFrom_of_group hgroup, ← h.resolveGroup]
      refine Report.bind_congr rfl ?_
      have hoffers := offers_of_resolveGroup hd hscope hs group
      generalize (c.resolveGroup p scope s.kind? group : Report _).value = r at hoffers
      obtain ⟨_ | kind, tokens?⟩ := r
      · exact ih fun _ hk => (nomatch hk)
      · have hkind : c.lexicon.Offers scope kind := hoffers kind rfl
        have hknown (k : String) (hk : some kind = some k) : c.lexicon.Offers scope k := by
          cases hk
          exact hkind
        cases tokens? with
        | none => exact ih hknown
        | some tokens =>
          unfold renderGroup
          dsimp only
          rw [h.selected hkind]
          refine congrArg _ (funext ?_)
          intro selection
          unfold renderChoice nextFallback
          rw [h.switches, ih hknown]
    · rw [renderFrom_of_ne hne, renderFrom_of_ne hne, ih hs]

/-! ### Complex patterns -/

theorem Agrees.renderComplexFrom (h : c.Agrees c') {kinds : List String}
    (hkinds : ∀ kind ∈ kinds, c.lexicon.strict.hasKind kind) (clauses : List Clause)
    (selections? : Option (List Selection)) (candidates : List (Value × List Tokens)) :
    (c.renderComplexFrom p kinds (kinds.map (.strict c.lexicon.strict)) clauses selections?
        candidates : Report String) =
      c'.renderComplexFrom p kinds (kinds.map (.strict c.lexicon.strict)) clauses selections?
        candidates := by
  have hselected : (c.selectedAll p (kinds.map (.strict c.lexicon.strict)) kinds :
      _ → Report _) = c'.selectedAll p (kinds.map (.strict c.lexicon.strict)) kinds := by
    funext selections?
    cases selections? with
    | none => exact h.selectAll kinds hkinds
    | some selections => rfl
  induction clauses generalizing selections? candidates with
  | nil => rfl
  | cons clause clauses ih =>
    by_cases hlen : clause.groups.length = kinds.length
    · rw [renderComplexFrom_of_length hlen, renderComplexFrom_of_length hlen, h.resolveGroups]
      refine congrArg _ (funext ?_)
      intro groups?
      cases groups? with
      | none => exact ih _ _
      | some groups =>
        unfold renderComplexGroups
        dsimp only
        rw [hselected]
        refine congrArg _ (funext ?_)
        intro selections
        unfold renderComplexChoice
        rw [h.switches, ih]
    · rw [renderComplexFrom_of_ne hlen, renderComplexFrom_of_ne hlen, ih]

theorem Agrees.renderComplex (h : c.Agrees c') (kinds : List String) :
    (c.renderComplex p kinds : Report String) = c'.renderComplex p kinds := by
  unfold Setting.renderComplex
  rw [← h.lexicon]
  dsimp only
  cases hfind : kinds.find? (!c.lexicon.strict.hasKind ·) with
  | some unknown => rfl
  | none =>
    refine h.renderComplexFrom ?_ _ _ _
    intro kind hkind
    simpa using List.find?_eq_none.1 hfind kind hkind

/-! ### Texts -/

theorem Agrees.renderPattern (h : c.Agrees c') (hd : c.lexicon.Built) (p : Pattern) :
    (c.renderPattern p : Report String) = c'.renderPattern p := by
  cases hscope : p.scope? c.lexicon with
  | some scope =>
    have hscope' : p.scope? c'.lexicon = some scope := h.lexicon ▸ hscope
    rw [renderPattern_of_scope? hscope, renderPattern_of_scope? hscope']
    exact h.renderFrom hd hscope p.clauses fun _ hk => offers_of_kind? hscope hk
  | none =>
    unfold Setting.renderPattern
    rw [← h.lexicon]
    cases htarget : p.target with
    | loose =>
      rw [Pattern.scope?, htarget] at hscope
      cases hscope
    | named kind =>
      rw [Pattern.scope?, htarget] at hscope
      dsimp only at hscope ⊢
      split at hscope
      · cases hscope
      · rename_i hkind
        rw [if_neg hkind, if_neg hkind]
    | complex kinds => exact h.renderComplex kinds
    | invalid text => rfl

/-- With the same requests segments render alike, and with the same faults. -/
theorem Agrees.renderSegments (h : c.Agrees c') (hd : c.lexicon.Built) (segments : List Segment) :
    (c.renderSegments segments : Report String) = c'.renderSegments segments := by
  have hsegment : (c.renderSegment : Segment → Report String) = c'.renderSegment := by
    funext segment
    cases segment with
    | literal text => rfl
    | pattern p => exact h.renderPattern hd p
  rw [Setting.renderSegments, Setting.renderSegments, hsegment]

end

end Setting

/-! ## Keys and values that make no difference -/

section

variable {d : Lexicon} {scope : Scope} {key kind name : String}

theorem Lexicon.Offers.wellFormed (hd : d.Built) (h : d.Offers scope kind) : scope.WellFormed := by
  cases h with
  | loose h => exact Scope.wellFormed_loose hd
  | strict h => exact Scope.wellFormed_strict hd kind

theorem Lexicon.Offers.isName_of_isTrue (hd : d.Built) (h : d.Offers scope kind) {t : Token}
    (ht : scope.token? name = some t) : isName name := by
  cases h with
  | loose h => exact (hd.wellFormed_loose.valid ((Scope.token?_loose ..).symm.trans ht)).1
  | strict h => exact (hd.wellFormed_strict.valid ht).1

/-- A key with the mark is read for the strict kind after the mark, and for no other. -/
theorem Lexicon.Reads.hasKind_of_putMark (hd : d.Built) (h : d.Reads (putMark name) scope kind) :
    d.strict.hasKind name := by
  have hmarked (k : String) (hk : putMark name = k) (hname : isName k) : False := by
    have hnot := not_isMarked_of_isName hname
    rw [← hk, isMarked_putMark] at hnot
    cases hnot
  obtain ⟨hoffers, hmem⟩ := h
  cases hoffers with
  | loose hkind =>
    exact (hmarked kind (List.mem_singleton.1 hmem) (hd.wellFormed_loose.valid_kind hkind)).elim
  | strict hkind =>
    rcases List.mem_cons.1 hmem with heq | hmem
    · have hstrip := congrArg stripMark heq
      rw [stripMark_putMark, stripMark_putMark] at hstrip
      rwa [hstrip]
    · exact (hmarked kind (List.mem_singleton.1 hmem)
        (hd.wellFormed_strict.valid_kind hkind)).elim

/-- Under a key that is read in one scope alone, a token and the true token behind it come to the
same requests. -/
theorem Options.request_insertIfValid (hd : d.Built) (o : Options)
    (hkey : isReservedKey key = false) (hread : d.Reads key scope kind)
    (honly : ∀ scope' kind', d.Reads key scope' kind' → scope' = scope) {base : String}
    (hbase : scope.trueToken? name kind = some base) {scope' : Scope} {kind' : String}
    (hoffers : d.Offers scope' kind') :
    (o.insertIfValid key name).request scope' kind' =
      (o.insertIfValid key base).request scope' kind' := by
  by_cases hmem : key ∈ scope'.keys kind'
  · obtain rfl : scope' = scope := honly scope' kind' ⟨hoffers, hmem⟩
    obtain rfl : kind' = kind := by
      obtain ⟨hoffers', hmem'⟩ := hread
      cases hoffers with
      | loose h =>
        exact (List.mem_singleton.1 hmem).symm.trans (List.mem_singleton.1 hmem')
      | strict h =>
        cases hoffers'
        rfl
    have hs := hoffers.wellFormed hd
    have htrue := hs.isTrue_of_trueToken? hbase
    have hname : name ≠ "" := by
      obtain ⟨t, ht, -⟩ := Option.map_eq_some_iff.1 hbase
      exact ne_empty_of_isName (hoffers.isName_of_isTrue hd (Option.filter_eq_some_iff.1 ht).1)
    have hbase' : base ≠ "" := by
      obtain ⟨t, ht, -⟩ := htrue
      exact ne_empty_of_isName (hoffers.isName_of_isTrue hd ht)
    unfold request
    rcases requested?_insertIfValid (o := o) hkey hmem with hsome | ⟨r, hr⟩
    · rw [hsome name hname, hsome base hbase']
      dsimp only
      rw [hbase, hs.trueToken?_of_isTrue htrue]
    · rw [hr, hr]
  · refine request_congr ?_
    intro key' hkey'
    have hne : key ≠ key' := fun heq => hmem (heq ▸ hkey')
    rw [value?_insertIfValid hkey, value?_insertIfValid hkey, if_neg hne, if_neg hne]

end

/-! ## Texts -/

theorem interpolate_congr {d : Lexicon} (hd : d.Built) (text : String) (switches : Switches)
    {o o' : Options} (hoverrides : o.overrides = o'.overrides)
    (hrequest : ∀ scope kind, d.Offers scope kind → o.request scope kind = o'.request scope kind) :
    interpolate text d switches o = interpolate text d switches o' := by
  have hagrees : Setting.Agrees ⟨d, o, switches.merged o.overrides⟩
      ⟨d, o', switches.merged o'.overrides⟩ :=
    ⟨rfl, by rw [hoverrides], hrequest _ _⟩
  have hquietly : quietly text d switches o = quietly text d switches o' := by
    unfold quietly
    rw [hagrees.renderSegments hd]
  rw [interpolate_eq_quietly, interpolate_eq_quietly, hquietly, hoverrides]

/-- Options with the same overrides that ask for the same in every kind of the data give a text the
same outcome.  So it makes no difference what stands under a key that is not read, or whether an
empty value is there; a key with the mark is not read unless it names a strict kind; and under a
key that is read in one scope alone, a token may be replaced by the true token behind it. -/
theorem interpolate_eq_of_request {d : Lexicon} (hd : d.Reachable) (text : String)
    (switches : Switches) :
    (∀ o o' : Options, o.overrides = o'.overrides →
      (∀ scope kind, d.Offers scope kind → o.request scope kind = o'.request scope kind) →
      interpolate text d switches o = interpolate text d switches o') ∧
    (∀ o o' : Options, o.overrides = o'.overrides →
      (∀ key scope kind, d.Reads key scope kind → o.value? key = o'.value? key) →
      interpolate text d switches o = interpolate text d switches o') ∧
    (∀ (o : Options) (kind value : String), d.strict.hasKind kind = false →
      interpolate text d switches (o.insertIfValid (putMark kind) value) =
        interpolate text d switches o) ∧
    ∀ (o : Options) (key : String) (scope : Scope) (kind name base : String),
      isReservedKey key = false → d.Reads key scope kind →
      (∀ scope' kind', d.Reads key scope' kind' → scope' = scope) →
      scope.trueToken? name kind = some base →
      interpolate text d switches (o.insertIfValid key name) =
        interpolate text d switches (o.insertIfValid key base) := by
  have hb : d.Built := hd.toBuilt
  have hvalue (o o' : Options) (hoverrides : o.overrides = o'.overrides)
      (h : ∀ key scope kind, d.Reads key scope kind → o.value? key = o'.value? key) :
      interpolate text d switches o = interpolate text d switches o' := by
    refine interpolate_congr hb text switches hoverrides ?_
    intro scope kind hoffers
    exact Options.request_congr fun key hkey => h key scope kind ⟨hoffers, hkey⟩
  refine ⟨fun o o' => interpolate_congr hb text switches, hvalue, ?_, ?_⟩
  · intro o kind value hkind
    have hkey := isReservedKey_putMark kind
    refine hvalue _ _ (Options.overrides_insertIfValid hkey value) ?_
    intro key scope kind' hread
    have hne : putMark kind ≠ key := by
      rintro rfl
      rw [hread.hasKind_of_putMark hb] at hkind
      cases hkind
    rw [Options.value?_insertIfValid hkey, if_neg hne]
  · intro o key scope kind name base hkey hread honly hbase
    refine interpolate_congr hb text switches ?_ ?_
    · rw [Options.overrides_insertIfValid hkey, Options.overrides_insertIfValid hkey]
    · intro scope' kind' hoffers
      exact Options.request_insertIfValid hb o hkey hread honly hbase hoffers

/-- An alias for its true token, an unread key, and one text under the other key of a strict kind:
the requests are the same, and so is the error. -/
theorem interpolate_eq_of_request_alias :
    let d : Lexicon := ⟨"en", (LooseStore.empty "en").attemptAll
      [.addToken "f" "gender" "female", .addAlias "lady" "f" none],
      (StrictStore.empty "en").attemptAll [.addToken "sg" "number" "singular"]⟩
    let o : Options := ((Options.empty.insertIfValid "gender" "lady").insertIfValid "tone" "warm"
      ).insertIfValid "@number" "dual"
    let o' : Options := ((Options.empty.insertIfValid "gender" "f").insertIfValid "@number" ""
      ).insertIfValid "number" "dual"
    let switches : Switches := ⟨true, false, false, false⟩
    d.Reachable ∧ o.overrides = o'.overrides ∧
      (∀ scope kind, d.Offers scope kind → o.request scope kind = o'.request scope kind) ∧
      interpolate "@{f:She} @number{sg:is}" d switches o =
        interpolate "@{f:She} @number{sg:is}" d switches o' := by
  intro d o o' switches
  have hd : d.Reachable := .built ⟨⟨"en", _, rfl⟩, ⟨"en", _, rfl⟩⟩
  have hloose : d.loose.kinds.keys = ["gender"] := by decide +kernel
  have hstrict : d.strict.kinds.keys = ["number"] := by decide +kernel
  have hrequest : ∀ scope kind, d.Offers scope kind →
      o.request scope kind = o'.request scope kind := by
    intro scope kind h
    cases h with
    | loose h =>
      have hmem := SortedMap.mem_keys_iff.2 h
      rw [hloose] at hmem
      obtain rfl := List.mem_singleton.1 hmem
      decide +kernel
    | strict h =>
      have hmem := SortedMap.mem_keys_iff.2 h
      rw [hstrict] at hmem
      obtain rfl := List.mem_singleton.1 hmem
      decide +kernel
  exact ⟨hd, rfl, hrequest, (interpolate_eq_of_request hd _ switches).1 o o' rfl hrequest⟩

end Inflection

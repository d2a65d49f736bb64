import Inflection.Proofs.Pattern.Written
import Inflection.Proofs.Render.Choice

/-!
# Complex patterns by their components

A clause of a complex pattern has one group for each kind.  Each group makes a component: a named
pattern of that kind with the group in its only clause.  Complex patterns have a loop and a matching
of their own, and both agree with what named patterns do: a clause is chosen exactly when each of
its components would choose it.

## Main statements

* `Setting.rendered_component`: what a component renders to.
* `Setting.value_renderComplexFrom`: the loop over the clauses of a complex pattern.
* `interpolate_byComponents`: a complex pattern of known kinds renders by its components.
-/

namespace Inflection

/-! ## Rendering by components -/

/-- The named pattern with one group of a clause in its only clause. -/
def Pattern.component (kind : String) (g : Group) (value : Value) (freeText? : Option String) :
    Pattern :=
  let p : Pattern := ⟨"", .named kind, [.choice [g] value], freeText?⟩
  { p with source := p.written }

namespace Setting

/-- The setting with the switch `excludedDefaults` on or off. -/
def withExcluded (c : Setting) (b : Bool) : Setting :=
  { c with switches := c.switches.set .excludedDefaults b }

/-- Whether a component renders its clause and not its free text. -/
def selects (c : Setting) (kind : String) (g : Group) : Bool :=
  c.rendered (.component kind g (.text "+") none) == "+"

/-- Whether a clause has one group for each kind, and each component renders its clause. -/
def applies (c : Setting) (kinds : List String) (clause : Clause) : Bool :=
  clause.groups.length == kinds.length &&
    (kinds.zip clause.groups).all fun e => c.selects e.1 e.2

/-- The value of a clause, where a loud one is what the loud components render to. -/
def composed (c : Setting) (kinds : List String) (clause : Clause) : String :=
  match clause.value with
  | .text s => s
  | .loud => " ".intercalate
      ((kinds.zip clause.groups).map fun e => c.rendered (.component e.1 e.2 .loud none))

/-- The value of the first clause that applies. -/
def firstApplied? (c : Setting) (kinds : List String) (clauses : List Clause) : Option String :=
  (clauses.find? (c.applies kinds)).map (c.composed kinds)

/-- What a complex pattern renders to.  Without `excludedDefaults` the default never stands in; with
it, it does if no clause applies otherwise. -/
def byComponents (c : Setting) (kinds : List String) (p : Pattern) : String :=
  (((c.withExcluded false).firstApplied? kinds p.clauses).or
    (if c.switches.excludedDefaults then (c.withExcluded true).firstApplied? kinds p.clauses
      else none)).getD p.freeText

end Setting

/-! ## One component -/

/-- The token that a group is chosen for: the selected one, or else the default if it may stand in
and the group lists it. -/
def Tokens.match? (withDefaults : Bool) (s : Selection) (g : Tokens) : Option String :=
  s.token?.bind fun name =>
    if g.accepts name then some name
    else if withDefaults then s.default?.filter g.contains else none

theorem matchGroups_cons (withDefaults : Bool) (g : Tokens) (gs : List Tokens) (s : Selection)
    (ss : List Selection) :
    matchGroups withDefaults (g :: gs) (s :: ss) =
      (g.match? withDefaults s).bind fun name =>
        (matchGroups withDefaults gs ss).map (name :: ·) := by
  rw [matchGroups, Tokens.match?]
  cases s.token? with
  | none => rfl
  | some name =>
    rw [Option.bind_some]
    dsimp only
    split
    case h_1 hnone =>
      rw [hnone]
      rfl
    case h_2 found hfound =>
      rw [hfound]
      rfl

namespace Setting

variable {c : Setting} {p : Pattern}

/-- The selection for a strict kind. -/
def selection (c : Setting) (kind : String) : Selection :=
  ⟨c.option? (.strict c.lexicon.strict kind) kind, c.lexicon.strict.default? kind⟩

/-- The tokens of a group, if it counts for its kind. -/
def tokens? (c : Setting) (kind : String) (g : Group) : Option Tokens :=
  let ms := c.mentions (.strict c.lexicon.strict kind) g
  if Mention.isLive kind ms then some (Mention.tokens ms) else none

/-- The token that a component is chosen for. -/
def found? (c : Setting) (kind : String) (g : Group) : Option String :=
  (c.tokens? kind g).bind (·.match? c.switches.excludedDefaults (c.selection kind))

/-- What a component renders to: its value for the token that it is chosen for, or else its free
text. -/
theorem rendered_component {kind : String} (h : c.lexicon.strict.hasKind kind) (g : Group)
    (value : Value) (freeText? : Option String) :
    c.rendered (.component kind g value freeText?) =
      ((c.found? kind g).map fun name =>
        value.shownFor (Scope.description? (.strict c.lexicon.strict kind) name)).getD
          (freeText?.getD "") := by
  have hscope : (Pattern.component kind g value freeText?).scope? c.lexicon =
      some (.strict c.lexicon.strict kind) := if_pos h
  rw [rendered_of_scope? hscope, value_renderSingle]
  refine congrArg (Option.getD · (freeText?.getD "")) ?_
  unfold found? tokens?
  generalize hms : c.mentions (.strict c.lexicon.strict kind) g = ms
  have hreadings : c.readings (.strict c.lexicon.strict kind) [.choice [g] value] =
      [⟨ms, value⟩] := by
    rw [← hms]
    rfl
  show c.chosen? _ kind ((c.readings _ [.choice [g] value]).filter (·.isLive kind)) = _
  rw [hreadings]
  by_cases hlive : Mention.isLive kind ms
  case neg =>
    have hreading : ¬Reading.isLive kind ⟨ms, value⟩ := hlive
    rw [if_neg hlive, List.filter_cons_of_neg hreading]
    show c.chosenAfter? _ kind none [] = none
    rw [chosenAfter?_nil]
    cases c.option? (.strict c.lexicon.strict kind) kind <;> rfl
  case pos =>
    have hreading : Reading.isLive kind ⟨ms, value⟩ := hlive
    rw [if_pos hlive, List.filter_cons_of_pos hreading, Option.bind_some, Tokens.match?]
    show c.chosenAfter? _ kind none [⟨ms, value⟩] = _
    cases hoption : c.option? (.strict c.lexicon.strict kind) kind with
    | none =>
      unfold chosenAfter? selection
      rw [hoption]
      rfl
    | some option =>
      have htoken : (c.selection kind).token? = some option := hoption
      rw [htoken, Option.bind_some, Mention.accepts_tokens]
      by_cases haccepts : Mention.accepts ms option
      · have hreading : Reading.accepts option ⟨ms, value⟩ := haccepts
        rw [chosenAfter?_of_accepts hoption hreading, if_pos haccepts]
        rfl
      · rw [if_neg haccepts, chosenAfter?_of_not_accepts, chosenAfter?_nil, hoption]
        · unfold nextFallback selection
          cases c.switches.excludedDefaults with
          | false => rfl
          | true =>
            show Option.map _ (Option.map _ (Option.filter _ _)) = Option.map _ _
            rw [Option.map_map]
            rfl
        · intro option' hoption'
          rw [hoption] at hoption'
          cases hoption'
          exact Bool.eq_false_iff.2 haccepts

theorem selects_eq {kind : String} (h : c.lexicon.strict.hasKind kind) (g : Group) :
    c.selects kind g = (c.found? kind g).isSome := by
  rw [selects, rendered_component h]
  cases c.found? kind g <;> rfl

/-- A component with a text renders to that text or to its free text. -/
theorem rendered_component_text {kind : String} (h : c.lexicon.strict.hasKind kind) (g : Group)
    (s : String) (freeText? : Option String) :
    c.rendered (.component kind g (.text s) freeText?) =
      if c.selects kind g then s else freeText?.getD "" := by
  rw [rendered_component h, selects_eq h]
  cases c.found? kind g <;> rfl

/-- A component is chosen for a true token of its kind. -/
theorem isTrue_of_found? (hd : c.lexicon.Built) {kind name : String} {g : Group}
    (h : c.found? kind g = some name) :
    Scope.IsTrue (.strict c.lexicon.strict kind) kind name := by
  have hs := Scope.wellFormed_strict hd kind
  obtain ⟨ts, -, h⟩ := Option.bind_eq_some_iff.1 h
  obtain ⟨option, hoption, h⟩ := Option.bind_eq_some_iff.1 h
  split at h
  · cases h
    exact isTrue_of_option? hs rfl hoption
  · split at h
    · exact hs.default rfl (Option.filter_eq_some_iff.1 h).1
    · cases h

/-- A loud component renders to the description of the token that it is chosen for. -/
theorem exists_description (hd : c.lexicon.Built) {kind name : String} {g : Group}
    (h : c.lexicon.strict.hasKind kind) (hname : c.found? kind g = some name) :
    ∃ t, c.lexicon.strict.token? name kind = some t ∧ t.target? = none ∧
      c.rendered (.component kind g .loud none) = t.description := by
  obtain ⟨t, ht, htrue, -⟩ := isTrue_of_found? hd hname
  refine ⟨t, ht, htrue, ?_⟩
  rw [rendered_component h, hname, Option.map_some, Scope.description?, ht]
  rfl

/-! ## All components of a clause -/

/-- The tokens of the groups of a clause. -/
def clauseTokens? (c : Setting) (kinds : List String) (clause : Clause) : Option (List Tokens) :=
  if clause.groups.length = kinds.length then
    (kinds.zip clause.groups).mapM fun e => c.tokens? e.1 e.2
  else none

/-- The tokens that the components of a clause are chosen for. -/
def clauseFound? (c : Setting) (kinds : List String) (clause : Clause) : Option (List String) :=
  if clause.groups.length = kinds.length then
    (kinds.zip clause.groups).mapM fun e => c.found? e.1 e.2
  else none

/-- Matching the groups of a clause one after the other finds the tokens of its components. -/
theorem bind_matchGroups (b : Bool) (kinds : List String) (groups : List Group) :
    ((kinds.zip groups).mapM fun e => c.tokens? e.1 e.2).bind
        (matchGroups b · (kinds.map c.selection)) =
      (kinds.zip groups).mapM fun e => (c.withExcluded b).found? e.1 e.2 := by
  induction kinds generalizing groups with
  | nil => rfl
  | cons kind kinds ih =>
    cases groups with
    | nil => rfl
    | cons g groups =>
      have hfound : (c.withExcluded b).found? kind g =
          (c.tokens? kind g).bind (·.match? b (c.selection kind)) := rfl
      rw [List.zip_cons_cons, mapM_cons_eq_bind, mapM_cons_eq_bind, ← ih, hfound]
      cases c.tokens? kind g with
      | none => rfl
      | some ts =>
        cases (kinds.zip groups).mapM fun e => c.tokens? e.1 e.2 with
        | none =>
          -- A later group without tokens leaves the clause out, whether or not this one matches.
          show none = (ts.match? b (c.selection kind)).bind fun _ => none
          cases ts.match? b (c.selection kind) <;> rfl
        | some rest => exact matchGroups_cons b ts rest (c.selection kind) _

theorem clauseTokens?_bind_matchGroups (b : Bool) (kinds : List String) (clause : Clause) :
    (c.clauseTokens? kinds clause).bind (matchGroups b · (kinds.map c.selection)) =
      (c.withExcluded b).clauseFound? kinds clause := by
  unfold clauseTokens? clauseFound?
  split
  · exact bind_matchGroups b kinds clause.groups
  · rfl

/-- What the components of a clause render to, given the tokens that they are chosen for. -/
theorem descriptions_eq (hd : c.lexicon.Built) {kinds : List String} {groups : List Group}
    {found : List String} (hkinds : ∀ kind ∈ kinds, c.lexicon.strict.hasKind kind)
    (h : ((kinds.zip groups).mapM fun e => c.found? e.1 e.2) = some found) :
    (List.zipWith Scope.description? (kinds.map (.strict c.lexicon.strict)) found).filterMap id =
      (kinds.zip groups).map fun e => c.rendered (.component e.1 e.2 .loud none) := by
  induction kinds generalizing groups found with
  | nil => rfl
  | cons kind kinds ih =>
    cases groups with
    | nil =>
      cases h
      rfl
    | cons g groups =>
      rw [List.zip_cons_cons, mapM_cons_eq_bind] at h
      obtain ⟨name, hname, h⟩ := Option.bind_eq_some_iff.1 h
      obtain ⟨names, hnames, rfl⟩ := Option.map_eq_some_iff.1 h
      obtain ⟨t, ht, -, hrendered⟩ :=
        exists_description hd (hkinds kind List.mem_cons_self) hname
      have hdescription :
          Scope.description? (.strict c.lexicon.strict kind) name = some t.description :=
        congrArg (Option.map Token.description) ht
      have hrest := ih (fun k hk => hkinds k (List.mem_cons_of_mem _ hk)) hnames
      rw [List.map_cons, List.zipWith_cons_cons, hdescription,
        List.filterMap_cons_some (f := id) (a := some t.description) rfl, hrest,
        List.zip_cons_cons, List.map_cons, hrendered]

theorem isSome_mapM_found? {kinds : List String} {groups : List Group}
    (hkinds : ∀ kind ∈ kinds, c.lexicon.strict.hasKind kind) :
    ((kinds.zip groups).mapM fun e => c.found? e.1 e.2).isSome =
      (kinds.zip groups).all fun e => c.selects e.1 e.2 := by
  induction kinds generalizing groups with
  | nil => rfl
  | cons kind kinds ih =>
    cases groups with
    | nil => rfl
    | cons g groups =>
      rw [List.zip_cons_cons, mapM_cons_eq_bind, List.all_cons,
        selects_eq (hkinds kind List.mem_cons_self),
        ← ih fun k hk => hkinds k (List.mem_cons_of_mem _ hk)]
      cases c.found? kind g with
      | none => rfl
      | some name =>
        cases (kinds.zip groups).mapM fun e => c.found? e.1 e.2 <;> rfl

/-- What a clause renders to when it is chosen. -/
theorem map_renderFound (hd : c.lexicon.Built) {kinds : List String}
    (hkinds : ∀ kind ∈ kinds, c.lexicon.strict.hasKind kind) (clause : Clause) :
    (c.clauseFound? kinds clause).map
        (renderFound clause.value (kinds.map (.strict c.lexicon.strict))) =
      if c.applies kinds clause then some (c.composed kinds clause) else none := by
  unfold clauseFound? applies
  by_cases hlen : clause.groups.length = kinds.length
  case neg => rw [if_neg hlen, beq_eq_false_iff_ne.2 hlen, Bool.false_and]; rfl
  case pos =>
    rw [if_pos hlen, beq_iff_eq.2 hlen, Bool.true_and, ← isSome_mapM_found? hkinds]
    cases h : (kinds.zip clause.groups).mapM fun e => c.found? e.1 e.2 with
    | none => rfl
    | some found =>
      rw [Option.map_some, Option.isSome_some, if_pos rfl, composed, renderFound]
      cases clause.value with
      | text s => rfl
      | loud => rw [Value.render, descriptions_eq hd hkinds h]

/-! ## The loop -/

theorem value_resolveGroup_strict (hd : c.lexicon.Built) (kind : String) (g : Group) :
    (c.resolveGroup p (.strict c.lexicon.strict kind) none g : Report _).value.2 =
      c.tokens? kind g := by
  have hs := Scope.wellFormed_strict hd kind
  rw [value_resolveGroup, tokens?]
  dsimp only
  cases hms : c.mentions (.strict c.lexicon.strict kind) g with
  | nil => rfl
  | cons m ms =>
    have hm : m ∈ c.mentions (.strict c.lexicon.strict kind) g := hms ▸ List.mem_cons_self
    obtain ⟨t, ht, -, htkind⟩ := isTrue_of_mem_mentions hs hm
    have hkind : m.token.kind = kind := htkind.symm.trans (hs.kind_eq rfl ht)
    rw [List.head?_cons, Option.map_some, Option.none_or, Option.bind_some, hkind]

theorem value_resolveGroups (hd : c.lexicon.Built) (kinds : List String) (groups : List Group) :
    (c.resolveGroups p (kinds.map (.strict c.lexicon.strict)) groups : Report _).value =
      (kinds.zip groups).mapM fun e => c.tokens? e.1 e.2 := by
  induction kinds generalizing groups with
  | nil => rfl
  | cons kind kinds ih =>
    cases groups with
    | nil => rfl
    | cons g groups =>
      rw [List.map_cons, resolveGroups, Report.value_bind, List.zip_cons_cons, mapM_cons_eq_bind,
        ← ih, ← value_resolveGroup_strict (p := p) hd]
      obtain ⟨kind?, tokens?⟩ :=
        (c.resolveGroup p (.strict c.lexicon.strict kind) none g : Report _).value
      cases tokens? with
      | none => rfl
      | some ts => rfl

theorem value_selectAll (kinds : List String) :
    (c.selectAll p (kinds.map (.strict c.lexicon.strict)) kinds : Report _).value =
      kinds.map c.selection := by
  induction kinds with
  | nil => rfl
  | cons kind kinds ih =>
    rw [List.map_cons, selectAll, Report.value_bind, Report.value_bind, ih, value_select]
    rfl

/-- What a clause renders to when its groups match the selections. -/
def matched? (c : Setting) (b : Bool) (kinds : List String) (clause : Clause) : Option String :=
  ((c.clauseTokens? kinds clause).bind (matchGroups b · (kinds.map c.selection))).map
    (renderFound clause.value (kinds.map (.strict c.lexicon.strict)))

/-- The clauses whose groups have tokens. -/
def candidates (c : Setting) (kinds : List String) (clauses : List Clause) :
    List (Value × List Tokens) :=
  clauses.filterMap fun clause => (c.clauseTokens? kinds clause).map (clause.value, ·)

theorem candidates_cons (kinds : List String) (clause : Clause) (clauses : List Clause) :
    c.candidates kinds (clause :: clauses) =
      ((c.clauseTokens? kinds clause).map (clause.value, ·)).toList ++
        c.candidates kinds clauses := by
  rw [candidates, List.filterMap_cons]
  cases c.clauseTokens? kinds clause <;> rfl

/-- The second pass renders the first candidate whose groups match with defaults. -/
theorem renderCandidates_eq (kinds : List String) (clauses : List Clause) :
    renderCandidates p (kinds.map (.strict c.lexicon.strict)) (kinds.map c.selection)
        (c.candidates kinds clauses) =
      (clauses.findSome? (c.matched? true kinds)).getD p.freeText := by
  induction clauses with
  | nil => rfl
  | cons clause clauses ih =>
    rw [candidates_cons, List.findSome?_cons, matched?]
    cases c.clauseTokens? kinds clause with
    | none => exact ih
    | some groups =>
      show renderCandidates p _ _ ((clause.value, groups) :: c.candidates kinds clauses) = _
      rw [renderCandidates, Option.bind_some]
      cases matchGroups true groups (kinds.map c.selection) with
      | none => exact ih
      | some found => rfl

/-- The loop from some clause on: the first clause whose groups match is rendered, and if there is
none the candidates are tried. -/
theorem value_renderComplexFrom (hd : c.lexicon.Built) (kinds : List String)
    (clauses : List Clause) {selections? : Option (List Selection)}
    {candidates : List (Value × List Tokens)}
    (hselections : ∀ ss, selections? = some ss → ss = kinds.map c.selection)
    (hcandidates : selections? = none → candidates = []) :
    (c.renderComplexFrom p kinds (kinds.map (.strict c.lexicon.strict)) clauses selections?
        candidates : Report String).value =
      (clauses.findSome? (c.matched? false kinds)).getD
        (renderCandidates p (kinds.map (.strict c.lexicon.strict)) (kinds.map c.selection)
          (candidates ++
            if c.switches.excludedDefaults then c.candidates kinds clauses else [])) := by
  induction clauses generalizing selections? candidates with
  | nil =>
    have hnone : (if c.switches.excludedDefaults then c.candidates kinds [] else []) = [] := by
      split <;> rfl
    rw [hnone, List.append_nil, renderComplexFrom]
    cases selections? with
    | none =>
      rw [hcandidates rfl]
      rfl
    | some ss =>
      rw [hselections ss rfl]
      rfl
  | cons clause clauses ih =>
    by_cases hlen : clause.groups.length = kinds.length
    case neg =>
      have hnone : c.clauseTokens? kinds clause = none := if_neg hlen
      rw [renderComplexFrom_of_ne hlen, Report.value_bind, ih hselections hcandidates,
        candidates_cons, List.findSome?_cons, matched?, hnone]
      rfl
    case pos =>
      have htokens : c.clauseTokens? kinds clause =
          (kinds.zip clause.groups).mapM fun e => c.tokens? e.1 e.2 := if_pos hlen
      rw [renderComplexFrom_of_length hlen, Report.value_bind, value_resolveGroups hd, ← htokens,
        candidates_cons, List.findSome?_cons, matched?]
      cases c.clauseTokens? kinds clause with
      | none => exact ih hselections hcandidates
      | some groups =>
        -- The selections made here are those of every later clause.
        have hselected : (c.selectedAll p (kinds.map (.strict c.lexicon.strict)) kinds selections? :
            Report _).value = kinds.map c.selection := by
          cases selections? with
          | none => exact value_selectAll kinds
          | some ss => exact hselections ss rfl
        rw [renderComplexGroups, Report.value_bind, hselected, renderComplexChoice,
          Option.bind_some]
        cases matchGroups false groups (kinds.map c.selection) with
        | some found => rfl
        | none =>
          dsimp only
          rw [ih (fun ss h => (Option.some.inj h).symm) fun h => by cases h]
          refine congrArg (fun cs => Option.getD _ (renderCandidates p _ _ cs)) ?_
          split
          · rw [List.append_assoc]
            rfl
          · rfl

/-- The first clause of some that matches is the first one that applies by its components. -/
theorem findSome?_matched? (hd : c.lexicon.Built) {kinds : List String}
    (hkinds : ∀ kind ∈ kinds, c.lexicon.strict.hasKind kind) (b : Bool) (clauses : List Clause) :
    clauses.findSome? (c.matched? b kinds) = (c.withExcluded b).firstApplied? kinds clauses := by
  have hmatched (clause : Clause) : c.matched? b kinds clause =
      if (c.withExcluded b).applies kinds clause then
        some ((c.withExcluded b).composed kinds clause)
      else none := by
    rw [matched?, clauseTokens?_bind_matchGroups]
    exact map_renderFound (c := c.withExcluded b) hd hkinds clause
  rw [firstApplied?]
  induction clauses with
  | nil => rfl
  | cons clause clauses ih =>
    rw [List.findSome?_cons, hmatched, List.find?_cons, ih]
    cases (c.withExcluded b).applies kinds clause <;> rfl

/-- A complex pattern of known kinds renders by its components. -/
theorem rendered_complex (hd : c.lexicon.Built) {kinds : List String}
    (htarget : p.target = .complex kinds)
    (hkinds : ∀ kind ∈ kinds, c.lexicon.strict.hasKind kind) :
    c.rendered p = c.byComponents kinds p := by
  have hfind : kinds.find? (!c.lexicon.strict.hasKind ·) = none := by
    rw [List.find?_eq_none]
    intro kind hkind
    rw [hkinds kind hkind]
    exact Bool.false_ne_true
  have hloop := @value_renderComplexFrom c p hd kinds p.clauses none [] (fun ss h => by cases h)
    fun _ => rfl
  unfold rendered renderPattern
  rw [htarget]
  dsimp only
  rw [renderComplex, hfind]
  dsimp only
  rw [hloop, List.nil_append, findSome?_matched? hd hkinds, byComponents]
  cases (c.withExcluded false).firstApplied? kinds p.clauses with
  | some s => rfl
  | none =>
    rw [Option.getD_none, Option.none_or]
    split
    · rw [renderCandidates_eq, findSome?_matched? hd hkinds]
    · rfl

end Setting

/-! ## The text of a component -/

theorem Pattern.wellFormed_component {kind : String} {g : Group} {value : Value}
    (hkind : isName kind) (hg : g.WellFormed) (hvalue : value.WellFormed) :
    (component kind g value none).WellFormed where
  target := hkind
  clauses clause hclause := by
    rw [List.mem_singleton.1 hclause]
    refine ⟨List.cons_ne_nil _ _, ?_, hvalue⟩
    intro g' hg'
    rw [List.mem_singleton.1 hg']
    exact hg
  freeText s h := by cases h
  last _ s h := by cases h
  nonempty := .inl (List.cons_ne_nil _ _)

/-- A loud component as it is written. -/
theorem Pattern.written_component (kind : String) (g : Group) :
    (component kind g .loud none).written =
      "@" ++ kind ++ r"{" ++ (g.text ++ ":~") ++ r"}" := by
  have htokens : (Clause.choice [g] .loud).tokens = g.text := by
    show "+".intercalate [g.text] = _
    rw [String.intercalate_singleton]
  have hbody : (component kind g .loud none).body = g.text ++ ":~" := by
    show "|".intercalate [(Clause.choice [g] .loud).tokens ++ ":" ++ "~"] = _
    rw [String.intercalate_singleton, htokens, String.append_assoc]
    rfl
  show "@" ++ kind ++ r"{" ++ (component kind g .loud none).body ++ r"}" = _
  rw [hbody]

/-- A loud component of a well-formed pattern is what scanning reads from its written form. -/
theorem Pattern.scan_component {p : Pattern} {kinds : List String} (h : p.WellFormed)
    (htarget : p.target = .complex kinds) {clause : Clause} (hclause : clause ∈ p.clauses)
    {kind : String} (hkind : kind ∈ kinds) {g : Group} (hg : g ∈ clause.groups) :
    scan ("@" ++ kind ++ r"{" ++ (g.text ++ ":~") ++ r"}") =
      [.pattern (component kind g .loud none)] := by
  have hname : isName kind := by
    have hkinds := h.target
    rw [htarget] at hkinds
    exact hkinds.2.2 kind hkind
  have hgroup : g.WellFormed := by
    have hwell := h.clauses clause hclause
    cases clause with
    | bare s => cases hg
    | choice gs v => exact hwell.2.1 g hg
  rw [← written_component]
  exact scan_written (wellFormed_component hname hgroup trivial)

/-- Without `raises` a text renders to what its segments render to, where every complex pattern of
known kinds renders by its components.  A component with a text renders to it or to its free text;
the components of a clause that applies are as many as the kinds, and the loud ones render to
descriptions of true tokens; and for a scanned pattern each loud one is read from its written
form. -/
theorem interpolate_byComponents {text : String} {d : Lexicon} {switches : Switches}
    {options : Options} (hd : d.Reachable)
    (hquiet : (switches.merged options.overrides).raises = false) :
    let c : Setting := ⟨d, options, switches.merged options.overrides⟩
    interpolate text d switches options = .ok (String.join ((scan text).map c.shown)) ∧
      ∀ p kinds, p.target = .complex kinds → (∀ kind ∈ kinds, d.strict.hasKind kind) →
        c.rendered p = c.byComponents kinds p ∧
        (∀ b, ∀ kind ∈ kinds, ∀ g s freeText?,
          (c.withExcluded b).rendered (.component kind g (.text s) freeText?) =
            if (c.withExcluded b).selects kind g then s else freeText?.getD "") ∧
        (∀ b clause, (c.withExcluded b).applies kinds clause →
          (kinds.zip clause.groups).length = kinds.length ∧
          ∀ e ∈ kinds.zip clause.groups, ∃ name t,
            d.strict.token? name e.1 = some t ∧ t.target? = none ∧
            (c.withExcluded b).rendered (.component e.1 e.2 .loud none) = t.description) ∧
        (p.WellFormed → ∀ clause ∈ p.clauses, ∀ kind ∈ kinds, ∀ g ∈ clause.groups,
          scan ("@" ++ kind ++ r"{" ++ (g.text ++ ":~") ++ r"}") =
            [.pattern (.component kind g .loud none)]) := by
  intro c
  refine ⟨interpolate_eq_join hquiet, ?_⟩
  intro p kinds htarget hkinds
  have hbuilt : c.lexicon.Built := hd.toBuilt
  refine ⟨Setting.rendered_complex hbuilt htarget hkinds, ?_, ?_, ?_⟩
  · intro b kind hkind g s freeText?
    exact Setting.rendered_component_text (c := c.withExcluded b) (hkinds kind hkind) g s freeText?
  · intro b clause happlies
    obtain ⟨hlen, hall⟩ := Bool.and_eq_true_iff.1 happlies
    have hlen : clause.groups.length = kinds.length := beq_iff_eq.1 hlen
    refine ⟨by rw [List.length_zip, hlen, Nat.min_self], ?_⟩
    intro e he
    have hkind : d.strict.hasKind e.1 := hkinds e.1 (List.of_mem_zip he).1
    have hselects : (c.withExcluded b).selects e.1 e.2 := List.all_eq_true.1 hall e he
    rw [Setting.selects_eq hkind] at hselects
    obtain ⟨name, hname⟩ := Option.isSome_iff_exists.1 hselects
    exact ⟨name, Setting.exists_description (c := c.withExcluded b) hbuilt hkind hname⟩
  · intro hp clause hclause kind hkind g hg
    exact Pattern.scan_component hp htarget hclause hkind hg

/-- No clause applies to `pl` itself, so the default `sg` stands in for it. -/
theorem interpolate_byComponents_excluded :
    let d : Lexicon := ⟨"en", .empty "en", (StrictStore.empty "en").attemptAll
      [.addToken "f" "gender" "female", .addToken "m" "gender" "male",
        .addToken "sg" "number" "one", .addToken "pl" "number" "many",
        .setDefault "number" "sg"]⟩
    let switches : Switches := Switches.standard.set .excludedDefaults true
    let options : Options :=
      (Options.empty.insertIfValid "gender" "f").insertIfValid "number" "pl"
    d.Reachable ∧ (switches.merged options.overrides).raises = false ∧
      interpolate "@gender+number{m+sg:he|f+sg:~}" d switches options = .ok "female one" := by
  intro d switches options
  have hd : d.Reachable := .built ⟨⟨"en", [], rfl⟩, ⟨"en", _, rfl⟩⟩
  have hquiet : (switches.merged options.overrides).raises = false := by decide +kernel
  have hcomponents :=
    @interpolate_byComponents "@gender+number{m+sg:he|f+sg:~}" d switches options hd hquiet
  refine ⟨hd, hquiet, ?_⟩
  let p : Pattern := ⟨"@gender+number{m+sg:he|f+sg:~}", .complex ["gender", "number"],
    [.choice [⟨[⟨"m", false⟩]⟩, ⟨[⟨"sg", false⟩]⟩] (.text "he"),
      .choice [⟨[⟨"f", false⟩]⟩, ⟨[⟨"sg", false⟩]⟩] .loud], none⟩
  have hscan : scan "@gender+number{m+sg:he|f+sg:~}" = [.pattern p] := by decide +kernel
  have hkinds : ∀ kind ∈ ["gender", "number"], d.strict.hasKind kind := by decide +kernel
  have hshown : (⟨d, options, switches.merged options.overrides⟩ : Setting).byComponents
      ["gender", "number"] p = "female one" := by
    decide +kernel
  have hrendered := (hcomponents.2 p ["gender", "number"] rfl hkinds).1.trans hshown
  rw [hcomponents.1, hscan]
  simp only [List.map_cons, List.map_nil, Setting.shown, hrendered]
  rfl

end Inflection

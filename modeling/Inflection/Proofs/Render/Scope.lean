import Inflection.Proofs.Lexicon.Built
import Inflection.Render.Selection

/-!
# The scopes of a built lexicon

The invariants of the two stores, said of the scopes that patterns are read in.

## Main statements

* `Scope.wellFormed_loose`, `Scope.wellFormed_strict`: the scopes of a built lexicon satisfy them.
* `Setting.kind_of_lookUp`: an alias and the token that it stands for are of one kind.
* `Setting.isTrue_of_lookUp`: a member mentions a true token.
-/

namespace Inflection

namespace Scope

/-- A name is a true token of a kind. -/
def IsTrue (s : Scope) (kind name : String) : Prop :=
  ∃ t, s.token? name = some t ∧ t.target? = none ∧ t.kind = kind

/-- The invariant of scopes: each token stands under its own name and is of the kind of the scope,
and aliases and defaults lead to true tokens of their kind. -/
structure WellFormed (s : Scope) : Prop where
  name_eq : ∀ {name t}, s.token? name = some t → t.name = name
  kind_eq : ∀ {kind name t}, s.kind? = some kind → s.token? name = some t → t.kind = kind
  target : ∀ {name t target}, s.token? name = some t → t.target? = some target →
    s.IsTrue t.kind target
  default : ∀ {kind name}, s.kind?.getD kind = kind → s.default? kind = some name →
    s.IsTrue kind name

theorem token?_loose (s : LooseStore) (name : String) :
    (loose s).token? name = s.tokens.get? name := by
  rw [token?, LooseStore.token?]
  cases s.tokens.get? name with
  | none => rfl
  | some t => rfl

theorem wellFormed_loose {d : Lexicon} (hd : d.Built) : (loose d.loose).WellFormed where
  name_eq h := hd.wellFormed_loose.name_eq ((token?_loose ..).symm.trans h)
  kind_eq h _ := by cases h
  target {name t target} h ht := by
    rw [token?_loose] at h
    obtain ⟨base, hbase, htrue, hkind, -⟩ := hd.wellFormed_loose.target h ht
    exact ⟨base, (token?_loose ..).trans hbase, htrue, hkind⟩
  default _ h := by
    obtain ⟨t, ht, htrue, hkind⟩ := hd.wellFormed_loose.default h
    exact ⟨t, (token?_loose ..).trans ht, htrue, hkind⟩

theorem wellFormed_strict {d : Lexicon} (hd : d.Built) (kind : String) :
    (strict d.strict kind).WellFormed where
  name_eq h := (hd.wellFormed_strict.name_eq h).1
  kind_eq h ht := by
    cases h
    exact (hd.wellFormed_strict.name_eq ht).2
  target h ht := by
    obtain ⟨base, hbase, htrue, -⟩ := hd.wellFormed_strict.target h ht
    exact ⟨base, hbase, htrue,
      (hd.wellFormed_strict.name_eq hbase).2.trans (hd.wellFormed_strict.name_eq h).2.symm⟩
  default hkind h := by
    obtain ⟨t, ht, htrue⟩ := hd.wellFormed_strict.default h
    exact ⟨t, ht, htrue, (hd.wellFormed_strict.name_eq ht).2.trans hkind⟩

/-- The true token behind a token or alias of a kind is one of that kind. -/
theorem WellFormed.isTrue_of_trueToken? {s : Scope} (hs : s.WellFormed) {name kind base : String}
    (h : s.trueToken? name kind = some base) : s.IsTrue kind base := by
  obtain ⟨t, ht, rfl⟩ := Option.map_eq_some_iff.1 h
  obtain ⟨ht, htkind⟩ := Option.filter_eq_some_iff.1 ht
  have htkind : t.kind = kind := beq_iff_eq.1 htkind
  unfold Token.trueName
  cases htarget : t.target? with
  | none => exact ⟨t, (hs.name_eq ht).symm ▸ ht, htarget, htkind⟩
  | some target => exact htkind ▸ hs.target ht htarget

/-- A true token stands for itself. -/
theorem WellFormed.trueToken?_of_isTrue {s : Scope} (hs : s.WellFormed) {name kind : String}
    (h : s.IsTrue kind name) : s.trueToken? name kind = some name := by
  obtain ⟨t, ht, htarget, rfl⟩ := h
  have hname : t.trueName = name := by
    rw [Token.trueName, htarget]
    exact hs.name_eq ht
  rw [trueToken?, ht, Option.filter_some, if_pos (beq_self_eq_true t.kind), Option.map_some, hname]

/-- The kind of the token that a member mentions. -/
def kindOf? (s : Scope) (name : String) : Option String := (s.token? name).map Token.kind

theorem kindOf?_of_trueToken? {s : Scope} {kind name base : String}
    (h : s.trueToken? name kind = some base) : s.kindOf? name = some kind := by
  obtain ⟨t, ht, -⟩ := Option.map_eq_some_iff.1 h
  obtain ⟨ht, hkind⟩ := Option.filter_eq_some_iff.1 ht
  rw [kindOf?, ht]
  exact congrArg some (beq_iff_eq.1 hkind)

/-- A name stands for a true token of a kind. -/
theorem WellFormed.trueToken?_of_plain {s : Scope} (hs : s.WellFormed) {name : String} {t : Token}
    (h : s.token? name = some t) (ht : t.target? = none) :
    s.trueToken? name t.kind = some t.name := by
  rw [hs.name_eq h]
  exact hs.trueToken?_of_isTrue ⟨t, h, ht, rfl⟩

theorem WellFormed.trueToken?_of_alias {s : Scope} (hs : s.WellFormed) {name target : String}
    {t base : Token} (h : s.token? name = some t) (ht : t.target? = some target)
    (hbase : s.token? target = some base) : s.trueToken? name base.kind = some base.name := by
  obtain ⟨base', hbase', -, hkind⟩ := hs.target h ht
  obtain rfl : base' = base := Option.some.inj (hbase'.symm.trans hbase)
  rw [trueToken?, h, Option.filter_some, if_pos (beq_iff_eq.2 hkind.symm), Option.map_some,
    Token.trueName, ht, hs.name_eq hbase]
  rfl

end Scope

namespace Setting

variable {c : Setting} {scope : Scope} {name : String}

theorem lookUp_of_plain (c : Setting) {t : Token} (h : scope.token? name = some t)
    (ht : t.target? = none) : c.lookUp scope name = some t := by
  rw [lookUp, h]
  simp only [ht]

theorem lookUp_of_alias (c : Setting) {t : Token} {target : String}
    (h : scope.token? name = some t) (ht : t.target? = some target) :
    c.lookUp scope name = if c.switches.aliasedPatterns then scope.token? target else none := by
  rw [lookUp, h]
  simp only [ht]

/-- What a member mentions is the true token behind its name. -/
theorem trueToken?_of_lookUp (hs : scope.WellFormed) {t : Token}
    (h : c.lookUp scope name = some t) : scope.trueToken? name t.kind = some t.name := by
  cases hn : scope.token? name with
  | none => simp [lookUp, hn] at h
  | some u =>
    cases hu : u.target? with
    | none =>
      rw [lookUp_of_plain c hn hu] at h
      cases h
      exact hs.trueToken?_of_plain hn hu
    | some target =>
      rw [lookUp_of_alias c hn hu] at h
      split at h
      · exact hs.trueToken?_of_alias hn hu h
      · cases h

/-- An alias and the token that it stands for are of one kind. -/
theorem kind_of_lookUp (hs : scope.WellFormed) {t : Token} (h : c.lookUp scope name = some t) :
    scope.kindOf? name = some t.kind :=
  Scope.kindOf?_of_trueToken? (trueToken?_of_lookUp hs h)

/-- The token that a member mentions is a true one. -/
theorem isTrue_of_lookUp (hs : scope.WellFormed) {t : Token} (h : c.lookUp scope name = some t) :
    scope.IsTrue t.kind t.name :=
  hs.isTrue_of_trueToken? (trueToken?_of_lookUp hs h)

end Setting

end Inflection

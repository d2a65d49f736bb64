import Inflection.Proofs.Pattern.Segments
import Inflection.Proofs.Render.Raise
import Inflection.Proofs.Render.Scope

/-!
# Rendering without raises

What a text renders to when its faults are passed over: `Setting.rendered` is the part of a pattern
in it.  What a group resolves to is then said without the loop over its members, through the tokens
that it mentions.

## Main statements

* `interpolate_eq_join`: without `raises` a text renders to what its segments render to.
* `Setting.value_resolveGroup`, `Setting.value_select`: what a group resolves to, and the selection
  for a kind.
-/

namespace Inflection

/-! ## Texts -/

namespace Setting

/-- What a pattern renders to when its faults are passed over. -/
def rendered (c : Setting) (p : Pattern) : String := (c.renderPattern p : Report String).value

/-- What a segment renders to when its faults are passed over. -/
def shown (c : Setting) : Segment → String
  | .literal text => text
  | .pattern p => c.rendered p

theorem value_renderSegment (c : Setting) (segment : Segment) :
    (c.renderSegment segment : Report String).value = c.shown segment := by
  cases segment with
  | literal text => rfl
  | pattern p => rfl

end Setting

/-- Without a mark no raw pattern begins, so each character is a piece by itself. -/
theorem Piece.cuts_of_notMem_mark {cs : List Char} (h : mark ∉ cs) : Cuts cs (cs.map char) := by
  have hbegins {cs : List Char} (h : mark ∉ cs) (raw rest) : ¬RawPattern.Begins cs raw rest := by
    intro hb
    refine h ?_
    rw [hb.eq_append]
    exact List.mem_append_left _ List.mem_cons_self
  induction cs with
  | nil => exact .nil
  | cons c cs ih =>
    have hcs : mark ∉ cs := fun hmem => h (List.mem_cons_of_mem _ hmem)
    refine .char ?_ (hbegins h) (ih hcs)
    rintro ⟨-, raw, rest, hb⟩
    exact hbegins hcs raw rest hb

/-- A text without marks is literal, and has no segment if it is empty. -/
theorem scan_of_notMem_mark {text : String} (h : mark ∉ text.toList) :
    text = "" ∧ scan text = [] ∨ scan text = [.literal text] := by
  have hassemble (cs : List Char) : Segment.assemble (cs.map Piece.char) = (cs, []) := by
    induction cs with
    | nil => rfl
    | cons c cs ih => rw [List.map_cons, Segment.assemble, ih]
  have hscan : scan text = Segment.prependLiteral text.toList [] := by
    rw [scan, ← (Piece.cuts_of_notMem_mark h).eq_cut, Segment.ofPieces, hassemble]
  cases htext : text.toList with
  | nil =>
    rw [htext] at hscan
    exact .inl ⟨String.toList_inj.1 htext, hscan⟩
  | cons c cs =>
    have hliteral : scan text = [.literal (String.ofList (c :: cs))] := by
      rw [hscan, htext]
      rfl
    rw [← htext, String.ofList_toList] at hliteral
    exact .inr hliteral

theorem join_singleton (s : String) : String.join [s] = s := by
  rw [String.join_cons, String.join_nil, String.append_empty]

/-- Without `raises` a text renders to what its segments render to, one after the other. -/
theorem interpolate_eq_join {text : String} {d : Lexicon} {switches : Switches}
    {options : Options} (h : (switches.merged options.overrides).raises = false) :
    interpolate text d switches options =
      .ok (String.join ((scan text).map
        (Setting.shown ⟨d, options, switches.merged options.overrides⟩))) := by
  rw [interpolate_of_not_raises h, quietly]
  refine congrArg Except.ok ?_
  split
  case isTrue =>
    show String.join (List.mapM _ (scan text) : Report (List String)).value = _
    rw [Report.value_mapM]
    exact congrArg String.join (List.map_congr_left fun s _ => Setting.value_renderSegment _ s)
  case isFalse hmark =>
    rw [Report.value_pure]
    rcases scan_of_notMem_mark hmark with ⟨rfl, hscan⟩ | hscan
    · rw [hscan]
      rfl
    · rw [hscan]
      exact (join_singleton text).symm

/-! ## Mentioned tokens -/

/-- A token that a member mentions, and whether the member is negated. -/
structure Mention where
  token : Token
  negated : Bool
deriving DecidableEq, Repr

namespace Mention

/-- The names of the tokens that are not negated. -/
def positives (ms : List Mention) : List String :=
  (ms.filter (!·.negated)).map (·.token.name)

/-- The names of the negated tokens. -/
def negatives (ms : List Mention) : List String :=
  (ms.filter (·.negated)).map (·.token.name)

/-- Whether some tokens are mentioned, and all of one kind. -/
def isLive (kind : String) (ms : List Mention) : Bool :=
  !ms.isEmpty && ms.all (·.token.kind == kind)

/-- Whether the tokens apply to an option. -/
def accepts (ms : List Mention) (option : String) : Bool :=
  match (negatives ms).length with
  | 0 => (positives ms).contains option
  | 1 => !(negatives ms).contains option
  | _ => true

/-- The tokens, apart by negation. -/
def tokens (ms : List Mention) : Tokens := ⟨positives ms, negatives ms⟩

theorem tokens_cons (m : Mention) (ms : List Mention) :
    tokens (m :: ms) = (tokens ms).cons m.negated m.token.name := by
  obtain ⟨t, negated⟩ := m
  cases negated <;> rfl

theorem isEmpty_tokens (ms : List Mention) : (tokens ms).isEmpty = ms.isEmpty := by
  cases ms with
  | nil => rfl
  | cons m ms =>
    rw [tokens_cons, Tokens.cons]
    split <;> simp [Tokens.isEmpty]

theorem accepts_tokens (ms : List Mention) (option : String) :
    (tokens ms).accepts option = accepts ms option := by
  have hnegatives : (tokens ms).negatives = negatives ms := rfl
  unfold accepts Tokens.accepts
  rw [hnegatives]
  rcases negatives ms with _ | ⟨n, _ | ⟨n', rest⟩⟩
  · rfl
  · show (n != option) = !([n].contains option)
    rw [List.contains_cons, List.contains_nil, Bool.or_false, bne, BEq.comm]
  · rfl

end Mention

namespace Setting

variable {c : Setting} {p : Pattern} {scope : Scope}

/-- The token that a name stands for in a pattern: a true token for itself, and an alias for its
target if patterns may mention aliases. -/
def mentioned? (c : Setting) (scope : Scope) (name : String) : Option Token :=
  (scope.token? name).bind fun t =>
    if t.isAlias then if c.switches.aliasedPatterns then scope.token? t.trueName else none
    else some t

/-- The tokens that a group mentions; a member that mentions none is left out. -/
def mentions (c : Setting) (scope : Scope) (g : Group) : List Mention :=
  g.members.filterMap fun m => (c.mentioned? scope m.name).map (⟨·, m.negated⟩)

/-- The token that is asked for among those of a kind, or else its default if that may stand in. -/
def option? (c : Setting) (scope : Scope) (kind : String) : Option String :=
  ((c.options.requested? kind scope.isStrict).bind (scope.trueToken? · kind)).or
    (if c.switches.unknownDefaults then scope.default? kind else none)

theorem lookUp_eq (name : String) : c.lookUp scope name = c.mentioned? scope name := by
  unfold mentioned?
  cases h : scope.token? name with
  | none => rw [lookUp, h, Option.bind_none]
  | some t =>
    cases ht : t.target? with
    | none =>
      have hplain : t.isAlias = false := by rw [Token.isAlias, ht]; rfl
      rw [lookUp_of_plain c h ht, Option.bind_some, if_neg (by simp [hplain])]
    | some target =>
      have halias : t.isAlias := by rw [Token.isAlias, ht]; rfl
      have hname : t.trueName = target := by rw [Token.trueName, ht]; rfl
      rw [lookUp_of_alias c h ht, Option.bind_some, if_pos halias, hname]

/-- What members resolve to.  The first token that they mention fixes the kind, unless it is known
before, and then all have to be of that kind. -/
theorem value_resolveMembers (members : List Member) (kind? : Option String) :
    (c.resolveMembers p scope members kind? : Report _).value =
      let ms := c.mentions scope ⟨members⟩
      let kind? := kind?.or (ms.head?.map (·.token.kind))
      (kind?, if ms.all (some ·.token.kind == kind?) then some (Mention.tokens ms) else none) := by
  induction members generalizing kind? with
  | nil =>
    show (kind?, some Tokens.empty) = (kind?.or none, some Tokens.empty)
    rw [Option.or_none]
  | cons member members ih =>
    rw [resolveMembers, Report.value_bind]
    cases h : c.mentioned? scope member.name with
    | none =>
      have hvalue : (c.resolveMember p scope member : Report _).value = none := by
        rw [resolveMember, lookUp_eq, h]
        rfl
      have hmentions : c.mentions scope ⟨member :: members⟩ = c.mentions scope ⟨members⟩ := by
        simp [mentions, h]
      rw [hvalue, hmentions]
      exact ih kind?
    | some t =>
      have hvalue : (c.resolveMember p scope member : Report _).value = some t := by
        rw [resolveMember, lookUp_eq, h]
        rfl
      have hmentions : c.mentions scope ⟨member :: members⟩ =
          ⟨t, member.negated⟩ :: c.mentions scope ⟨members⟩ := by
        simp [mentions, h]
      have hkind : kind?.or (some t.kind) = some (kind?.getD t.kind) := by
        cases kind? <;> rfl
      rw [hvalue, hmentions]
      simp only [List.head?_cons, Option.map_some, hkind, List.all_cons]
      split
      case isTrue heq =>
        rw [Report.value_bind, ih]
        simp only [← heq, Option.some_or, Report.value_pure, beq_self_eq_true, Bool.true_and]
        split
        · rw [Mention.tokens_cons]
          rfl
        · rfl
      case isFalse hne =>
        have hkind : (some t.kind == some (kind?.getD t.kind)) = false := by
          rw [Option.some_beq_some, beq_eq_false_iff_ne]
          exact hne
        rw [hkind, Bool.false_and]
        rfl

/-- What a group resolves to: the tokens that it mentions, if there are any and all are of the kind
that is known before or that the first of them has. -/
theorem value_resolveGroup (g : Group) (kind? : Option String) :
    (c.resolveGroup p scope kind? g : Report _).value =
      let ms := c.mentions scope g
      let kind? := kind?.or (ms.head?.map (·.token.kind))
      (kind?, kind?.bind fun kind =>
        if Mention.isLive kind ms then some (Mention.tokens ms) else none) := by
  rw [resolveGroup, Report.value_bind, value_resolveMembers]
  simp only [Report.value_pure]
  generalize c.mentions scope g = ms
  refine congrArg (Prod.mk _) ?_
  cases ms with
  | nil =>
    cases kind? with
    | none => rfl
    | some kind => rfl
  | cons m ms =>
    have hkind : kind?.or (some m.token.kind) = some (kind?.getD m.token.kind) := by
      cases kind? <;> rfl
    have hempty : (Mention.tokens (m :: ms)).isEmpty = false := Mention.isEmpty_tokens _
    simp only [List.head?_cons, Option.map_some, hkind, Option.bind_some, Mention.isLive,
      List.isEmpty_cons, Bool.not_false, Bool.true_and, Option.some_beq_some]
    split
    · rw [Option.filter_some, if_pos (by rw [hempty]; rfl)]
    · rfl

/-- The selection for a kind. -/
theorem value_select (kind : String) :
    (c.select p scope kind : Report _).value = ⟨c.option? scope kind, scope.default? kind⟩ := by
  unfold select option?
  dsimp only
  generalize (if c.switches.unknownDefaults then scope.default? kind else none) = fallback?
  cases c.options.requested? kind scope.isStrict with
  | none => cases fallback? <;> rfl
  | some requested =>
    dsimp only
    rw [Option.bind_some]
    cases scope.trueToken? requested kind with
    | some t => rfl
    | none => cases fallback? <;> rfl

end Setting

end Inflection

import Inflection.Pattern.Scan
import Inflection.Render.Scope

/-!
# Lint

A warning says what is wrong or suspicious in a pattern whatever the options of a call.  `lint`
checks every pattern of a text against a lexicon without rendering it.  Warnings come in the order
of the patterns, and within a pattern in reading order; the warning that a pattern may render to
nothing is its last.
-/

namespace Inflection

/-! ## Warnings -/

/-- A warning; each begins with the text of its pattern. -/
inductive Warning where
  | unknownKind (pattern kind : String)
  | unknownToken (pattern token : String)
  | aliasInPattern (pattern token target : String)
  | misplacedToken (pattern token kind expected : String)
  | complexArity (pattern tokens : String) (expected got : Nat)
  | repeatedToken (pattern token : String)
  | mayRenderEmpty (pattern kind : String)
deriving DecidableEq, Repr

/-- The text of the warning. -/
def Warning.message : Warning → String
  | unknownKind pattern kind => s!"unknown inflection kind '{kind}' in pattern '{pattern}'"
  | unknownToken pattern token => s!"unknown inflection token '{token}' in pattern '{pattern}'"
  | aliasInPattern pattern token target =>
    s!"alias '{token}' of '{target}' used in pattern '{pattern}'"
  | misplacedToken pattern token kind expected =>
    s!"token '{token}' of kind '{kind}' in pattern '{pattern}' expects kind '{expected}'"
  | complexArity pattern tokens expected got =>
    s!"token set '{tokens}' in pattern '{pattern}' has {got} groups, expected {expected}"
  | repeatedToken pattern token =>
    s!"token '{token}' appears in more than one clause of pattern '{pattern}'"
  | mayRenderEmpty pattern kind =>
    s!"pattern '{pattern}' has no free text and no clause for the default of kind '{kind}'"

namespace Lint

/-! ## Members -/

/-- The true token that a member mentions.  An unknown name and an alias are warned of. -/
def checkMember (p : Pattern) (scope : Scope) (member : Member) :
    List Warning × Option Token :=
  match scope.token? member.name with
  | none => ([.unknownToken p.source member.text], none)
  | some t =>
    match t.target? with
    | none => ([], some t)
    | some target => ([.aliasInPattern p.source t.name target], scope.token? target)

/-! ## Loose and named patterns -/

/-- What is known of a pattern after some of its members: its kind, the tokens listed without
negation, those listed twice, and whether any member is negated. -/
structure Survey where
  kind? : Option String
  listed : List String
  repeated : List String
  negated : Bool
deriving DecidableEq, Repr

/-- Takes a member that mentions a token into the survey. -/
def surveyToken (p : Pattern) (member : Member) (t : Token) (s : Survey) :
    List Warning × Survey :=
  let kind := s.kind?.getD t.kind
  if t.kind = kind then
    let s := { s with kind? := some kind }
    if member.negated then ([], { s with negated := true })
    else if t.name ∉ s.listed then ([], { s with listed := t.name :: s.listed })
    else if t.name ∉ s.repeated then
      ([.repeatedToken p.source t.name], { s with repeated := t.name :: s.repeated })
    else ([], s)
  else ([.misplacedToken p.source member.name t.kind kind], s)

/-- Takes members into the survey one after the other. -/
def surveyMembers (p : Pattern) (scope : Scope) : List Member → Survey → List Warning × Survey
  | [], s => ([], s)
  | member :: members, s =>
    match checkMember p scope member with
    | (warnings, none) =>
      let (rest, s) := surveyMembers p scope members s
      (warnings ++ rest, s)
    | (warnings, some t) =>
      let (more, s) := surveyToken p member t s
      let (rest, s) := surveyMembers p scope members s
      (warnings ++ more ++ rest, s)

/-- Takes clauses into the survey one after the other.  Only a clause with one group is read. -/
def surveyClauses (p : Pattern) (scope : Scope) : List Clause → Survey → List Warning × Survey
  | [], s => ([], s)
  | clause :: clauses, s =>
    let (warnings, s) := match clause.groups with
      | [group] => surveyMembers p scope group.members s
      | _ => ([.unknownToken p.source clause.tokens], s)
    let (rest, s) := surveyClauses p scope clauses s
    (warnings ++ rest, s)

/-- Warns of a pattern that may render to nothing: it has no free text, negates no token, and
does not list the default of its kind. -/
def checkCoverage (p : Pattern) (scope : Scope) (s : Survey) : List Warning :=
  if p.freeText?.isSome || s.negated then []
  else match s.kind? with
    | none => []
    | some kind =>
      if (scope.default? kind).any (· ∈ s.listed) then [] else [.mayRenderEmpty p.source kind]

/-- Checks a loose or named pattern. -/
def checkSingle (p : Pattern) (scope : Scope) : List Warning :=
  let (warnings, s) := surveyClauses p scope p.clauses ⟨scope.kind?, [], [], false⟩
  warnings ++ checkCoverage p scope s

/-! ## Complex patterns -/

/-- Checks the groups of a clause, each in the kind of its place. -/
def checkGroups (p : Pattern) (store : StrictStore) (kinds : List String)
    (groups : List Group) : List Warning :=
  (kinds.zip groups).flatMap fun (kind, group) =>
    group.members.flatMap fun member => (checkMember p (.strict store kind) member).1

/-- Checks a clause of a complex pattern. -/
def checkComplexClause (p : Pattern) (store : StrictStore) (kinds : List String)
    (clause : Clause) : List Warning :=
  if clause.groups.length = kinds.length then checkGroups p store kinds clause.groups
  else [.complexArity p.source clause.tokens kinds.length clause.groups.length]

/-- Checks a complex pattern; its clauses only if all its kinds are known. -/
def checkComplex (p : Pattern) (store : StrictStore) (kinds : List String) : List Warning :=
  match kinds.filter (!store.hasKind ·) with
  | [] => p.clauses.flatMap (checkComplexClause p store kinds)
  | unknown => unknown.map (.unknownKind p.source)

/-- Checks a pattern. -/
def checkPattern (d : Lexicon) (p : Pattern) : List Warning :=
  match p.target with
  | .loose => checkSingle p (.loose d.loose)
  | .named kind =>
    if d.strict.hasKind kind then checkSingle p (.strict d.strict kind)
    else [.unknownKind p.source kind]
  | .complex kinds => checkComplex p d.strict kinds
  | .invalid text => [.unknownKind p.source text]

end Lint

/-- The warnings about a text. -/
def lint (text : String) (d : Lexicon) : List Warning :=
  (patterns text).flatMap (Lint.checkPattern d)

end Inflection

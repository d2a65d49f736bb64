import Inflection.Name

/-!
# Patterns

A text is scanned into segments, each a literal or a pattern.  A pattern says by its target where
its tokens are looked up; its clauses give a value for some tokens, and its free text is what it
renders to when no clause applies.

    @{f:Lady|m:Sir|friend}          loose
    @gender{f:she|m:he}             named
    @gender+number{f+sg:she|they}   complex

`Group.text`, `Clause.tokens` and `Target.kinds` give the written form of their parts.
-/

namespace Inflection

/-! ## Members, groups and clauses -/

/-- A token that a clause mentions, possibly negated. -/
structure Member where
  name : String
  negated : Bool
deriving DecidableEq, Repr

/-- The member as it is written, with `!` before a negated one. -/
def Member.text (m : Member) : String := if m.negated then "!" ++ m.name else m.name

/-- Alternative tokens of one kind. -/
structure Group where
  members : List Member
deriving DecidableEq, Repr

/-- The members of the group, separated by commas. -/
def Group.text (g : Group) : String := ",".intercalate (g.members.map Member.text)

/-- What a clause renders to when it is chosen: its text, or the description of the token. -/
inductive Value where
  | text (s : String)
  | loud
deriving DecidableEq, Repr

/-- A clause of a pattern.  A bare clause gives no value and is never chosen; any other has one
group for each kind of its pattern. -/
inductive Clause where
  | bare (text : String)
  | choice (groups : List Group) (value : Value)
deriving DecidableEq, Repr

namespace Clause

/-- The groups of the clause, none for a bare one. -/
def groups : Clause → List Group
  | bare _ => []
  | choice gs _ => gs

/-- The value of the clause, the empty text for a bare one. -/
def value : Clause → Value
  | bare _ => .text ""
  | choice _ v => v

/-- The tokens of the clause as they are written. -/
def tokens : Clause → String
  | bare s => s
  | choice gs _ => "+".intercalate (gs.map Group.text)

@[simp] theorem groups_bare (s : String) : (bare s).groups = [] := rfl
@[simp] theorem groups_choice (gs : List Group) (v : Value) : (choice gs v).groups = gs := rfl
@[simp] theorem value_choice (gs : List Group) (v : Value) : (choice gs v).value = v := rfl

end Clause

/-! ## Targets -/

/-- Where the tokens of a pattern are looked up: among those of all loose kinds, in one strict
kind, in several strict kinds at once, or nowhere. -/
inductive Target where
  | loose
  | named (kind : String)
  | complex (kinds : List String)
  | invalid (text : String)
deriving DecidableEq, Repr

namespace Target

/-- Reads the text between the mark of a pattern and its first body: kinds joined by `+`, each a
valid name and no two alike. -/
def ofKinds (kinds : String) : Target :=
  if kinds = "" then .loose
  else
    let names := (kinds.toList.splitOn '+').map String.ofList
    if names.Nodup ∧ names.all isName then
      match names with
      | [name] => .named name
      | _ => .complex names
    else .invalid kinds

/-- The text that a target is written as. -/
def kinds : Target → String
  | loose => ""
  | named kind => kind
  | complex ks => "+".intercalate ks
  | invalid s => s

end Target

/-! ## Patterns and segments -/

/-- A pattern with one body. -/
structure Pattern where
  source : String
  target : Target
  clauses : List Clause
  freeText? : Option String
deriving DecidableEq, Repr

/-- The free text of a pattern, empty if it has none. -/
def Pattern.freeText (p : Pattern) : String := p.freeText?.getD ""

/-- A part of a scanned text. -/
inductive Segment where
  | literal (text : String)
  | pattern (p : Pattern)
deriving DecidableEq, Repr

namespace Segment

/-- The pattern of a segment that is one. -/
def pattern? : Segment → Option Pattern
  | literal _ => none
  | pattern p => some p

@[simp] theorem pattern?_literal (s : String) : (literal s).pattern? = none := rfl
@[simp] theorem pattern?_pattern (p : Pattern) : (pattern p).pattern? = some p := rfl

end Segment

end Inflection

/-!
# Tokens

A token is a named value of a kind.  A true token has a description of its own; an alias points at
a true token and carries a copy of its description.
-/

namespace Inflection

/-- A true token, or an alias when it has a target. -/
structure Token where
  name : String
  kind : String
  description : String
  target? : Option String
deriving DecidableEq, Repr

namespace Token

/-- The true token with a given description. -/
def plain (name kind description : String) : Token := ⟨name, kind, description, none⟩

/-- The alias of a token under another name. -/
def aliasOf (name : String) (target : Token) : Token :=
  ⟨name, target.kind, target.description, some target.name⟩

/-- Whether the token points at another one. -/
def isAlias (t : Token) : Bool := t.target?.isSome

/-- The name of the true token: that of the target for an alias. -/
def trueName (t : Token) : String := t.target?.getD t.name

/-- The token as it is listed. -/
def text (t : Token) : String :=
  match t.target? with
  | none => s!"{t.kind}:{t.name}"
  | some target => s!"{t.kind}:{t.name} -> {target}"

@[simp] theorem isAlias_plain (name kind description : String) :
    (plain name kind description).isAlias = false := rfl

@[simp] theorem isAlias_aliasOf (name : String) (t : Token) : (aliasOf name t).isAlias := rfl

@[simp] theorem trueName_plain (name kind description : String) :
    (plain name kind description).trueName = name := rfl

@[simp] theorem trueName_aliasOf (name : String) (t : Token) :
    (aliasOf name t).trueName = t.name := rfl

end Token

end Inflection

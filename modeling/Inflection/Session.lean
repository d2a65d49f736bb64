import Inflection.Registry

/-!
# Sessions

A session is one registry and the calls made on it, one after the other.  Lexicons that were given
out may be held under names of their own and looked at again later.
-/

namespace Inflection

/-- A call on a registry, or on what has been held. -/
inductive Call where
  | load (locale : String) (tree : RawTree)
  | install (d : Lexicon)
  | unload (locale : String)
  | lexicon (locale : String)
  | hasLocale (locale : String)
  | localeNames
  | switches
  | setSwitches (switches : Switches)
  | interpolate (text locale : String) (options : Options)
  | lint (text locale : String)
  | hold (name locale : String)
  | held (name : String)

/-- What a call gives back. -/
inductive Reply where
  | done
  | loaded (result : Except LoadError Nat)
  | data (d? : Option Lexicon)
  | flag (b : Bool)
  | names (locales : List String)
  | switches (switches : Switches)
  | rendered (result : Except Fault String)
  | warnings (ws : List Warning)

/-- A registry, and the lexicons held under names. -/
structure Session where
  registry : Registry
  holds : SortedMap (Option Lexicon)
deriving DecidableEq

namespace Session

/-- The session that begins with some switches and without data. -/
def start (switches : Switches) : Session := ⟨.empty switches, ∅⟩

/-- Makes a call. -/
def perform (s : Session) : Call → Session × Reply
  | .load locale tree =>
    match s.registry.load locale tree with
    | .ok (count, r) => ({ s with registry := r }, .loaded (.ok count))
    | .error e => (s, .loaded (.error e))
  | .install d =>
    let (replaced?, r) := s.registry.install d
    ({ s with registry := r }, .data replaced?)
  | .unload locale =>
    let (known, r) := s.registry.unload locale
    ({ s with registry := r }, .flag known)
  | .lexicon locale => (s, .data (s.registry.lexicon? locale))
  | .hasLocale locale => (s, .flag (s.registry.hasLocale locale))
  | .localeNames => (s, .names s.registry.localeNames)
  | .switches => (s, .switches s.registry.switches)
  | .setSwitches switches => ({ s with registry := s.registry.setSwitches switches }, .done)
  | .interpolate text locale options =>
    (s, .rendered (s.registry.interpolate text locale options))
  | .lint text locale => (s, .warnings (s.registry.lint text locale))
  | .hold name locale =>
    let d? := s.registry.lexicon? locale
    ({ s with holds := s.holds.insert name d? }, .data d?)
  | .held name => (s, .data (s.holds.get? name).join)

/-- The session after some calls. -/
def after (s : Session) (calls : List Call) : Session :=
  calls.foldl (fun s call => (s.perform call).1) s

end Session

end Inflection

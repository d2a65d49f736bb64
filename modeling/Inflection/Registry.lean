import Inflection.Lexicon.Load
import Inflection.Lint.Check
import Inflection.Render.Text

/-!
# Registries

A registry holds the lexicon of every loaded locale and the switches that calls start from.  It is
a value: loading gives another registry, and a lexicon taken out before stays as it was.  A locale
without data is read as an empty lexicon.
-/

namespace Inflection

/-- The lexicons of the loaded locales, and the switches that calls start from. -/
structure Registry where
  switches : Switches
  locales : SortedMap Lexicon
deriving DecidableEq

namespace Registry

/-- The registry without locales. -/
def empty (switches : Switches) : Registry := ⟨switches, ∅⟩

/-- The data of a locale. -/
def lexicon? (r : Registry) (locale : String) : Option Lexicon := r.locales.get? locale

/-- Whether a locale has data. -/
def hasLocale (r : Registry) (locale : String) : Bool := r.locales.contains locale

/-- The locales that have data, in order. -/
def localeNames (r : Registry) : List String := r.locales.keys

/-- Puts data under its locale, and gives back what it replaces. -/
def install (r : Registry) (d : Lexicon) : Option Lexicon × Registry :=
  (r.locales.get? d.locale, { r with locales := r.locales.insert d.locale d })

/-- Loads a raw tree for a locale and counts its tokens, or says why it is refused. -/
def load (r : Registry) (locale : String) (tree : RawTree) : Except LoadError (Nat × Registry) := do
  let d ← Lexicon.load locale tree
  return (d.tokenCount, (r.install d).2)

/-- Drops the data of a locale, and says whether there was any. -/
def unload (r : Registry) (locale : String) : Bool × Registry :=
  ((r.locales.get? locale).isSome, { r with locales := r.locales.erase locale })

/-- Replaces the switches that calls start from. -/
def setSwitches (r : Registry) (switches : Switches) : Registry := { r with switches }

/-- The data of a locale, empty for one that has none. -/
def lexicon (r : Registry) (locale : String) : Lexicon :=
  (r.lexicon? locale).getD (.empty locale)

/-- The text with every pattern rendered by the data of a locale. -/
def interpolate (r : Registry) (text locale : String) (options : Options) :
    Except Fault String :=
  Inflection.interpolate text (r.lexicon locale) r.switches options

/-- The warnings about a text by the data of a locale. -/
def lint (r : Registry) (text locale : String) : List Warning :=
  Inflection.lint text (r.lexicon locale)

end Registry

end Inflection

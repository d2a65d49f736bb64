import Inflection.Pattern.Scan
import Inflection.Render.Complex
import Inflection.Render.Single

/-!
# Rendering a text

`interpolate` renders every pattern of a text.  With `raises` in force the first fault is the
answer; otherwise faults are passed over.
-/

namespace Inflection

namespace Setting

variable {m : Type → Type} [Monad m] [MonadFault m]

/-- Renders a pattern. -/
def renderPattern (c : Setting) (p : Pattern) : m String :=
  match p.target with
  | .loose => c.renderSingle p (.loose c.lexicon.loose)
  | .named kind =>
    if c.lexicon.strict.hasKind kind then c.renderSingle p (.strict c.lexicon.strict kind)
    else do
      note (.invalidKind p.source kind)
      pure p.freeText
  | .complex kinds => c.renderComplex p kinds
  | .invalid text => do
    note (.invalidKind p.source text)
    pure p.freeText

/-- Renders a segment. -/
def renderSegment (c : Setting) : Segment → m String
  | .literal text => pure text
  | .pattern p => c.renderPattern p

/-- Renders segments one after the other. -/
def renderSegments (c : Setting) (segments : List Segment) : m String :=
  String.join <$> segments.mapM c.renderSegment

end Setting

/-- The text with every pattern rendered, or the first fault if `raises` is in force. -/
def interpolate (text : String) (d : Lexicon) (switches : Switches) (options : Options) :
    Except Fault String :=
  if mark ∈ text.toList then
    let c : Setting := ⟨d, options, switches.merged options.overrides⟩
    if c.switches.raises then c.renderSegments (scan text)
    else .ok (c.renderSegments (scan text) : Report String).value
  else .ok text

end Inflection

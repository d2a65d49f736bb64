import Inflection.Pattern.Body
import Inflection.Pattern.Piece

/-!
# Scanning

`scan` turns a text into segments: a raw pattern gives one pattern for each of its bodies, an
escaped one gives its own text without the escape, and literal text that stands together is one
segment.
-/

namespace Inflection

/-- The patterns of a raw pattern, one for each body. -/
def RawPattern.patterns (raw : RawPattern) : List Pattern :=
  raw.bodies.map (Pattern.ofBody raw.kinds)

namespace Segment

/-- Puts literal text before some segments. -/
def prependLiteral : List Char → List Segment → List Segment
  | [], segments => segments
  | cs, segments => literal (String.ofList cs) :: segments

/-- The literal text that some pieces begin with, and the segments after it. -/
def assemble : List Piece → List Char × List Segment
  | [] => ([], [])
  | .char c :: pieces =>
    let (lead, segments) := assemble pieces
    (c :: lead, segments)
  | .escaped _ raw :: pieces =>
    let (lead, segments) := assemble pieces
    (raw.text ++ lead, segments)
  | .pattern raw :: pieces =>
    let (lead, segments) := assemble pieces
    ([], raw.patterns.map pattern ++ prependLiteral lead segments)

/-- The segments that some pieces give. -/
def ofPieces (pieces : List Piece) : List Segment :=
  let (lead, segments) := assemble pieces
  prependLiteral lead segments

end Segment

/-- Divides a text into literals and patterns. -/
def scan (text : String) : List Segment := Segment.ofPieces (Piece.cut text.toList)

/-- The patterns of a text in order. -/
def patterns (text : String) : List Pattern := (scan text).filterMap Segment.pattern?

end Inflection

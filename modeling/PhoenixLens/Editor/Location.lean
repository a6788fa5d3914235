import PhoenixLens.Json.Decode
import PhoenixLens.Text.Position
import PhoenixLens.Uri

/-!
# Places in documents

Positions, ranges and locations as editors write them.
-/

namespace PhoenixLens

namespace Text

def Position.encode (position : Position) : Json :=
  .obj [("line", .nat position.line), ("character", .nat position.character)]

def Position.decode : Json → Option Position := Json.decodeRecord do
  return {
    line := ← Json.required "line" (Json.decodeNat UInt32.size)
    character := ← Json.required "character" (Json.decodeNat UInt32.size) }

def Range.encode (range : Range) : Json :=
  .obj [("start", range.start.encode), ("end", range.stop.encode)]

end Text

/-- A stretch of a document. -/
structure Location where
  uri : Uri
  range : Text.Range

namespace Location

/-- The beginning of a line of a file; a file whose path is not absolute has no location. -/
def ofLine? (file : Path) (line : Nat) : Option Location :=
  (Uri.ofPath? file).map fun uri => { uri, range := Text.rangeOfLine line }

def encode (location : Location) : Json :=
  .obj [("uri", .str location.uri.text), ("range", location.range.encode)]

end Location

end PhoenixLens

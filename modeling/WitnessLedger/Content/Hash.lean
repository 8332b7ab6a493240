import WitnessLedger.Document.Content
import WitnessLedger.Json.Canonical
import WitnessLedger.Digest.Tagged

/-! # Hash of content

Content is hashed by the canonical text of its document, so that the hash depends on what the
content says and not on the order of its fields. -/

namespace WitnessLedger

/-- The hash of the canonical text of a value, under the tag of contents. -/
def Json.contentHash (v : Json) : Digest := Digest.tagged Digest.contentTag (Text.bytes v.canonical)

/-- The canonical text of content. -/
def Content.canonical (c : Content) : String := (Document.toJson c).canonical

/-- The hash of content. -/
def Content.hash (c : Content) : Digest := (Document.toJson c).contentHash

end WitnessLedger

import ContentServer.Bytes
import ContentServer.Http.Coding

/-!
# Codecs

A codec encodes and decodes bodies in one content coding.  Encoding may fail.  Whatever it makes
is decoded to what went in.  That law is part of a codec, so everything above it can rely on it.
-/

namespace ContentServer

/-- A way to write bytes in another form and to read them back. -/
structure Codec where
  /-- The encoded bytes, unless the encoder fails. -/
  encode : Bytes → Option Bytes
  /-- The bytes that an encoded form stands for. -/
  decode : Bytes → Option Bytes
  /-- What is encoded is decoded again. -/
  decode_encode : ∀ {b e : Bytes}, encode b = some e → decode e = some b

/-- A codec for each coding. -/
abbrev Codecs := Coding → Codec

/-- The codec that always fails to encode. -/
def Codec.failing : Codec where
  encode _ := none
  decode _ := none
  decode_encode h := by cases h

end ContentServer

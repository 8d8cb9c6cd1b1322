/-!
# Bytes and their text

What arrives and leaves on a connection are bytes, and so are the contents of files.  A text is
sent as its UTF-8 bytes, and bytes are read as a text only if they are well-formed UTF-8.

`text?_eq_some_iff` says that reading undoes writing and accepts nothing else.
-/

namespace ContentServer

/-- A sequence of bytes. -/
abbrev Bytes := List UInt8

namespace Bytes

/-- The UTF-8 bytes of a text. -/
def ofText (s : String) : Bytes := s.toUTF8.data.toList

/-- The text that the bytes spell in UTF-8. -/
def text? (b : Bytes) : Option String := String.fromUTF8? b.toByteArray

/-- Reading as text accepts exactly what writing a text produces. -/
theorem text?_eq_some_iff {b : Bytes} {s : String} : text? b = some s ↔ b = ofText s := by
  unfold text? String.fromUTF8? ofText
  rw [String.toUTF8_eq_toByteArray]
  constructor
  · intro h
    split at h
    · rw [Option.some.injEq] at h
      subst h
      exact (List.toList_data_toByteArray).symm
    · cases h
  · rintro rfl
    have hb : s.toByteArray.data.toList.toByteArray = s.toByteArray :=
      ByteArray.ext (by rw [List.data_toByteArray, Array.toArray_toList])
    simp only [hb, dif_pos s.isValidUTF8]
    rfl

/-- A text is read back from its bytes. -/
theorem text?_ofText (s : String) : text? (ofText s) = some s := text?_eq_some_iff.mpr rfl

/-- Texts written one after the other are written as one text. -/
theorem ofText_append (s t : String) : ofText (s ++ t) = ofText s ++ ofText t := by
  simp [ofText, String.toUTF8_eq_toByteArray]

/-- The bytes of a text are those of its characters, one after the other. -/
theorem ofText_ofList (cs : List Char) :
    ofText (String.ofList cs) = cs.flatMap String.utf8EncodeChar := by
  rw [ofText, String.toUTF8_eq_toByteArray, String.toByteArray_ofList, List.utf8Encode,
    List.toList_data_toByteArray]

example : ofText "aé" = [97, 195, 169] := by decide

end Bytes

end ContentServer

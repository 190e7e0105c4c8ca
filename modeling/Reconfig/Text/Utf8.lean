/-
Text as bytes: every text has one encoding, and reading it back gives the text.
-/
namespace Reconfig
namespace Text

def utf8 (s : String) : List UInt8 := s.toByteArray.data.toList

/-- Refuses bytes that encode no text. -/
def ofUtf8? (bytes : List UInt8) : Option String := String.fromUTF8? ⟨bytes.toArray⟩

@[simp] theorem ofUtf8?_utf8 (s : String) : ofUtf8? (utf8 s) = some s := by
  simp only [ofUtf8?, utf8, String.fromUTF8?, Array.toArray_toList]
  exact dif_pos s.isValidUTF8

theorem utf8_injective {s t : String} (h : utf8 s = utf8 t) : s = t := by
  have := congrArg ofUtf8? h
  simpa using this

end Text
end Reconfig

/-
  TokenTrust.Text.Bytes — a text as the bytes of its UTF-8 form.
-/

namespace TokenTrust.Text

def bytes (s : String) : List UInt8 := s.toByteArray.data.toList

/-- The text that the bytes are the form of, if they are well formed. -/
def ofBytes? (bytes : List UInt8) : Option String := String.fromUTF8? ⟨bytes.toArray⟩

end TokenTrust.Text

/-!
Reading bytes as UTF-8. Bytes that encode no text are refused as a whole:
overlong forms, surrogates, and code points past the last one are no encodings.
-/

namespace ScriptLexer.Text

def decodeUtf8? (bytes : List UInt8) : Option String :=
  String.fromUTF8? ⟨bytes.toArray⟩

end ScriptLexer.Text

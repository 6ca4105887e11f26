import JsonTemplate.Error

set_option autoImplicit false

/-!
# Documents

What is handed in as a document: a text, octets, or something that is neither.
-/

namespace JsonTemplate

inductive Document where
  | text (characters : Text)
  | octets (content : List UInt8)
  | other (typeName : Text)
deriving Repr

/-- Read a document; `source` labels it in messages. -/
def Document.read (source : Option Text) : Document → Except Failure Json
  | .text characters => (Json.readText characters).mapError (Json.Refusal.failure source)
  | .octets content => (Json.readOctets content).mapError (Json.Refusal.failure source)
  | .other typeName => .error (.reported (.argument (.notText source typeName)))

end JsonTemplate

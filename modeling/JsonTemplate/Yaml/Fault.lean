set_option autoImplicit false

/-!
# Why a YAML text has no value

A text that is no YAML is told apart from a scalar whose type is known but that has no
value of it, and from what is too large or too deep to be kept.
-/

namespace JsonTemplate.Yaml

inductive Fault where
  /-- The text is no YAML, or asks for a type that is not known. -/
  | malformed
  /-- A number, a date or a code point that does not exist. -/
  | badValue
  /-- A word that is no truth value. -/
  | notTruth
  /-- A number without any character. -/
  | emptyNumber
  /-- A scalar that is no timestamp. -/
  | notTimestamp
  /-- A mapping where a timestamp has to be. -/
  | notScalar
  /-- A number beyond the range of its format. -/
  | tooLarge
  /-- Collections too deep inside each other. -/
  | tooDeep
deriving DecidableEq, Repr

end JsonTemplate.Yaml

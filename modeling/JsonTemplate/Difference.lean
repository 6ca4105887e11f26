import JsonTemplate.Json.Printer
import JsonTemplate.Path
import JsonTemplate.Template

set_option autoImplicit false

/-!
# Differences

One way in which a document fails its template, and where.
-/

namespace JsonTemplate

inductive Mismatch where
  | value (expected actual : Json)
  | kind (expected actual : Json)
  | missing (expected : Json)
  | unexpected (actual : Json)
  | length (expected actual : Nat)
deriving Repr

structure Difference where
  path : Path
  mismatch : Mismatch
deriving Repr

namespace Mismatch

def word : Mismatch → Text
  | .value _ _ => lit "VALUE_MISMATCH"
  | .kind _ _ => lit "TYPE_MISMATCH"
  | .missing _ => lit "MISSING_PROPERTY"
  | .unexpected _ => lit "UNEXPECTED_PROPERTY"
  | .length _ _ => lit "ARRAY_LENGTH_MISMATCH"

def expectedText? : Mismatch → Option Text
  | .value expected _ => some (Json.render expected)
  | .kind expected _ => some (Json.render expected)
  | .missing expected => some (Json.render expected)
  | .unexpected _ => none
  | .length expected _ => some (Numeral.ofNat expected)

def actualText? : Mismatch → Option Text
  | .value _ actual => some (Json.render actual)
  | .kind _ actual => some (Json.render actual)
  | .missing _ => none
  | .unexpected actual => some (Json.render actual)
  | .length _ actual => some (Numeral.ofNat actual)

/-- The sentence about a mismatch; `property` is the last step of its path. -/
def sentence (property : Text) : Mismatch → Text
  | .value expected actual =>
      lit "Value mismatch. Expected " ++ Json.render expected ++ lit ", got " ++
        Json.render actual ++ lit "."
  | .kind expected actual =>
      lit "Type mismatch. Expected " ++ expected.kind.name ++ lit ", got " ++
        actual.kind.name ++ lit "."
  | .missing _ => lit "Missing property '" ++ property ++ lit "'."
  | .unexpected _ =>
      lit "Unexpected property '" ++ property ++ lit "' found in actual JSON."
  | .length expected actual =>
      lit "Array length mismatch. Expected " ++ Numeral.ofNat expected ++ lit ", got " ++
        Numeral.ofNat actual ++ lit "."

end Mismatch

def Difference.message (difference : Difference) : Text :=
  let property := (difference.path.getLast?.map Segment.name).getD []
  Path.render difference.path ++ lit ": " ++ difference.mismatch.sentence property

end JsonTemplate

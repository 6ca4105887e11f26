import JsonTemplate.Bindings
import JsonTemplate.Difference

set_option autoImplicit false

/-!
# Comparing a document with a template

`findings` says what a comparison reports, by recursion on the template. A comparison
folds them into differences and captures.
-/

namespace JsonTemplate

/-- Whether the actual document may have members that the template does not. -/
inductive Mode where
  | exact
  | subset
deriving DecidableEq, Repr

def Mode.word : Mode → Text
  | .exact => lit "exact"
  | .subset => lit "subset"

/-- Which value of a name captured more than once is kept. -/
inductive CapturePolicy where
  | last
  | first
deriving DecidableEq, Repr

def CapturePolicy.word : CapturePolicy → Text
  | .last => lit "last"
  | .first => lit "first"

inductive Finding where
  | difference (difference : Difference)
  | capture (name : Text) (value : Json)
deriving Repr

namespace Comparison

def differs (path : Path) (mismatch : Mismatch) : List Finding :=
  [.difference ⟨path, mismatch⟩]

def unexpectedMembers (expected : List (Text × Template)) (actual : List (Text × Json)) :
    List (Text × Json) :=
  actual.filter fun (key, _) => (expected.lookup key).isNone

def unexpectedFindings (mode : Mode) (path : Path) (expected : List (Text × Template))
    (actual : List (Text × Json)) : List Finding :=
  match mode with
  | .subset => []
  | .exact =>
      (unexpectedMembers expected actual).map fun (key, value) =>
        .difference ⟨path ++ [.key key], .unexpected value⟩

/-- The findings about two leaves. Texts, truth values and numbers are compared by
value; values of different kinds differ in kind. -/
def leafFindings (path : Path) (expected : Template) (actual : Json) : List Finding :=
  match expected, actual with
  | .null, .null => []
  | .boolean wanted, .boolean found =>
      if wanted = found then [] else differs path (.value (.boolean wanted) (.boolean found))
  | .number wanted, .number found =>
      if wanted.sameValue found then [] else differs path (.value (.number wanted) (.number found))
  | .string wanted, .string found =>
      if wanted.text = found then []
      else differs path (.value (.string wanted.text) (.string found))
  | expected, actual => differs path (.kind expected.toJson actual)

mutual

/-- The findings below a place, in document order. A capture takes any value and looks
no further; a call that was not resolved stands for its own text. -/
def findings (mode : Mode) (path : Path) : Template → Json → List Finding
  | .string (.capture name), actual => [.capture name actual]
  | .array expected, .array actual =>
      if expected.length = actual.length then itemFindings mode path 0 expected actual
      else differs path (.length expected.length actual.length)
  | .object expected, .object actual =>
      memberFindings mode path actual expected ++ unexpectedFindings mode path expected actual
  | expected, actual => leafFindings path expected actual

/-- The findings about items from a position on; only as many as both arrays have. -/
def itemFindings (mode : Mode) (path : Path) : Nat → List Template → List Json → List Finding
  | position, expected :: others, actual :: rest =>
      findings mode (path ++ [.index position]) expected actual ++
        itemFindings mode path (position + 1) others rest
  | _, _, _ => []

def memberFindings (mode : Mode) (path : Path) (actual : List (Text × Json)) :
    List (Text × Template) → List Finding
  | [] => []
  | (key, expected) :: rest =>
      (match actual.lookup key with
        | none => differs (path ++ [.key key]) (.missing expected.toJson)
        | some found => findings mode (path ++ [.key key]) expected found) ++
        memberFindings mode path actual rest

end

end Comparison

structure Comparison where
  differences : List Difference
  captures : Bindings Json
deriving Repr

namespace Comparison

def empty : Comparison := ⟨[], []⟩

/-- Record a capture. Under the first policy a bound name keeps its value; under the
last one it takes the new value and keeps its place. -/
def capture (policy : CapturePolicy) (name : Text) (value : Json) (captures : Bindings Json) :
    Bindings Json :=
  match policy, captures.get? name with
  | .first, some _ => captures
  | _, _ => Bindings.set name value captures

def record (policy : CapturePolicy) (comparison : Comparison) : Finding → Comparison
  | .difference difference =>
      { comparison with differences := comparison.differences ++ [difference] }
  | .capture name value =>
      { comparison with captures := capture policy name value comparison.captures }

def recordAll (policy : CapturePolicy) (comparison : Comparison) (findings : List Finding) :
    Comparison :=
  findings.foldl (record policy) comparison

end Comparison

end JsonTemplate

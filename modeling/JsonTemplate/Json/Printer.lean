import JsonTemplate.Tree
import JsonTemplate.Decimal.Notation

set_option autoImplicit false

/-!
# Writing documents

The compact text of a document. Characters outside ASCII are written as they are.
-/

namespace JsonTemplate.Json

def escapePoint (point : CodePoint) : Text :=
  if point = .scalar '"' then lit "\\\""
  else if point = .scalar '\\' then lit "\\\\"
  else if point = .scalar '\n' then lit "\\n"
  else if point = .scalar '\r' then lit "\\r"
  else if point = .scalar '\t' then lit "\\t"
  else if point.value = 0x0C then lit "\\f"
  else if point.value = 0x08 then lit "\\b"
  else if point.value < 0x20 then lit "\\u" ++ Numeral.hex 4 point.value
  else [point]

def escape (text : Text) : Text :=
  text.flatMap escapePoint

def quote (text : Text) : Text :=
  .scalar '"' :: escape text ++ [.scalar '"']

/-! ## Values

The parts of a text are written one after the other. What is still to be written stands on a
stack, so that a document of any depth is written without a stack of calls.
-/

/-- What is still to be written: a text as it is, or a value. -/
inductive Pending where
  | text (content : Text)
  | value (json : Json)

namespace Pending

def ofItem (item : Json) (position : Nat) : List Pending :=
  (if position = 0 then [] else [.text (lit ",")]) ++ [.value item]

def ofItems (items : List Json) : List Pending :=
  .text (lit "[") :: (items.zipIdx.flatMap fun entry => ofItem entry.1 entry.2) ++ [.text (lit "]")]

def ofMember (member : Text × Json) (position : Nat) : List Pending :=
  let before := if position = 0 then [] else lit ","
  [.text (before ++ quote member.1 ++ lit ":"), .value member.2]

def ofMembers (members : List (Text × Json)) : List Pending :=
  .text (lit "\x7b") :: (members.zipIdx.flatMap fun entry => ofMember entry.1 entry.2) ++
    [.text (lit "\x7d")]

def weight : List Pending → Nat
  | [] => 0
  | .text _ :: rest => weight rest
  | .value json :: rest => json.size + weight rest

theorem weight_append (left right : List Pending) :
    weight (left ++ right) = weight left + weight right := by
  induction left with
  | nil => simp [weight]
  | cons pending rest ih => cases pending <;> simp [weight, ih, Nat.add_assoc]

private theorem weight_ofItems (items : List Json) :
    weight (ofItems items) = Tree.sizeItems items := by
  have each : ∀ start, weight ((items.zipIdx start).flatMap fun entry =>
      ofItem entry.1 entry.2) = Tree.sizeItems items := by
    induction items with
    | nil => intro start; rfl
    | cons item rest ih =>
        intro start
        have here : weight (ofItem item start) = item.size := by
          unfold ofItem
          split <;> simp [weight]
        rw [List.zipIdx_cons, List.flatMap_cons, weight_append, ih, here, Tree.sizeItems]
  simp [ofItems, weight, weight_append, each]

private theorem weight_ofMembers (members : List (Text × Json)) :
    weight (ofMembers members) = Tree.sizeMembers members := by
  have each : ∀ start, weight ((members.zipIdx start).flatMap fun entry =>
      ofMember entry.1 entry.2) = Tree.sizeMembers members := by
    induction members with
    | nil => intro start; rfl
    | cons member rest ih =>
        intro start
        have here : weight (ofMember member start) = member.2.size := by simp [ofMember, weight]
        rw [List.zipIdx_cons, List.flatMap_cons, weight_append, ih, here, Tree.sizeMembers]
  simp [ofMembers, weight, weight_append, each]

end Pending

/-- Write what stands on the stack behind the parts that are written. -/
def emit (parts : Array Text) : List Pending → Array Text
  | [] => parts
  | .text content :: rest => emit (parts.push content) rest
  | .value .null :: rest => emit (parts.push (lit "null")) rest
  | .value (.boolean value) :: rest =>
      emit (parts.push (if value then lit "true" else lit "false")) rest
  | .value (.number value) :: rest => emit (parts.push value.render) rest
  | .value (.string text) :: rest => emit (parts.push (quote text)) rest
  | .value (.array items) :: rest => emit parts (pushAll rest (Pending.ofItems items).reverse)
  | .value (.object members) :: rest =>
      emit parts (pushAll rest (Pending.ofMembers members).reverse)
termination_by stack => (Pending.weight stack, stack.length)
decreasing_by
  · exact Prod.Lex.right _ (Nat.lt_succ_self _)
  all_goals
    refine Prod.Lex.left _ _ ?_
    simp only [pushAll_reverse, Pending.weight, Pending.weight_append, Pending.weight_ofItems,
      Pending.weight_ofMembers, Tree.size]
    omega

def render (value : Json) : Text :=
  (emit #[] [.value value]).toList.flatten

end JsonTemplate.Json

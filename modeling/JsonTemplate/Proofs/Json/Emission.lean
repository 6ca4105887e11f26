import JsonTemplate.Json.Printer

set_option autoImplicit false

/-!
# Writing from a stack

What is written from a stack is what the entries stand for, one behind the other. For a single
value it is the text that a recursion over the value gives.
-/

namespace JsonTemplate.Json

def listed (close : CodePoint) : List Text → Text
  | [] => [close]
  | [last] => last ++ [close]
  | first :: second :: rest => first ++ .scalar ',' :: listed close (second :: rest)

mutual

/-- The compact text of a document by recursion. -/
def compact : Json → Text
  | .null => lit "null"
  | .boolean value => if value then lit "true" else lit "false"
  | .number value => value.render
  | .string text => quote text
  | .array items => .scalar '[' :: listed (.scalar ']') (compactItems items)
  | .object members => .scalar '\x7b' :: listed (.scalar '\x7d') (compactMembers members)

def compactItems : List Json → List Text
  | [] => []
  | item :: rest => compact item :: compactItems rest

def compactMembers : List (Text × Json) → List Text
  | [] => []
  | (key, value) :: rest => (quote key ++ .scalar ':' :: compact value) :: compactMembers rest

end

namespace Pending

/-- The text that an entry of the stack stands for. -/
def compact : Pending → Text
  | .text content => content
  | .value json => json.compact

end Pending

private theorem listed_cons (close : CodePoint) (first : Text) (rest : List Text) :
    listed close (first :: rest) = first ++ (rest.flatMap (.scalar ',' :: ·) ++ [close]) := by
  induction rest generalizing first with
  | nil => rfl
  | cons second rest ih => simp [listed, ih]

private theorem compact_later_items (items : List Json) (start : Nat) :
    ((items.zipIdx (start + 1)).flatMap fun entry =>
      Pending.ofItem entry.1 entry.2).flatMap Pending.compact =
        (compactItems items).flatMap (.scalar ',' :: ·) := by
  induction items generalizing start with
  | nil => rfl
  | cons item rest ih =>
      rw [List.zipIdx_cons, List.flatMap_cons, List.flatMap_append, ih, compactItems]
      simp [Pending.ofItem, Pending.compact, lit]

private theorem compact_ofItems (items : List Json) :
    (Pending.ofItems items).flatMap Pending.compact = compact (.array items) := by
  cases items with
  | nil => rfl
  | cons item rest =>
      have later := compact_later_items rest 0
      simp only [Pending.ofItems, List.zipIdx_cons, List.flatMap_cons, List.cons_append,
        List.flatMap_append, later, compact, compactItems, listed_cons]
      simp [Pending.ofItem, Pending.compact, lit]

private theorem compact_later_members (members : List (Text × Json)) (start : Nat) :
    ((members.zipIdx (start + 1)).flatMap fun entry =>
      Pending.ofMember entry.1 entry.2).flatMap Pending.compact =
        (compactMembers members).flatMap (.scalar ',' :: ·) := by
  induction members generalizing start with
  | nil => rfl
  | cons member rest ih =>
      rw [List.zipIdx_cons, List.flatMap_cons, List.flatMap_append, ih, compactMembers]
      simp [Pending.ofMember, Pending.compact, lit]

private theorem compact_ofMembers (members : List (Text × Json)) :
    (Pending.ofMembers members).flatMap Pending.compact = compact (.object members) := by
  cases members with
  | nil => rfl
  | cons member rest =>
      have later := compact_later_members rest 0
      simp only [Pending.ofMembers, List.zipIdx_cons, List.flatMap_cons, List.cons_append,
        List.flatMap_append, later, compact, compactMembers, listed_cons]
      simp [Pending.ofMember, Pending.compact, lit]

/-- Behind the parts that are written come the texts of all entries, the front one first. -/
theorem emit_eq (parts : Array Text) (stack : List Pending) :
    (emit parts stack).toList.flatten =
      parts.toList.flatten ++ stack.flatMap Pending.compact := by
  fun_induction emit parts stack with
  | case1 => simp
  | case4 parts value rest ih => cases value <;> simpa [Pending.compact, compact] using ih
  | case7 parts items rest ih =>
      rw [ih, pushAll_reverse, List.flatMap_append, compact_ofItems]
      rfl
  | case8 parts members rest ih =>
      rw [ih, pushAll_reverse, List.flatMap_append, compact_ofMembers]
      rfl
  | _ => simp [*, Pending.compact, compact]

private theorem render_eq_compact (value : Json) : render value = compact value := by
  simp [render, emit_eq, Pending.compact]

/-! ## The text of a value from those inside it -/

def renderMember (member : Text × Json) : Text :=
  quote member.1 ++ .scalar ':' :: render member.2

theorem render_null : render .null = lit "null" := render_eq_compact _

theorem render_boolean (value : Bool) :
    render (.boolean value) = if value then lit "true" else lit "false" := render_eq_compact _

theorem render_number (value : Number) : render (.number value) = value.render :=
  render_eq_compact _

theorem render_string (text : Text) : render (.string text) = quote text := render_eq_compact _

theorem render_array (items : List Json) :
    render (.array items) = .scalar '[' :: listed (.scalar ']') (items.map render) := by
  have each : compactItems items = items.map render := by
    induction items with
    | nil => rfl
    | cons item rest ih => simp [compactItems, ih, render_eq_compact]
  rw [render_eq_compact, compact, each]

theorem render_object (members : List (Text × Json)) :
    render (.object members) =
      .scalar '\x7b' :: listed (.scalar '\x7d') (members.map renderMember) := by
  have each : compactMembers members = members.map renderMember := by
    induction members with
    | nil => rfl
    | cons member rest ih => simp [compactMembers, ih, renderMember, render_eq_compact]
  rw [render_eq_compact, compact, each]

end JsonTemplate.Json

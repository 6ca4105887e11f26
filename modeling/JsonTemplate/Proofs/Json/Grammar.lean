import JsonTemplate.Json.Reader

set_option autoImplicit false

/-!
# The grammar of documents

Which texts spell which values, rule by rule. Numbers outside `admitted` are left out,
and `Spells` counts the arrays and objects that may stand around each other. White space
stands around the parts of arrays and objects and around a whole document.
-/

namespace JsonTemplate.Json

def Blank (text : Text) : Prop :=
  ∀ point ∈ text, isSpace point = true

/-! ## Strings -/

inductive PieceText : Text → Piece → Prop where
  | plain {point : CodePoint} :
      point ≠ .scalar '"' → point ≠ .scalar '\\' → 0x20 ≤ point.value →
      PieceText [point] (.plain point)
  | letter {letter meant : CodePoint} :
      escapeLetter? letter = some meant → PieceText [.scalar '\\', letter] (.plain meant)
  | unit {first second third fourth unit : CodePoint} :
      codeUnit? first second third fourth = some unit →
      PieceText [.scalar '\\', .scalar 'u', first, second, third, fourth] (.unit unit)

inductive StringBody : Text → List Piece → Prop where
  | nil : StringBody [] []
  | cons {text body : Text} {piece : Piece} {pieces : List Piece} :
      PieceText text piece → StringBody body pieces → StringBody (text ++ body) (piece :: pieces)

inductive StringLiteral : Text → Text → Prop where
  | quoted {body : Text} {pieces : List Piece} :
      StringBody body pieces →
      StringLiteral (.scalar '"' :: (body ++ [.scalar '"'])) (joinPairs pieces)

/-! ## Numbers -/

def Digits (text : Text) : Prop :=
  text ≠ [] ∧ ∀ point ∈ text, point.isDigit = true

def WholePart (text : Text) : Prop :=
  text = [.scalar '0'] ∨ Digits text ∧ text.head? ≠ some (.scalar '0')

inductive FractionPart : Text → Text → Prop where
  | none : FractionPart [] []
  | point {digits : Text} : Digits digits → FractionPart (.scalar '.' :: digits) digits

inductive SignPart : Text → Bool → Prop where
  | none : SignPart [] false
  | plus : SignPart [.scalar '+'] false
  | minus : SignPart [.scalar '-'] true

def signed (negative : Bool) (digits : Text) : Int :=
  if negative then -(Numeral.value digits : Int) else Numeral.value digits

inductive ExponentPart : Text → Option Int → Prop where
  | none : ExponentPart [] none
  | power {letter : CodePoint} {sign digits : Text} {negative : Bool} :
      letter = .scalar 'e' ∨ letter = .scalar 'E' → SignPart sign negative → Digits digits →
      ExponentPart (letter :: (sign ++ digits)) (some (signed negative digits))

inductive NumberLiteral : Text → Number → Prop where
  | parts {negative : Bool} {whole fractionText fraction exponentText : Text}
      {exponent : Option Int} :
      WholePart whole → FractionPart fractionText fraction → ExponentPart exponentText exponent →
      NumberLiteral
        ((if negative then [.scalar '-'] else []) ++ (whole ++ (fractionText ++ exponentText)))
        (numberOf negative whole fraction exponent)

/-! ## Values -/

inductive Scalar (admitted : Number → Prop) : Text → Json → Prop where
  | null : Scalar admitted (lit "null") .null
  | true : Scalar admitted (lit "true") (.boolean true)
  | false : Scalar admitted (lit "false") (.boolean false)
  | number {text : Text} {value : Number} :
      NumberLiteral text value → admitted value → Scalar admitted text (.number value)
  | string {text value : Text} : StringLiteral text value → Scalar admitted text (.string value)

/-- Elements with commas between them, at least one, and the closing bracket. -/
inductive Series {α : Type} (element : Text → α → Prop) (close : CodePoint) :
    Text → List α → Prop where
  | last {before text after : Text} {value : α} :
      Blank before → element text value → Blank after →
      Series element close (before ++ (text ++ (after ++ [close]))) [value]
  | more {before text after rest : Text} {value : α} {values : List α} :
      Blank before → element text value → Blank after → Series element close rest values →
      Series element close (before ++ (text ++ (after ++ .scalar ',' :: rest))) (value :: values)

/-- The rest of an array or an object whose opening bracket has been read. -/
inductive Enclosed {α : Type} (element : Text → α → Prop) (close : CodePoint) :
    Text → List α → Prop where
  | none {gap : Text} : Blank gap → Enclosed element close (gap ++ [close]) []
  | some {text : Text} {values : List α} :
      Series element close text values → Enclosed element close text values

inductive MemberText (inner : Text → Json → Prop) : Text → Text × Json → Prop where
  | pair {key name gap space text : Text} {value : Json} :
      StringLiteral key name → Blank gap → Blank space → inner text value →
      MemberText inner (key ++ (gap ++ .scalar ':' :: (space ++ text))) (name, value)

/-- A scalar, or an array or object around values that `inner` describes. Of equal keys
the first place and the last value count. -/
inductive Layer (scalar inner : Text → Json → Prop) : Text → Json → Prop where
  | scalar {text : Text} {value : Json} : scalar text value → Layer scalar inner text value
  | array {text : Text} {items : List Json} :
      Enclosed inner (.scalar ']') text items →
      Layer scalar inner (.scalar '[' :: text) (.array items)
  | object {text : Text} {members : List (Text × Json)} :
      Enclosed (MemberText inner) (.scalar '\x7d') text members →
      Layer scalar inner (.scalar '\x7b' :: text) (.object (Bindings.ofList members))

/-- A text spells a value with at most `depth` arrays and objects around each other. -/
def Spells (admitted : Number → Prop) : Nat → Text → Json → Prop
  | 0 => Scalar admitted
  | depth + 1 => Layer (Scalar admitted) (Spells admitted depth)

def SpellsWhole (admitted : Number → Prop) (depth : Nat) (text : Text) (value : Json) : Prop :=
  ∃ before core after, text = before ++ (core ++ after) ∧
    Blank before ∧ Spells admitted depth core value ∧ Blank after

/-- The numbers that a reader keeps. -/
def Kept (number : Number) : Prop :=
  number.toDecimal.inRange = true

variable {admitted : Number → Prop}

theorem Scalar.spells {text : Text} {value : Json} (scalar : Scalar admitted text value)
    (depth : Nat) : Spells admitted depth text value := by
  cases depth with
  | zero => exact scalar
  | succ depth => exact .scalar scalar

theorem Blank.nil : Blank [] :=
  List.forall_mem_nil _

/-- A value without white space around it. -/
theorem Spells.whole {depth : Nat} {text : Text} {value : Json}
    (spelled : Spells admitted depth text value) : SpellsWhole admitted depth text value :=
  ⟨[], text, [], by simp, .nil, spelled, .nil⟩

theorem Blank.append {left right : Text} (first : Blank left) (second : Blank right) :
    Blank (left ++ right) := by
  intro point member
  rcases List.mem_append.mp member with before | after
  · exact first point before
  · exact second point after

theorem Blank.eq_nil {gap rest others : Text} {point : CodePoint} (blank : Blank gap)
    (solid : isSpace point = false) (same : gap ++ rest = point :: others) : gap = [] := by
  cases gap with
  | nil => rfl
  | cons space gap =>
      obtain ⟨rfl, _⟩ := List.cons.inj same
      rw [blank space List.mem_cons_self] at solid
      cases solid

theorem Series.pad {α : Type} {element : Text → α → Prop} {close : CodePoint} {text : Text}
    {values : List α} (series : Series element close text values) {gap : Text}
    (blank : Blank gap) : Series element close (gap ++ text) values := by
  cases series with
  | last before element after =>
      rw [← List.append_assoc]
      exact .last (blank.append before) element after
  | more before element after rest =>
      rw [← List.append_assoc]
      exact .more (blank.append before) element after rest

/-! ## More of what may stand inside -/

theorem Series.imp {α : Type} {element other : Text → α → Prop} {close : CodePoint} {text : Text}
    {values : List α} (series : Series element close text values)
    (implied : ∀ {text value}, element text value → other text value) :
    Series other close text values := by
  induction series with
  | last before element after => exact .last before (implied element) after
  | more before element after _ ih => exact .more before (implied element) after ih

theorem Enclosed.imp {α : Type} {element other : Text → α → Prop} {close : CodePoint} {text : Text}
    {values : List α} (enclosed : Enclosed element close text values)
    (implied : ∀ {text value}, element text value → other text value) :
    Enclosed other close text values := by
  cases enclosed with
  | none blank => exact .none blank
  | some series => exact .some (series.imp implied)

theorem MemberText.imp {inner other : Text → Json → Prop} {text : Text} {member : Text × Json}
    (spelled : MemberText inner text member)
    (implied : ∀ {text value}, inner text value → other text value) :
    MemberText other text member := by
  cases spelled with
  | pair literal gap space value => exact .pair literal gap space (implied value)

theorem Layer.imp {scalar other inner outer : Text → Json → Prop} {text : Text} {value : Json}
    (layer : Layer scalar inner text value)
    (scalars : ∀ {text value}, scalar text value → other text value)
    (implied : ∀ {text value}, inner text value → outer text value) :
    Layer other outer text value := by
  cases layer with
  | scalar spelled => exact .scalar (scalars spelled)
  | array items => exact .array (items.imp implied)
  | object members => exact .object (members.imp fun member => member.imp implied)

theorem Spells.succ {depth : Nat} {text : Text} {value : Json}
    (spelled : Spells admitted depth text value) : Spells admitted (depth + 1) text value := by
  induction depth generalizing text value with
  | zero => exact .scalar spelled
  | succ depth ih => exact Layer.imp spelled id ih

theorem Spells.mono {depth deeper : Nat} {text : Text} {value : Json}
    (spelled : Spells admitted depth text value) (fewer : depth ≤ deeper) :
    Spells admitted deeper text value := by
  induction fewer with
  | refl => exact spelled
  | step _ ih => exact ih.succ

/-! ## First positions -/

theorem ne_of_isDigit {point : CodePoint} {character : Char} (digit : point.isDigit = true)
    (other : character.isDigit = false) : point ≠ .scalar character := by
  rintro rfl
  rw [CodePoint.isDigit, other] at digit
  cases digit

theorem WholePart.digits {whole : Text} (part : WholePart whole) : Digits whole := by
  rcases part with rfl | ⟨digits, _⟩
  · exact ⟨nofun, by simp [CodePoint.isDigit]⟩
  · exact digits

theorem Digits.head {digits : Text} (all : Digits digits) :
    ∃ first rest, digits = first :: rest ∧ first.isDigit = true := by
  obtain ⟨first, rest, rfl⟩ := List.exists_cons_of_ne_nil all.1
  exact ⟨first, rest, rfl, all.2 first List.mem_cons_self⟩

/-- A number starts with a digit, or with a minus sign before a digit. -/
theorem NumberLiteral.head {text : Text} {value : Number} (literal : NumberLiteral text value) :
    ∃ first rest, text = first :: rest ∧
      (first.isDigit = true ∨ first = .scalar '-' ∧
        ∃ second others, rest = second :: others ∧ second.isDigit = true) := by
  cases literal with
  | @parts negative whole fractionText fraction exponentText exponent wholeSpelled =>
      obtain ⟨first, rest, rfl, digit⟩ := wholeSpelled.digits.head
      cases negative with
      | false => exact ⟨first, _, rfl, .inl digit⟩
      | true => exact ⟨.scalar '-', _, rfl, .inr ⟨rfl, first, _, rfl, digit⟩⟩

/-- No brace stands in a number. -/
theorem NumberLiteral.not_brace {text : Text} {value : Number}
    (literal : NumberLiteral text value) : ∀ point ∈ text, point ≠ .scalar '\x7b' := by
  have digits : ∀ {digits : Text}, Digits digits → ∀ point ∈ digits, point ≠ .scalar '\x7b' :=
    fun all point member => ne_of_isDigit (all.2 point member) (by decide)
  cases literal with
  | @parts negative whole fractionText fraction exponentText exponent wholeSpelled fractionSpelled
      exponentSpelled =>
      have sign : ∀ point ∈ (if negative then [CodePoint.scalar '-'] else []),
          point ≠ .scalar '\x7b' := by
        cases negative <;> decide
      have fractional : ∀ point ∈ fractionText, point ≠ .scalar '\x7b' := by
        cases fractionSpelled with
        | none => nofun
        | point all => exact List.forall_mem_cons.mpr ⟨by decide, digits all⟩
      have power : ∀ point ∈ exponentText, point ≠ .scalar '\x7b' := by
        cases exponentSpelled with
        | none => nofun
        | power letter signSpelled all =>
            refine List.forall_mem_cons.mpr ⟨?_, List.forall_mem_append.mpr ⟨?_, digits all⟩⟩
            · rcases letter with rfl | rfl <;> decide
            · cases signSpelled <;> decide
      simp only [List.forall_mem_append]
      exact ⟨sign, digits wholeSpelled.digits, fractional, power⟩

def Opens (point : CodePoint) : Prop :=
  isSpace point = false ∧ point ≠ .scalar ']' ∧ point ≠ .scalar '\x7d' ∧
    point ≠ .scalar '\uFEFF'
deriving Decidable

theorem opens_of_isDigit {point : CodePoint} (digit : point.isDigit = true) : Opens point := by
  refine ⟨?_, ne_of_isDigit digit (by decide), ne_of_isDigit digit (by decide),
    ne_of_isDigit digit (by decide)⟩
  simp only [isSpace, Bool.or_eq_false_iff, decide_eq_false_iff_not]
  exact ⟨⟨⟨ne_of_isDigit digit (by decide), ne_of_isDigit digit (by decide)⟩,
    ne_of_isDigit digit (by decide)⟩, ne_of_isDigit digit (by decide)⟩

theorem StringLiteral.head {text value : Text} (literal : StringLiteral text value) :
    ∃ rest, text = .scalar '"' :: rest := by
  cases literal
  exact ⟨_, rfl⟩

theorem Scalar.head {text : Text} {value : Json} (scalar : Scalar admitted text value) :
    ∃ first rest, text = first :: rest ∧ Opens first ∧
      first ≠ .scalar '[' ∧ first ≠ .scalar '\x7b' := by
  cases scalar with
  | null => exact ⟨.scalar 'n', _, rfl, by decide, by decide, by decide⟩
  | true => exact ⟨.scalar 't', _, rfl, by decide, by decide, by decide⟩
  | false => exact ⟨.scalar 'f', _, rfl, by decide, by decide, by decide⟩
  | number literal _ =>
      obtain ⟨first, rest, rfl, digit | ⟨rfl, _⟩⟩ := literal.head
      · exact ⟨first, rest, rfl, opens_of_isDigit digit, ne_of_isDigit digit (by decide),
          ne_of_isDigit digit (by decide)⟩
      · exact ⟨_, _, rfl, by decide, by decide, by decide⟩
  | string literal =>
      obtain ⟨rest, rfl⟩ := literal.head
      exact ⟨_, _, rfl, by decide, by decide, by decide⟩

theorem Spells.head {depth : Nat} {text : Text} {value : Json}
    (spelled : Spells admitted depth text value) :
    ∃ first rest, text = first :: rest ∧ Opens first := by
  cases depth with
  | zero =>
      obtain ⟨first, rest, split, opens, _⟩ := Scalar.head spelled
      exact ⟨first, rest, split, opens⟩
  | succ depth =>
      cases spelled with
      | scalar scalar =>
          obtain ⟨first, rest, split, opens, _⟩ := scalar.head
          exact ⟨first, rest, split, opens⟩
      | array => exact ⟨_, _, rfl, by decide⟩
      | object => exact ⟨_, _, rfl, by decide⟩

theorem MemberText.head {inner : Text → Json → Prop} {text : Text} {member : Text × Json}
    (spelled : MemberText inner text member) :
    ∃ first rest, text = first :: rest ∧ Opens first := by
  cases spelled with
  | pair literal =>
      obtain ⟨rest, rfl⟩ := literal.head
      exact ⟨_, _, rfl, by decide⟩

/-- White space in front of elements can be left out; then the first one opens them. -/
theorem Series.strip {α : Type} {element : Text → α → Prop} {close : CodePoint} {text : Text}
    {values : List α} (series : Series element close text values)
    (opens : ∀ {text value}, element text value →
      ∃ first rest, text = first :: rest ∧ Opens first) :
    ∃ gap first rest, text = gap ++ first :: rest ∧ Blank gap ∧ Opens first ∧
      Series element close (first :: rest) values := by
  cases series with
  | @last before core after value blank spelled blankAfter =>
      obtain ⟨first, rest, rfl, opening⟩ := opens spelled
      have series : Series element close ([] ++ (first :: rest ++ (after ++ [close]))) [value] :=
        .last nofun spelled blankAfter
      exact ⟨before, first, rest ++ (after ++ [close]), rfl, blank, opening, series⟩
  | @more before core after others value values blank spelled blankAfter listed =>
      obtain ⟨first, rest, rfl, opening⟩ := opens spelled
      have series : Series element close
          ([] ++ (first :: rest ++ (after ++ .scalar ',' :: others))) (value :: values) :=
        .more nofun spelled blankAfter listed
      exact ⟨before, first, rest ++ (after ++ .scalar ',' :: others), rfl, blank, opening, series⟩

end JsonTemplate.Json

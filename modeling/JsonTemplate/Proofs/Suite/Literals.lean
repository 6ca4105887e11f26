import JsonTemplate.Proofs.Json.Printer
import JsonTemplate.Proofs.Suite.Variables

set_option autoImplicit false

/-!
# Variables in string literals

A literal is legible when what variables are written with stands for itself in it. Then a variable
stands in the literal exactly where it stands in the text that the literal denotes, and inserting
the escaped content of strings into the literal gives a literal of the text with the strings
inserted.
-/

namespace JsonTemplate

/-- What variables are written with: braces and the parts of names. -/
def CodePoint.IsMark (point : CodePoint) : Prop :=
  point.isNamePart = true ∨ point = .scalar '\x7b' ∨ point = .scalar '\x7d'
deriving Decidable

namespace Json

/-- A piece is legible unless it is a code unit by number of what variables are written with, or of
a surrogate. -/
def Piece.Legible : Piece → Prop
  | .plain _ => True
  | .unit point => ¬ point.IsMark ∧ ∀ offset, point ≠ .surrogate offset

theorem Piece.Legible.single {piece : Piece} (legible : piece.Legible) : piece.Single := by
  cases piece with
  | plain point => trivial
  | unit point =>
      cases point with
      | scalar character => rfl
      | surrogate offset => exact absurd rfl (legible.2 offset)

/-- A literal in which braces and the parts of names are written as themselves, and without
surrogates by number. -/
inductive LegibleLiteral : Text → Text → Prop where
  | quoted {body : Text} {pieces : List Piece} :
      StringBody body pieces → (∀ piece ∈ pieces, piece.Legible) →
      LegibleLiteral (.scalar '"' :: (body ++ [.scalar '"'])) (joinPairs pieces)

theorem LegibleLiteral.literal {text value : Text} (legible : LegibleLiteral text value) :
    StringLiteral text value := by
  cases legible with
  | quoted body _ => exact .quoted body

theorem StringBody.append {first second : Text} {left right : List Piece}
    (start : StringBody first left) (further : StringBody second right) :
    StringBody (first ++ second) (left ++ right) := by
  induction start with
  | nil => exact further
  | cons piece _ ih =>
      rw [List.append_assoc]
      exact .cons piece ih

private theorem plain_of_isMark {point : CodePoint} (mark : point.IsMark) :
    PieceText [point] (.plain point) := by
  rcases mark with part | rfl | rfl
  · exact .plain (CodePoint.ne_of_isNamePart part (by decide))
      (CodePoint.ne_of_isNamePart part (by decide)) (CodePoint.printable_of_isNamePart part)
  · exact .plain (by decide) (by decide) (by decide)
  · exact .plain (by decide) (by decide) (by decide)

private theorem body_of_marks {marks : Text} (all : ∀ point ∈ marks, point.IsMark) :
    StringBody marks (marks.map .plain) :=
  body_of_plain fun point member => plain_of_isMark (all point member)

/-- A literal of nothing but what variables are written with. -/
theorem LegibleLiteral.of_marks {text marks : Text}
    (quoted : text = .scalar '"' :: (marks ++ [.scalar '"']))
    (all : ∀ point ∈ marks, point.IsMark) : LegibleLiteral text marks := by
  subst quoted
  have legible : ∀ piece ∈ marks.map Piece.plain, piece.Legible := by
    intro piece member
    obtain ⟨point, _, rfl⟩ := List.mem_map.mp member
    trivial
  have literal := LegibleLiteral.quoted (body_of_marks all) legible
  rwa [joinPairs_of_single (single_of_plain marks), point_of_plain] at literal

/-! ## Marks at the front of a literal -/

/-- Only a mark that stands for itself is read as a mark. -/
theorem text_of_isMark {text : Text} {piece : Piece} (spelled : PieceText text piece)
    (legible : piece.Legible) (mark : piece.point.IsMark) :
    text = [piece.point] ∧ piece = .plain piece.point := by
  cases spelled with
  | plain => exact ⟨rfl, rfl⟩
  | @letter letter meant escaped =>
      exfalso
      revert mark
      simp only [escapeLetter?] at escaped
      repeat' split at escaped
      all_goals cases escaped
      all_goals decide
  | unit => exact absurd mark legible.1

private theorem piece_of_isMark {text rest : Text} {piece : Piece} {point : CodePoint}
    (spelled : PieceText text piece) (mark : point.IsMark)
    (starts : ∃ after, text ++ rest = point :: after) :
    text = [point] ∧ piece = .plain point := by
  obtain ⟨after, same⟩ := starts
  cases spelled with
  | plain =>
      obtain ⟨rfl, _⟩ := List.cons.inj same
      exact ⟨rfl, rfl⟩
  | letter =>
      obtain ⟨rfl, _⟩ := List.cons.inj same
      exact absurd mark (by decide)
  | unit =>
      obtain ⟨rfl, _⟩ := List.cons.inj same
      exact absurd mark (by decide)

def BeginsWith (marks body : Text) (pieces : List Piece) : Prop :=
  ∃ after others, body = marks ++ after ∧ pieces = marks.map .plain ++ others ∧
    StringBody after others

theorem BeginsWith.cons {marks body : Text} {pieces : List Piece}
    (begins : BeginsWith marks body pieces) (mark : CodePoint) :
    BeginsWith (mark :: marks) ([mark] ++ body) (.plain mark :: pieces) := by
  obtain ⟨after, others, bodySplit, piecesSplit, spelled⟩ := begins
  refine ⟨after, others, ?_, ?_, spelled⟩
  · rw [bodySplit]
    rfl
  · rw [piecesSplit]
    rfl

private theorem beginsWith_of_denoted {marks rest body : Text} {pieces : List Piece}
    (spelled : StringBody body pieces) (legible : ∀ piece ∈ pieces, piece.Legible)
    (all : ∀ point ∈ marks, point.IsMark) (same : pieces.map Piece.point = marks ++ rest) :
    BeginsWith marks body pieces := by
  induction marks generalizing body pieces with
  | nil => exact ⟨body, pieces, rfl, rfl, spelled⟩
  | cons mark marks ih =>
      obtain ⟨here, others⟩ := List.forall_mem_cons.mp all
      cases spelled with
      | nil => cases same
      | @cons text body piece pieces first further =>
          obtain ⟨legibleHere, legibleOthers⟩ := List.forall_mem_cons.mp legible
          obtain ⟨pointed, tail⟩ := List.cons.inj same
          subst pointed
          obtain ⟨alone, plain⟩ := text_of_isMark first legibleHere here
          rw [alone, plain]
          exact (ih further legibleOthers others tail).cons _

private theorem beginsWith_of_written {marks rest tail body : Text} {pieces : List Piece}
    (spelled : StringBody body pieces) (all : ∀ point ∈ marks, point.IsMark)
    (same : body ++ .scalar '"' :: tail = marks ++ rest) : BeginsWith marks body pieces := by
  induction marks generalizing body pieces with
  | nil => exact ⟨body, pieces, rfl, rfl, spelled⟩
  | cons mark marks ih =>
      obtain ⟨here, others⟩ := List.forall_mem_cons.mp all
      cases spelled with
      | nil =>
          obtain ⟨rfl, _⟩ := List.cons.inj same
          exact absurd here (by decide)
      | @cons text body piece pieces first further =>
          rw [List.append_assoc] at same
          obtain ⟨rfl, rfl⟩ := piece_of_isMark first here ⟨_, same⟩
          obtain ⟨_, tail⟩ := List.cons.inj same
          exact (ih further others tail).cons mark

/-- The positions of a piece behind the first one open no variable. -/
theorem piece_tail {text : Text} {piece : Piece} (spelled : PieceText text piece) :
    ∃ first rest, text = first :: rest ∧ ∀ point ∈ rest, point ≠ .scalar '\x7b' := by
  cases spelled with
  | @plain point => exact ⟨point, [], rfl, nofun⟩
  | @letter letter meant escaped =>
      refine ⟨.scalar '\\', [letter], rfl, ?_⟩
      intro point member
      rw [List.mem_singleton.mp member]
      rintro rfl
      cases escaped
  | @unit first second third fourth unit hex =>
      refine ⟨.scalar '\\', [.scalar 'u', first, second, third, fourth], rfl, ?_⟩
      simp only [codeUnit?, Option.bind_eq_bind, Option.bind_eq_some_iff] at hex
      obtain ⟨_, firstHex, _, secondHex, _, thirdHex, _, fourthHex, _⟩ := hex
      have digit : ∀ {point : CodePoint} {value : Nat}, point.hexValue? = some value →
          point ≠ .scalar '\x7b' := by
        rintro _ _ hex rfl
        cases hex
      simp only [List.forall_mem_cons]
      exact ⟨by decide, digit firstHex, digit secondHex, digit thirdHex, digit fourthHex, nofun⟩

end Json

namespace Variables

open Json (Piece StringBody LegibleLiteral StringLiteral)
open Placeholder (isName)

private theorem marks_of_spelling {name : Text} (named : isName name = true) :
    ∀ point ∈ spelling name, point.IsMark := by
  intro point member
  simp only [spelling, List.mem_append, or_assoc] at member
  rcases member with opening | inName | closing
  · exact (by decide : ∀ point ∈ lit "\x7b\x7b", point.IsMark) point opening
  · exact .inl ((Placeholder.isName_iff.mp named).2 point inName)
  · exact (by decide : ∀ point ∈ lit "\x7d\x7d", point.IsMark) point closing

def content (bound : Bindings Json) (name : Text) : Text :=
  match bound.get? name with
  | some (.string text) => text
  | _ => spelling name

def fill (bound : Bindings Json) (text : Text) : Text :=
  replace (content bound) text

def StringsIn (bound : Bindings Json) (text : Text) : Prop :=
  ∀ name value, Mentions text name → bound.get? name = some value →
    ∃ content, value = .string content

/-- Inserting values into the content of a literal gives the content of a literal of the filled
text, whatever stands behind the closing quote. -/
def Fills (bound : Bindings Json) (body : Text) (pieces : List Piece) : Prop :=
  ∃ out read, StringBody out read ∧ (∀ piece ∈ read, piece.Single) ∧
    read.map Piece.point = fill bound (pieces.map Piece.point) ∧
    ∀ tail, replace (inserting bound) (body ++ .scalar '"' :: tail) =
      out ++ replace (inserting bound) (.scalar '"' :: tail)

/-- What is inserted for a variable in a literal spells what is inserted in the text. -/
theorem inserting_spelled {bound : Bindings Json} {name : Text} (named : isName name = true)
    (string : ∀ value, bound.get? name = some value → ∃ content, value = .string content) :
    ∃ read, StringBody (inserting bound name) read ∧ (∀ piece ∈ read, piece.Single) ∧
      read.map Piece.point = content bound name := by
  cases found : bound.get? name with
  | none =>
      rw [inserting, content, found]
      exact ⟨_, Json.body_of_marks (marks_of_spelling named), Json.single_of_plain _,
        Json.point_of_plain _⟩
  | some value =>
      obtain ⟨text, rfl⟩ := string value found
      rw [inserting, content, found]
      obtain ⟨read, body, same, single⟩ := Json.escape_pieces text
      exact ⟨read, body, single, same⟩

private theorem fills_variable {bound : Bindings Json} {name body : Text} {pieces : List Piece}
    (named : isName name = true)
    (string : ∀ value, bound.get? name = some value → ∃ content, value = .string content)
    (further : Fills bound body pieces) :
    Fills bound (spelling name ++ body) ((spelling name).map .plain ++ pieces) := by
  obtain ⟨inserted, spelled, single, pointed⟩ := inserting_spelled named string
  obtain ⟨out, read, body, singles, filled, becomes⟩ := further
  refine ⟨inserting bound name ++ out, inserted ++ read, spelled.append body, ?_, ?_, ?_⟩
  · exact List.forall_mem_append.mpr ⟨single, singles⟩
  · rw [List.map_append, List.map_append, Json.point_of_plain, fill, replace_variable named, ← fill,
      filled, pointed]
  · intro tail
    rw [List.append_assoc, replace_variable named, becomes, List.append_assoc]

private theorem fills_piece {bound : Bindings Json} {text body : Text} {piece : Piece}
    {pieces : List Piece}
    (spelled : Json.PieceText text piece) (following : StringBody body pieces)
    (single : piece.Single)
    (plain : ∀ name after, isName name = true →
      (piece :: pieces).map Piece.point ≠ spelling name ++ after)
    (further : Fills bound body pieces) : Fills bound (text ++ body) (piece :: pieces) := by
  obtain ⟨out, read, spelledOut, singles, filled, becomes⟩ := further
  refine ⟨text ++ out, piece :: read, .cons spelled spelledOut, ?_, ?_, ?_⟩
  · exact List.forall_mem_cons.mpr ⟨single, singles⟩
  · rw [List.map_cons, List.map_cons, fill, replace_point plain, ← fill, filled]
  · intro tail
    obtain ⟨first, rest, rfl, tailPlain⟩ := Json.piece_tail spelled
    have whole : StringBody (first :: rest ++ body) (piece :: pieces) := .cons spelled following
    -- A variable at the front of the literal would stand at the front of the text.
    have copied : ∀ name after, isName name = true →
        first :: (rest ++ (body ++ .scalar '"' :: tail)) ≠ spelling name ++ after := by
      intro name after named same
      have written : first :: rest ++ body ++ .scalar '"' :: tail = spelling name ++ after := by
        rw [List.append_assoc]
        exact same
      obtain ⟨_, others, _, split, _⟩ :=
        Json.beginsWith_of_written whole (marks_of_spelling named) written
      refine plain name (others.map Piece.point) named ?_
      rw [split, List.map_append, Json.point_of_plain]
    rw [List.append_assoc, List.cons_append, replace_point copied, Becomes.points tailPlain,
      becomes]
    simp only [List.cons_append, List.append_assoc]

private theorem fills_body {bound : Bindings Json} {body : Text} {pieces : List Piece}
    (spelled : StringBody body pieces) (legible : ∀ piece ∈ pieces, piece.Legible)
    (strings : StringsIn bound (pieces.map Piece.point)) : Fills bound body pieces := by
  -- A variable takes up several pieces, so the induction is along the text that they denote.
  generalize denoted : pieces.map Piece.point = text at strings
  induction text using inductionOn generalizing body pieces with
  | nil =>
      obtain rfl := List.map_eq_nil_iff.mp denoted
      cases spelled
      exact ⟨[], [], .nil, nofun, replace_nil.symm, fun _ => rfl⟩
  | spelled name rest named ih =>
      obtain ⟨after, others, rfl, rfl, further⟩ :=
        Json.beginsWith_of_denoted spelled legible (marks_of_spelling named) denoted
      rw [List.map_append, Json.point_of_plain] at denoted
      refine fills_variable named ?_ (ih further ?_ (List.append_cancel_left denoted) ?_)
      · intro value found
        exact strings name value ⟨named, (List.prefix_append _ _).isInfix⟩ found
      · exact fun piece member => legible piece (List.mem_append_right _ member)
      · intro other value mentions
        exact strings other value (mentions.mono (List.suffix_append _ _).isInfix)
  | copied point rest plain ih =>
      cases spelled with
      | nil => cases denoted
      | @cons text body piece pieces first further =>
          obtain ⟨here, others⟩ := List.forall_mem_cons.mp legible
          refine fills_piece first further here.single ?_ (ih further others ?_ ?_)
          · rwa [denoted]
          · exact (List.cons.inj denoted).2
          · intro other value mentions
            exact strings other value (mentions.mono (List.suffix_cons _ _).isInfix)

/-- Inserting values into a legible literal gives a literal of the text with the strings inserted,
whatever stands behind it. -/
theorem literal_filled {bound : Bindings Json} {text value : Text}
    (legible : LegibleLiteral text value) (strings : StringsIn bound value) :
    ∃ out, Becomes (inserting bound) text out ∧ StringLiteral out (fill bound value) := by
  cases legible with
  | @quoted body pieces spelled each =>
      have single : ∀ piece ∈ pieces, piece.Single := fun piece member => (each piece member).single
      rw [Json.joinPairs_of_single single] at strings ⊢
      obtain ⟨out, read, spelledOut, singles, filled, becomes⟩ := fills_body spelled each strings
      refine ⟨.scalar '"' :: (out ++ [.scalar '"']), ?_, ?_⟩
      · intro rest
        simp only [List.cons_append, List.append_assoc, List.nil_append]
        rw [replace_cons (by decide), becomes, replace_cons (by decide)]
      · rw [← filled, ← Json.joinPairs_of_single singles]
        exact .quoted spelledOut

end Variables

end JsonTemplate

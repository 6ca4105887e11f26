import JsonTemplate.Proofs.Match.Calls
import JsonTemplate.Proofs.Placeholder.Marks
import Mathlib

set_option autoImplicit false

/-!
# Where a template is malformed

A template is read after its bare captures have been quoted, and the line and the column of a
problem are those of the quoted text. In the template itself the line is the same, but the column is
smaller by the quotes that were put in before it on that line.
-/

namespace JsonTemplate

namespace Json

private theorem after_append_ne (front : Text) {further : Text} (nonempty : further ≠ []) :
    Position.after (front ++ further) ≠ Position.after front := by
  intro same
  simp only [Position.after, Position.mk.injEq, List.count_append, List.reverse_append] at same
  obtain ⟨line, column⟩ := same
  have noEnd : ∀ point ∈ further.reverse, decide (point ≠ .scalar '\n') = true := by
    intro point member
    have absent : .scalar '\n' ∉ further := List.count_eq_zero.mp (by omega)
    refine decide_eq_true fun ends => absent ?_
    rw [← ends]
    exact List.mem_reverse.mp member
  rw [List.takeWhile_append_of_pos noEnd, List.length_append, List.length_reverse] at column
  have some := List.length_pos_iff.mpr nonempty
  omega

/-- A position has only one beginning of a text in front of it. -/
theorem front_unique {front behind other left : Text} (same : front ++ behind = other ++ left)
    (here : Position.after front = Position.after other) : front = other := by
  rcases List.append_eq_append_iff.mp same with ⟨further, rfl, _⟩ | ⟨further, rfl, _⟩
  · by_cases more : further = []
    · rw [more, List.append_nil]
    · exact absurd here.symm (after_append_ne front more)
  · by_cases more : further = []
    · rw [more, List.append_nil]
    · exact absurd here (after_append_ne other more)

/-- The position of a problem is behind a beginning of the text. -/
theorem readText_malformed {text : Text} {problem : Problem} {position : Position}
    (refused : readText text = .error (.fault (.malformed problem position))) :
    ∃ front behind, text = front ++ behind ∧ position = Position.after front := by
  unfold readText at refused
  split at refused
  · cases refused
    exact ⟨[], _, rfl, rfl⟩
  · obtain ⟨stop, _, shown⟩ := error_of_mapError refused
    cases stop with
    | problem _ rest =>
        cases shown
        exact ⟨_, _, (List.take_append_drop _ _).symm, rfl⟩
    | constant => cases shown
    | tooDeep => cases shown
    | outOfRange => cases shown

end Json

namespace Document

/-- A fault of a document carries the label under which it was read. -/
theorem read_fault {source label : Option Text} {document : Document} {fault : Json.Fault}
    (failed : document.read source = .error (.reported (.parse label fault))) : label = source := by
  have labelled : ∀ {outcome : Except Json.Refusal Json},
      outcome.mapError (Json.Refusal.failure source) = .error (.reported (.parse label fault)) →
      label = source := by
    intro outcome refused
    obtain ⟨refusal, _, shown⟩ := error_of_mapError refused
    cases refusal with
    | fault =>
        cases shown
        rfl
    | numberOutOfRange => cases shown
  cases document with
  | text => exact labelled failed
  | octets => exact labelled failed
  | other => cases failed

end Document

namespace Match

open Placeholder (marks marks_spec insertedOnLine after_quoted)
open Placeholder.Mark (quoted unquoted)

variable {σ : Type}

/-- A match blames the template for a fault only when the template cannot be read. -/
theorem template_of_run_fault {registry : Registry σ} {config : MatchConfig} {mode : Mode}
    {expected actual : Document} {world next : σ} {fault : Json.Fault}
    (refused : run registry config mode expected actual world =
      (.error (.reported (.parse (some (lit "expected")) fault)), next)) :
    (prepare config expected).read (some (lit "expected")) =
      .error (.reported (.parse (some (lit "expected")) fault)) := by
  cases readExpected : (prepare config expected).read (some (lit "expected")) with
  | error failure =>
      rw [run_of_unread_template registry mode actual world readExpected] at refused
      cases refused
      rfl
  | ok wanted =>
      cases readActual : actual.read (some (lit "actual")) with
      | error failure =>
          rw [run_of_unread_document registry mode world readExpected readActual] at refused
          cases refused
          exact absurd (Document.read_fault readActual) (by decide)
      | ok found =>
          obtain ⟨distinct, ran⟩ := run_of_read registry mode world readExpected readActual
          rcases Template.resolve_cases registry distinct world with
            ⟨_, _, _, resolved⟩ | ⟨_, _, _, _, _, _, _, _, _, refuses, resolved⟩
          · rw [resolved] at ran
            cases refused.symm.trans ran
          · rw [resolved] at ran
            cases refused.symm.trans ran
            cases refuses

/-- The beginnings of a quoted text are told apart by the positions behind them. -/
theorem marks_unique {text : Text} {front behind other left : List Placeholder.Mark}
    (split : marks text = front ++ behind) (here : marks text = other ++ left)
    (same : Json.Position.after (quoted front) = Json.Position.after (quoted other)) :
    front = other := by
  have both := split.symm.trans here
  have quotedBoth : quoted front ++ quoted behind = quoted other ++ quoted left := by
    rw [← Placeholder.Mark.quoted_append, both, Placeholder.Mark.quoted_append]
  have long := congrArg List.length (Json.front_unique quotedBoth same)
  rw [quoted, List.length_map, quoted, List.length_map] at long
  exact List.append_inj_left both long

/-- When a template whose bare captures are quoted is malformed, the reported position is the one
at which the quoted text stops being readable, behind exactly one of its beginnings. In the template
itself that is on the same line, and in the reported column less the quotes that were put in before
it on that line; so the position is the one in the template only when there are none. -/
theorem run_malformed_position {registry : Registry σ} {policy : CapturePolicy} {mode : Mode}
    {text : Text} {actual : Document} {world next : σ} {problem : Json.Problem}
    {position : Json.Position}
    (refused : run registry ⟨policy, true⟩ mode (.text text) actual world =
      (.error (.reported (.parse (some (lit "expected")) (.malformed problem position))), next)) :
    Json.readText (Placeholder.quoteBare text) = .error (.fault (.malformed problem position)) ∧
      ∃ front behind, marks text = front ++ behind ∧
        Placeholder.quoteBare text = quoted front ++ quoted behind ∧
        text = unquoted front ++ unquoted behind ∧
        position = .after (quoted front) ∧
        (∀ other left, marks text = other ++ left → position = .after (quoted other) →
          front = other) ∧
        position.line = (Json.Position.after (unquoted front)).line ∧
        position.column =
          (Json.Position.after (unquoted front)).column + insertedOnLine front ∧
        (position = .after (unquoted front) ↔ insertedOnLine front = 0) := by
  obtain ⟨written, kept⟩ := marks_spec.1 text
  obtain ⟨refusal, unread, shown⟩ := error_of_mapError (template_of_run_fault refused)
  have malformed : Json.readText (Placeholder.quoteBare text) =
      .error (.fault (.malformed problem position)) := by
    cases refusal with
    | fault =>
        cases shown
        exact unread
    | numberOutOfRange => cases shown
  obtain ⟨begun, rest, split, rfl⟩ := Json.readText_malformed malformed
  rw [← written] at split
  obtain ⟨front, behind, parts, rfl, rfl⟩ := List.map_eq_append_iff.mp split
  refine ⟨malformed, front, behind, parts, ?_, ?_, rfl, ?_, ?_⟩
  · rw [← written, parts, Placeholder.Mark.quoted_append]
  · rw [← Placeholder.Mark.unquoted_append, ← parts, kept]
  · intro other left here same
    exact marks_unique parts here same
  · rw [← quoted, after_quoted front]
    refine ⟨rfl, rfl, fun same => ?_, fun none => by rw [none]; rfl⟩
    exact Nat.add_eq_left.mp (congrArg Json.Position.column same)

/-- A bare capture on the second line, where the rest of an array is missing. -/
theorem run_malformed_second_line :
    ∃ front, marks (lit "[null,\n [[A]]") = front ∧
      run Registry.empty .default .exact (.text (lit "[null,\n [[A]]")) (.text (lit "1")) () =
        (.error (.reported (.parse (some (lit "expected"))
          (.malformed .expectingComma ⟨2, 9⟩))), ()) ∧
      insertedOnLine front = 2 ∧ Json.Position.after (unquoted front) = ⟨2, 7⟩ := by
  have refused : run Registry.empty .default .exact (.text (lit "[null,\n [[A]]"))
      (.text (lit "1")) () = (.error (.reported (.parse (some (lit "expected"))
        (.malformed .expectingComma ⟨2, 9⟩))), ()) := by
    cbv
  obtain ⟨_, front, behind, split, _, _, here, unique, line, column, _⟩ :=
    run_malformed_position refused
  have whole : marks (lit "[null,\n [[A]]") =
      (lit "[null,\n ").map .kept ++ .inserted :: (lit "[[A]]").map .kept ++ [.inserted] := by cbv
  have same : front = marks (lit "[null,\n [[A]]") :=
    unique _ [] (List.append_nil _).symm (by rw [whole]; rfl)
  have two : insertedOnLine front = 2 := by
    rw [same, whole]
    rfl
  refine ⟨front, same.symm, refused, two, ?_⟩
  rw [two] at column
  exact congrArg₂ Json.Position.mk line.symm (Nat.add_right_cancel column.symm)

/-- What follows a bare capture is reported two columns further right than it stands. -/
theorem run_malformed_elsewhere :
    run Registry.empty .default .exact (.text (lit "[[A]] x")) (.text (lit "1")) () =
        (.error (.reported (.parse (some (lit "expected"))
          (.malformed .extraData ⟨1, 9⟩))), ()) ∧
      Placeholder.quoteBare (lit "[[A]] x") = lit "\"[[A]]\" x" ∧
      Json.Position.after (lit "\"[[A]]\" ") = ⟨1, 9⟩ ∧
      Json.Position.after (lit "[[A]] ") = ⟨1, 7⟩ := by
  exact ⟨by cbv, by cbv, by rfl, by rfl⟩

end Match

end JsonTemplate

import JsonTemplate.Json.Printer
import JsonTemplate.Proofs.Json.Grammar
import JsonTemplate.Proofs.Text.CodePoint
import JsonTemplate.Proofs.Text.Numeral

set_option autoImplicit false

/-!
# String literals that are written

Every text has a literal of its own: each position is written as itself or as an escape
that stands for it, and no two escapes are taken for one pair.
-/

namespace JsonTemplate.Json

/-- A piece that no neighbour can be joined to. -/
def Piece.Single : Piece → Prop
  | .plain _ => True
  | .unit point => point.isHighSurrogate = false

theorem joinPairs_of_single {read : List Piece} (single : ∀ piece ∈ read, piece.Single) :
    joinPairs read = read.map Piece.point := by
  induction read with
  | nil => rfl
  | cons piece rest ih =>
      have others := ih fun other member => single other (List.mem_cons_of_mem piece member)
      have alone := single piece List.mem_cons_self
      rw [joinPairs.eq_def]
      split
      · next high low after shape =>
          obtain ⟨rfl, rfl⟩ := List.cons.inj shape
          have notHigh : high.isHighSurrogate = false := alone
          rw [notHigh, others]
          rfl
      · next first after _ shape =>
          obtain ⟨rfl, rfl⟩ := List.cons.inj shape
          rw [others, List.map_cons]
      · next shape => cases shape

theorem single_of_plain (text : Text) : ∀ piece ∈ text.map Piece.plain, piece.Single := by
  intro piece member
  obtain ⟨point, _, rfl⟩ := List.mem_map.mp member
  trivial

theorem point_of_plain (text : Text) : (text.map Piece.plain).map Piece.point = text := by
  rw [List.map_map]
  exact List.map_id text

theorem body_of_plain {text : Text} (plain : ∀ point ∈ text, PieceText [point] (.plain point)) :
    StringBody text (text.map .plain) := by
  induction text with
  | nil => exact .nil
  | cons point rest ih =>
      obtain ⟨spelled, others⟩ := List.forall_mem_cons.mp plain
      have body : StringBody ([point] ++ rest) (.plain point :: rest.map .plain) :=
        .cons spelled (ih others)
      exact body

/-- A text in which nothing has to be escaped is its own literal, between quotes. -/
theorem literal_of_plain {text : Text} (plain : ∀ point ∈ text, PieceText [point] (.plain point)) :
    StringLiteral (.scalar '"' :: (text ++ [.scalar '"'])) text := by
  have literal := StringLiteral.quoted (body_of_plain plain)
  rwa [joinPairs_of_single (single_of_plain text), point_of_plain] at literal

/-- The four digits of a code unit are read as its number. -/
theorem codeUnit?_hex {number : Nat} (small : number < 0x10000) :
    ∃ first second third fourth, Numeral.hex 4 number = [first, second, third, fourth] ∧
      codeUnit? first second third fourth = some (.ofNat number) := by
  refine ⟨_, _, _, _, rfl, ?_⟩
  simp only [codeUnit?, Option.bind_eq_bind]
  rw [Numeral.hexValue?_digit (by omega), Numeral.hexValue?_digit (by omega),
    Numeral.hexValue?_digit (by omega), Numeral.hexValue?_digit (by omega)]
  simp only [Option.bind_some, Option.pure_def]
  congr 2
  omega

theorem escapePoint_spelled (point : CodePoint) :
    ∃ piece : Piece, PieceText (escapePoint point) piece ∧ piece.point = point ∧ piece.Single := by
  have named : ∀ {letter : CodePoint}, escapeLetter? letter = some point →
      ∃ piece : Piece, PieceText [.scalar '\\', letter] piece ∧ piece.point = point ∧ piece.Single :=
    fun meant => ⟨.plain point, .letter meant, rfl, trivial⟩
  have numbered : ∀ {number : Nat}, point.value = number → point = .ofNat number := by
    rintro number rfl
    exact point.ofNat_value.symm
  unfold escapePoint
  split_ifs with quote backslash newline back tab feed backspace control
  · subst quote
    exact named rfl
  · subst backslash
    exact named rfl
  · subst newline
    exact named rfl
  · subst back
    exact named rfl
  · subst tab
    exact named rfl
  · rw [numbered feed] at named ⊢
    exact named rfl
  · rw [numbered backspace] at named ⊢
    exact named rfl
  · obtain ⟨first, second, third, fourth, digits, unit⟩ :=
      codeUnit?_hex (show point.value < 0x10000 by omega)
    rw [point.ofNat_value] at unit
    rw [digits]
    refine ⟨.unit point, .unit unit, rfl, ?_⟩
    cases point with
    | scalar character => rfl
    | surrogate offset =>
        rw [CodePoint.value] at control
        omega
  · exact ⟨.plain point, .plain quote backslash (Nat.le_of_not_lt control), rfl, trivial⟩

theorem escape_pieces (text : Text) :
    ∃ read, StringBody (escape text) read ∧ read.map Piece.point = text ∧
      ∀ piece ∈ read, piece.Single := by
  induction text with
  | nil => exact ⟨[], .nil, rfl, nofun⟩
  | cons point text ih =>
      obtain ⟨piece, spelled, same, single⟩ := escapePoint_spelled point
      obtain ⟨read, body, others, singles⟩ := ih
      refine ⟨piece :: read, .cons spelled body, by rw [List.map_cons, same, others], ?_⟩
      intro other member
      rcases List.mem_cons.mp member with rfl | later
      · exact single
      · exact singles other later

private theorem escape_spelled (text : Text) :
    ∃ read, StringBody (escape text) read ∧ joinPairs read = text := by
  obtain ⟨read, body, same, single⟩ := escape_pieces text
  exact ⟨read, body, (joinPairs_of_single single).trans same⟩

theorem quote_literal (text : Text) : StringLiteral (quote text) text := by
  obtain ⟨read, body, same⟩ := escape_spelled text
  have literal := StringLiteral.quoted body
  rwa [same] at literal

end JsonTemplate.Json

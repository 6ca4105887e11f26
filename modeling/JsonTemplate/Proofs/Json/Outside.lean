import JsonTemplate.Proofs.Json.Completeness

set_option autoImplicit false

/-!
# Inside and outside of strings

A front of a text that closes all its string literals leaves the rest outside of strings. Outside
of strings, a text of the grammar is made of white space, digits and the marks and letters of
numbers, words and brackets.
-/

namespace JsonTemplate.Json

/-- Whole string literals, and between them positions that satisfy `plain` and are no quotes. -/
inductive Outside (plain : CodePoint → Prop) : Text → Prop where
  | nil : Outside plain []
  | point {point : CodePoint} {rest : Text} :
      point ≠ .scalar '"' → plain point → Outside plain rest → Outside plain (point :: rest)
  | literal {literal value rest : Text} :
      StringLiteral literal value → Outside plain rest → Outside plain (literal ++ rest)

/-- Whole string literals, and anything but quotes between them. -/
def Balanced : Text → Prop :=
  Outside fun _ => True

variable {plain : CodePoint → Prop}

namespace Outside

theorem balanced {text : Text} (outside : Outside plain text) : Balanced text := by
  induction outside with
  | nil => exact .nil
  | point notQuote _ _ ih => exact .point notQuote trivial ih
  | literal spelled _ ih => exact .literal spelled ih

theorem append {left right : Text} (first : Outside plain left) (second : Outside plain right) :
    Outside plain (left ++ right) := by
  induction first with
  | nil => exact second
  | point notQuote fine _ ih => exact .point notQuote fine ih
  | literal spelled _ ih =>
      rw [List.append_assoc]
      exact .literal spelled ih

private theorem of_all {text : Text} (each : ∀ point ∈ text, point ≠ .scalar '"' ∧ plain point) :
    Outside plain text := by
  induction text with
  | nil => exact .nil
  | cons point rest ih =>
      obtain ⟨⟨notQuote, fine⟩, others⟩ := List.forall_mem_cons.mp each
      exact .point notQuote fine (ih others)

theorem string {literal value : Text} (spelled : StringLiteral literal value) :
    Outside plain literal := by
  rw [← List.append_nil literal]
  exact .literal spelled .nil

theorem cons_inv {point : CodePoint} {text rest : Text} (outside : Outside plain text)
    (split : text = point :: rest) (notQuote : point ≠ .scalar '"') :
    plain point ∧ Outside plain rest := by
  cases outside with
  | nil => cases split
  | point _ fine others =>
      cases split
      exact ⟨fine, others⟩
  | literal spelled _ =>
      obtain ⟨behind, rfl⟩ := spelled.head
      cases split
      exact absurd rfl notQuote

end Outside

/-- A text starts with at most one string literal. -/
theorem StringLiteral.append_inj {literal other value found rest behind : Text}
    (first : StringLiteral literal value) (second : StringLiteral other found)
    (same : literal ++ rest = other ++ behind) : literal = other ∧ rest = behind := by
  obtain ⟨text, split, read⟩ := readString_complete first rest
  obtain ⟨again, otherSplit, otherRead⟩ := readString_complete second behind
  rw [same, otherSplit] at split
  cases split
  rw [read] at otherRead
  cases otherRead
  exact ⟨List.append_cancel_right same, rfl⟩

namespace Outside

private theorem literal_inv {literal value text rest : Text} (outside : Outside plain text)
    (split : text = literal ++ rest) (spelled : StringLiteral literal value) :
    Outside plain rest := by
  cases outside with
  | nil =>
      obtain ⟨behind, rfl⟩ := spelled.head
      cases split
  | point notQuote _ _ =>
      obtain ⟨behind, rfl⟩ := spelled.head
      cases split
      exact absurd rfl notQuote
  | literal other others =>
      obtain ⟨_, rfl⟩ := other.append_inj spelled split
      exact others

/-- What follows a balanced front is outside of strings where the whole text is. -/
theorem rest {before behind : Text} (whole : Outside plain (before ++ behind))
    (front : Balanced before) : Outside plain behind := by
  induction front with
  | nil => exact whole
  | point notQuote _ _ ih => exact ih (whole.cons_inv rfl notQuote).2
  | @literal literal value rest spelled _ ih =>
      exact ih (whole.literal_inv (List.append_assoc literal rest behind) spelled)

end Outside

/-! ## Texts of the grammar -/

def Mark (point : CodePoint) : Prop :=
  isSpace point = true ∨ point.isDigit = true ∨ point ∈ lit "[]\x7b\x7d,:+-.eEtrufalsn"
deriving Decidable

theorem Blank.outside {gap : Text} (blank : Blank gap) : Outside Mark gap := by
  refine .of_all fun point member => ⟨?_, .inl (blank point member)⟩
  rintro rfl
  cases blank _ member

theorem Digits.outside {digits : Text} (all : Digits digits) : Outside Mark digits :=
  .of_all fun point member =>
    ⟨ne_of_isDigit (all.2 point member) (by decide), .inr (.inl (all.2 point member))⟩

theorem NumberLiteral.outside {text : Text} {value : Number} (literal : NumberLiteral text value) :
    Outside Mark text := by
  cases literal with
  | @parts negative whole fractionText fraction exponentText exponent wholeSpelled fractionSpelled
      exponentSpelled =>
      have sign : Outside Mark (if negative then [CodePoint.scalar '-'] else []) := by
        cases negative with
        | false => exact .nil
        | true => exact .of_all (by decide)
      have fractional : Outside Mark fractionText := by
        cases fractionSpelled with
        | none => exact .nil
        | point all => exact .point (by decide) (by decide) all.outside
      have power : Outside Mark exponentText := by
        cases exponentSpelled with
        | none => exact .nil
        | @power letter sign _ _ isLetter signSpelled all =>
            have signOutside : Outside Mark sign := by
              cases signSpelled with
              | none => exact .nil
              | plus => exact .of_all (by decide)
              | minus => exact .of_all (by decide)
            rcases isLetter with rfl | rfl
            · exact .point (by decide) (by decide) (signOutside.append all.outside)
            · exact .point (by decide) (by decide) (signOutside.append all.outside)
      exact sign.append (wholeSpelled.digits.outside.append (fractional.append power))

variable {admitted : Number → Prop}

theorem Scalar.outside {text : Text} {value : Json} (scalar : Scalar admitted text value) :
    Outside Mark text := by
  cases scalar with
  | null => exact .of_all (by decide)
  | true => exact .of_all (by decide)
  | false => exact .of_all (by decide)
  | number literal _ => exact literal.outside
  | string literal => exact .string literal

theorem Series.outside {α : Type} {element : Text → α → Prop} {close : CodePoint} {text : Text}
    {values : List α} (series : Series element close text values)
    (each : ∀ {text value}, element text value → Outside Mark text)
    (closing : Outside Mark [close]) : Outside Mark text := by
  induction series with
  | last before spelled after =>
      exact before.outside.append ((each spelled).append (after.outside.append closing))
  | more before spelled after _ ih =>
      exact before.outside.append ((each spelled).append
        (after.outside.append (.point (by decide) (by decide) ih)))

theorem Enclosed.outside {α : Type} {element : Text → α → Prop} {close : CodePoint} {text : Text}
    {values : List α} (enclosed : Enclosed element close text values)
    (each : ∀ {text value}, element text value → Outside Mark text)
    (closing : Outside Mark [close]) : Outside Mark text := by
  cases enclosed with
  | none blank => exact blank.outside.append closing
  | some series => exact series.outside each closing

theorem MemberText.outside {inner : Text → Json → Prop} {text : Text} {member : Text × Json}
    (spelled : MemberText inner text member)
    (each : ∀ {text value}, inner text value → Outside Mark text) : Outside Mark text := by
  cases spelled with
  | pair literal gap space inside =>
      exact .literal literal (gap.outside.append
        (.point (by decide) (by decide) (space.outside.append (each inside))))

theorem Spells.outside {depth : Nat} {text : Text} {value : Json}
    (spelled : Spells admitted depth text value) : Outside Mark text := by
  induction depth generalizing text value with
  | zero => exact Scalar.outside spelled
  | succ depth ih =>
      cases spelled with
      | scalar scalar => exact scalar.outside
      | array enclosed =>
          exact .point (by decide) (by decide) (enclosed.outside ih (.of_all (by decide)))
      | object enclosed =>
          exact .point (by decide) (by decide)
            (enclosed.outside (fun member => member.outside ih) (.of_all (by decide)))

theorem SpellsWhole.outside {depth : Nat} {text : Text} {value : Json}
    (spelled : SpellsWhole admitted depth text value) : Outside Mark text := by
  obtain ⟨before, core, after, rfl, blankBefore, spelled, blankAfter⟩ := spelled
  exact blankBefore.outside.append (spelled.outside.append blankAfter.outside)

end JsonTemplate.Json

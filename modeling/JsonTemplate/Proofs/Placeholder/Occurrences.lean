import JsonTemplate.Proofs.Placeholder.Bare

set_option autoImplicit false

/-!
# Bare captures of any text

Whether or not a text is a document, its quotes delimit string literals from its start on, and its
bare captures are the captures with quotable names that start outside of them. Quoting puts a pair
of quotes around each of these and keeps all else, and a second time there is nothing to quote.
-/

namespace JsonTemplate.Placeholder

/-! ## Occurrences -/

/-- Where a position stands: outside of string literals, in one, or in one behind a backslash. -/
inductive Standing where
  | outside
  | inside
  | escaped
deriving DecidableEq, Repr

namespace Standing

/-- Where the position after a point stands. An escaped point neither closes nor escapes. -/
def next : Standing → CodePoint → Standing
  | .outside, point => if point = .scalar '"' then .inside else .outside
  | .inside, point =>
      if point = .scalar '"' then .outside
      else if point = .scalar '\\' then .escaped else .inside
  | .escaped, _ => .inside

def after (start : Standing) (front : Text) : Standing :=
  front.foldl next start

@[simp] theorem after_nil (start : Standing) : start.after [] = start := rfl

@[simp] theorem after_cons (start : Standing) (point : CodePoint) (front : Text) :
    start.after (point :: front) = (start.next point).after front := rfl

@[simp] theorem after_append (start : Standing) (front behind : Text) :
    start.after (front ++ behind) = (start.after front).after behind :=
  List.foldl_append

private theorem outside_after {front : Text} (plain : ∀ point ∈ front, point ≠ .scalar '"') :
    outside.after front = .outside := by
  induction front with
  | nil => rfl
  | cons point front ih =>
      obtain ⟨notQuote, others⟩ := List.forall_mem_cons.mp plain
      rw [after_cons, next, if_neg notQuote]
      exact ih others

end Standing

/-- Behind `front`, outside of string literals, stands a capture with a quotable name. -/
structure BareAt (start : Standing) (text front name : Text) : Prop where
  outside : start.after front = .outside
  quotable : Quotable name
  spelled : front ++ spelling (.capture name) <+: text

private theorem bareAt_nil {start : Standing} {front name : Text} :
    ¬ BareAt start [] front name := by
  intro bare
  have nothing := List.prefix_nil.mp bare.spelled
  simp [spelling, lit] at nothing

private theorem bareAt_here_iff {start : Standing} {text name : Text} :
    BareAt start text [] name ↔
      start = .outside ∧ ∃ rest, barePrefix? text = some (name, rest) := by
  simp only [barePrefix?_eq_some_iff]
  constructor
  · rintro ⟨outside, quotable, rest, rfl⟩
    exact ⟨outside, rest, quotable, rfl⟩
  · rintro ⟨outside, rest, quotable, rfl⟩
    exact ⟨outside, quotable, rest, rfl⟩

private theorem bareAt_cons_iff {start : Standing} {point first : CodePoint}
    {rest front name : Text} :
    BareAt start (point :: rest) (first :: front) name ↔
      first = point ∧ BareAt (start.next point) rest front name := by
  constructor
  · rintro ⟨outside, quotable, spelled⟩
    obtain ⟨rfl, behind⟩ := List.cons_prefix_cons.mp spelled
    exact ⟨rfl, outside, quotable, behind⟩
  · rintro ⟨rfl, outside, quotable, spelled⟩
    exact ⟨outside, quotable, List.cons_prefix_cons.mpr ⟨rfl, spelled⟩⟩

/-- No capture starts inside of another one. -/
theorem capture_apart {name other front middle rest behind : Text} (named : isName name = true)
    (split : spelling (.capture name) = front ++ middle) (begun : front ≠ []) (unfinished : middle ≠ [])
    (inner : middle ++ rest = spelling (.capture other) ++ behind) : False := by
  obtain ⟨nonempty, parts⟩ := isName_iff.mp named
  obtain ⟨first, front, rfl⟩ := List.exists_cons_of_ne_nil begun
  obtain ⟨opening, middle, rfl⟩ := List.exists_cons_of_ne_nil unfinished
  obtain ⟨rfl, following⟩ := List.cons.inj inner
  -- The second bracket is the last one, and a name follows it.
  have noBracket : ∀ point ∈ name ++ lit "]]", point ≠ .scalar '[' := by
    intro point member
    rcases List.mem_append.mp member with inName | closing
    · exact CodePoint.ne_of_isNamePart (parts point inName) (by decide)
    · exact (by decide : ∀ point ∈ lit "]]", point ≠ .scalar '[') point closing
  have tail : .scalar '[' :: (name ++ lit "]]") = front ++ .scalar '[' :: middle :=
    (List.cons.inj split).2
  cases front with
  | nil =>
      obtain ⟨_, rfl⟩ := List.cons.inj tail
      obtain ⟨head, others, rfl⟩ := List.exists_cons_of_ne_nil nonempty
      exact noBracket head (by simp) (List.cons.inj following).1
  | cons second front =>
      refine noBracket (.scalar '[') ?_ rfl
      rw [(List.cons.inj tail).2]
      simp

/-- Behind a bare capture the others are those of the rest. -/
theorem bareAt_capture_iff {name rest front other : Text} (quotable : Quotable name) :
    BareAt .outside (spelling (.capture name) ++ rest) front other ↔
      front = [] ∧ name = other ∨
        ∃ behind, front = spelling (.capture name) ++ behind ∧
          BareAt .outside rest behind other := by
  have stays : Standing.outside.after (spelling (.capture name)) = .outside :=
    Standing.outside_after fun point member => (plain_of_capture quotable.isName point member).2
  constructor
  · rintro ⟨outside, otherQuotable, tail, split⟩
    rw [List.append_assoc] at split
    rcases List.append_eq_append_iff.mp split with ⟨middle, whole, inner⟩ | ⟨behind, rfl, inner⟩
    · rcases front.eq_nil_or_concat with rfl | ⟨_, _, rfl⟩
      · left
        have found := barePrefix?_eq_some_iff.mpr
          ⟨quotable, (rfl : spelling (.capture name) ++ rest = _)⟩
        have again := barePrefix?_eq_some_iff.mpr ⟨otherQuotable, (List.nil_append _ ▸ split).symm⟩
        rw [found] at again
        cases again
        exact ⟨rfl, rfl⟩
      · right
        cases middle with
        | nil =>
            rw [List.append_nil] at whole
            rw [← whole] at outside ⊢
            exact ⟨[], (List.append_nil _).symm, rfl, otherQuotable, tail, inner⟩
        | cons point middle =>
            exact absurd inner.symm
              (fun same => capture_apart quotable.isName whole (by simp) (by simp) same)
    · right
      rw [Standing.after_append, stays] at outside
      refine ⟨behind, rfl, outside, otherQuotable, tail, ?_⟩
      rw [List.append_assoc]
      exact inner.symm
  · rintro (⟨rfl, rfl⟩ | ⟨behind, rfl, outside, otherQuotable, spelled⟩)
    · exact ⟨rfl, quotable, List.prefix_append _ _⟩
    · refine ⟨?_, otherQuotable, ?_⟩
      · rw [Standing.after_append, stays, outside]
      · rw [List.append_assoc]
        exact (List.prefix_append_right_inj _).mpr spelled

/-! ## Parts of a text -/

inductive Part where
  | kept (point : CodePoint)
  | capture (name : Text)

namespace Part

def bare : Part → Text
  | .kept point => [point]
  | .capture name => spelling (.capture name)

def quoted : Part → Text
  | .kept point => [point]
  | .capture name => quotedCapture name

@[simp] theorem flatMap_bare_cons (part : Part) (parts : List Part) :
    (part :: parts).flatMap bare = part.bare ++ parts.flatMap bare := List.flatMap_cons

@[simp] theorem flatMap_quoted_cons (part : Part) (parts : List Part) :
    (part :: parts).flatMap quoted = part.quoted ++ parts.flatMap quoted := List.flatMap_cons

end Part

def CaptureBehind (parts : List Part) (front name : Text) : Prop :=
  ∃ before after, parts = before ++ .capture name :: after ∧ before.flatMap Part.bare = front

private theorem captureBehind_cons_iff {part : Part} {parts : List Part} {front name : Text} :
    CaptureBehind (part :: parts) front name ↔
      front = [] ∧ part = .capture name ∨
        ∃ behind, front = part.bare ++ behind ∧ CaptureBehind parts behind name := by
  constructor
  · rintro ⟨before, after, split, rfl⟩
    cases before with
    | nil =>
        cases split
        exact .inl ⟨rfl, rfl⟩
    | cons first before =>
        cases split
        exact .inr ⟨before.flatMap Part.bare, List.flatMap_cons, before, after, rfl, rfl⟩
  · rintro (⟨rfl, rfl⟩ | ⟨_, rfl, before, after, rfl, rfl⟩)
    · exact ⟨[], parts, rfl, rfl⟩
    · exact ⟨part :: before, after, rfl, List.flatMap_cons⟩

/-- The text in parts, with a capture exactly where a bare capture stands. -/
structure Cut (start : Standing) (text : Text) (parts : List Part) : Prop where
  whole : parts.flatMap Part.bare = text
  captures : ∀ front name, CaptureBehind parts front name ↔ BareAt start text front name

theorem Cut.nil (start : Standing) : Cut start [] [] := by
  refine ⟨rfl, fun front name => iff_of_false ?_ bareAt_nil⟩
  rintro ⟨before, after, split, _⟩
  simp at split

theorem Cut.kept {start further : Standing} {point : CodePoint} {rest : Text} {parts : List Part}
    (cut : Cut further rest parts) (moved : start.next point = further)
    (notBare : start = .outside → barePrefix? (point :: rest) = none) :
    Cut start (point :: rest) (.kept point :: parts) := by
  refine ⟨by simp [Part.bare, cut.whole], fun front name => ?_⟩
  rw [captureBehind_cons_iff]
  cases front with
  | nil =>
      have absent : ¬ BareAt start (point :: rest) [] name := by
        rw [bareAt_here_iff]
        rintro ⟨outside, left, found⟩
        rw [notBare outside] at found
        cases found
      simp [absent, Part.bare]
  | cons first front =>
      rw [bareAt_cons_iff, moved, ← cut.captures]
      simp [Part.bare, and_assoc]

theorem Cut.capture {name rest : Text} {parts : List Part} (cut : Cut .outside rest parts)
    (quotable : Quotable name) :
    Cut .outside (spelling (.capture name) ++ rest) (.capture name :: parts) := by
  refine ⟨by simp [Part.bare, cut.whole], fun front other => ?_⟩
  rw [captureBehind_cons_iff, bareAt_capture_iff quotable]
  simp only [Part.capture.injEq, Part.bare, cut.captures]

/-- Quoting a text, from outside or from inside of a string literal, puts quotes around the
captures of one cut. -/
theorem exists_cut :
    (∀ text, ∃ parts, Cut .outside text parts ∧ quoteBare text = parts.flatMap Part.quoted) ∧
      ∀ text, ∃ parts, Cut .inside text parts ∧ quoteInside text = parts.flatMap Part.quoted := by
  refine quoteOutside.mutual_induct _ _ ?bare ?empty ?opening ?outside ?ended ?escape ?closing
    ?inside
  case bare =>
    intro text name rest found ih
    obtain ⟨parts, cut, quoted⟩ := ih
    obtain ⟨quotable, rfl⟩ := barePrefix?_eq_some_iff.mp found
    refine ⟨.capture name :: parts, cut.capture quotable, ?_⟩
    rw [quoteBare_bare quotable, quoted]
    simp [Part.quoted, quotedCapture]
  case empty =>
    intro _
    exact ⟨[], .nil _, quoteBare_nil⟩
  case opening =>
    intro rest notBare ih
    obtain ⟨parts, cut, quoted⟩ := ih
    refine ⟨.kept (.scalar '"') :: parts, cut.kept rfl fun _ => notBare, ?_⟩
    rw [quoteBare_quote, quoted]
    rfl
  case outside =>
    intro point rest notBare notQuote ih
    obtain ⟨parts, cut, quoted⟩ := ih
    refine ⟨.kept point :: parts, cut.kept (if_neg notQuote) fun _ => notBare, ?_⟩
    rw [quoteBare_cons notBare notQuote, quoted]
    rfl
  case ended => exact ⟨[], .nil _, quoteInside_nil⟩
  case escape =>
    intro kept rest ih
    obtain ⟨parts, cut, quoted⟩ := ih
    have escaped : Cut .escaped (kept :: rest) (.kept kept :: parts) := cut.kept rfl (by simp)
    refine ⟨.kept (.scalar '\\') :: .kept kept :: parts, escaped.kept rfl (by simp), ?_⟩
    rw [quoteInside_escape, quoted]
    rfl
  case closing =>
    intro rest _ ih
    obtain ⟨parts, cut, quoted⟩ := ih
    refine ⟨.kept (.scalar '"') :: parts, cut.kept rfl (by simp), ?_⟩
    rw [quoteInside_quote, quoted]
    rfl
  case inside =>
    intro point rest notEscape notQuote ih
    obtain ⟨parts, cut, quoted⟩ := ih
    by_cases backslash : point = .scalar '\\'
    · -- Only at the end of the text does a backslash escape nothing.
      cases rest with
      | nil =>
          subst backslash
          exact ⟨[.kept _], (Cut.nil .escaped).kept rfl (by simp), quoteInside_backslash⟩
      | cons kept rest => exact (notEscape kept rest backslash rfl).elim
    · refine ⟨.kept point :: parts, cut.kept ?_ (by simp), ?_⟩
      · simp [Standing.next, notQuote, backslash]
      · rw [quoteInside_cons backslash notQuote, quoted]
        rfl

/-! ## Quoting what is quoted -/

/-- Where a quoted text begins without quotes, the text itself begins so. -/
theorem prefix_of_quoteBare {plain rest : Text} (noQuote : ∀ point ∈ plain, point ≠ .scalar '"')
    (quoted : plain <+: quoteBare rest) : plain <+: rest := by
  induction plain generalizing rest with
  | nil => exact List.nil_prefix
  | cons first plain ih =>
      obtain ⟨notQuote, others⟩ := List.forall_mem_cons.mp noQuote
      cases found : barePrefix? rest with
      | some bare =>
          obtain ⟨quotable, rfl⟩ := barePrefix?_eq_some_iff.mp found
          rw [quoteBare_bare quotable] at quoted
          exact absurd (List.cons_prefix_cons.mp quoted).1 notQuote
      | none =>
          cases rest with
          | nil => rwa [quoteBare_nil] at quoted
          | cons point rest =>
              by_cases opens : point = .scalar '"'
              · rw [opens, quoteBare_quote] at quoted
                exact absurd (List.cons_prefix_cons.mp quoted).1 notQuote
              · rw [quoteBare_cons found opens, List.cons_prefix_cons] at quoted
                exact List.cons_prefix_cons.mpr ⟨quoted.1, ih others quoted.2⟩

/-- Quotes that are put in further on do not make a bare capture start here. -/
theorem barePrefix?_quoteBare {point : CodePoint} {rest : Text}
    (notBare : barePrefix? (point :: rest) = none) :
    barePrefix? (point :: quoteBare rest) = none := by
  rw [Option.eq_none_iff_forall_ne_some]
  rintro ⟨name, left⟩ found
  obtain ⟨quotable, split⟩ := barePrefix?_eq_some_iff.mp found
  obtain ⟨rfl, following⟩ := List.cons.inj split
  have plain : ∀ point ∈ .scalar '[' :: (name ++ lit "]]"), point ≠ .scalar '"' :=
    fun point member => (plain_of_capture quotable.isName point (List.mem_cons_of_mem _ member)).2
  obtain ⟨behind, same⟩ := prefix_of_quoteBare plain ⟨left, following.symm⟩
  have bare := barePrefix?_eq_some_iff.mpr
    ⟨quotable, (rfl : spelling (.capture name) ++ behind = _)⟩
  rw [← same] at notBare
  exact absurd (notBare.symm.trans bare) nofun

private theorem quote_twice :
    (∀ text, quoteBare (quoteBare text) = quoteBare text) ∧
      ∀ text, quoteInside (quoteInside text) = quoteInside text := by
  refine quoteOutside.mutual_induct _ _ ?bare ?empty ?opening ?outside ?ended ?escape ?closing
    ?inside
  case bare =>
    intro text name rest found ih
    obtain ⟨quotable, rfl⟩ := barePrefix?_eq_some_iff.mp found
    rw [quoteBare_bare quotable, quoteBare_quote,
      quoteInside_points (plain_of_capture quotable.isName), quoteInside_quote, ih]
  case empty =>
    intro _
    rw [quoteBare_nil, quoteBare_nil]
  case opening =>
    intro rest _ ih
    rw [quoteBare_quote, quoteBare_quote, ih]
  case outside =>
    intro point rest notBare notQuote ih
    rw [quoteBare_cons notBare notQuote, quoteBare_cons (barePrefix?_quoteBare notBare) notQuote, ih]
  case ended => rw [quoteInside_nil, quoteInside_nil]
  case escape =>
    intro kept rest ih
    rw [quoteInside_escape, quoteInside_escape, ih]
  case closing =>
    intro rest _ ih
    rw [quoteInside_quote, quoteInside_quote, ih]
  case inside =>
    intro point rest notEscape notQuote ih
    by_cases backslash : point = .scalar '\\'
    · cases rest with
      | nil => rw [backslash, quoteInside_backslash, quoteInside_backslash]
      | cons kept rest => exact (notEscape kept rest backslash rfl).elim
    · rw [quoteInside_cons backslash notQuote, quoteInside_cons backslash notQuote, ih]

/-- On every text, quoting puts a pair of quotes around exactly the bare captures that start outside
of string literals and keeps everything else; and a quoted text is quoted already. -/
theorem quoteBare_inserts (text : Text) :
    (∃ parts, Cut .outside text parts ∧ quoteBare text = parts.flatMap Part.quoted) ∧
      quoteBare (quoteBare text) = quoteBare text :=
  ⟨exists_cut.1 text, quote_twice.1 text⟩

/-- A capture, and another one in a literal that is never closed. -/
example : quoteBare (lit "[[A]]\"[[B]]") = lit "\"[[A]]\"\"[[B]]" := by
  cbv

end JsonTemplate.Placeholder

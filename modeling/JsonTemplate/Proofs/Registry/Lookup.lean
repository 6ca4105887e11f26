import JsonTemplate.Proofs.Registry.Session

set_option autoImplicit false

/-!
# Lookup and registration

A name is looked up by its capitals, and a few letters outside ASCII have capitals inside it. A text
with such a letter is no name and is never registered, but a lookup of it finds the function that is
registered under its capitals. Any other text is found exactly when it is a name that is taken.
-/

namespace JsonTemplate

open Placeholder (isName)

variable {σ : Type}

namespace Placeholder

private theorem isName_capitals {text : Text} (named : isName text = true) :
    isName text.capitals = true := by
  obtain ⟨nonempty, parts⟩ := isName_iff.mp named
  have single : ∀ point ∈ text, ∃ capital : CodePoint, point.capitals = [capital] ∧
      capital.isNamePart = true := by
    intro point member
    have part := parts point member
    cases point with
    | surrogate offset => cases part
    | scalar character =>
        exact ⟨_, CodePoint.capitals_of_isNamePart part, by rwa [CodePoint.isNamePart_toUpper]⟩
  refine isName_iff.mpr ⟨?_, fun capital member => ?_⟩
  · obtain ⟨point, rest, rfl⟩ := List.exists_cons_of_ne_nil nonempty
    obtain ⟨capital, same, _⟩ := single point List.mem_cons_self
    rw [Text.capitals, List.flatMap_cons, same]
    exact List.cons_ne_nil _ _
  · obtain ⟨point, inside, found⟩ := List.mem_flatMap.mp member
    obtain ⟨only, same, part⟩ := single point inside
    rw [same, List.mem_singleton] at found
    rwa [found]

/-- Without a letter that only its capitals bring into ASCII, a text whose capitals are a name is
one. -/
theorem isName_of_capitals {text : Text} (named : isName text.capitals = true)
    (plain : ∀ point ∈ text, point ∉ CodePoint.folded) : isName text = true := by
  obtain ⟨nonempty, parts⟩ := isName_iff.mp named
  refine isName_iff.mpr ⟨?_, fun point member => ?_⟩
  · rintro rfl
    exact nonempty rfl
  · have each : ∀ capital ∈ point.capitals, capital.isNamePart = true := fun capital inside =>
      parts capital (List.mem_flatMap.mpr ⟨point, member, inside⟩)
    exact (CodePoint.isNamePart_or_folded each).resolve_right (plain point member)

end Placeholder

namespace Registry

variable {registry : Registry σ} {name : Text}

/-- What a lookup finds is registered under a name with the same capitals. -/
theorem isName_capitals_of_resolve (wellNamed : registry.WellNamed)
    (found : (registry.resolve name).isSome = true) : isName name.capitals = true := by
  obtain ⟨action, same⟩ := Option.isSome_iff_exists.mp found
  obtain ⟨entry, first, _⟩ := Option.map_eq_some_iff.mp same
  have capitals : entry.name.capitals = name.capitals := by
    simpa using List.find?_some first
  rw [← capitals]
  exact Placeholder.isName_capitals
    (wellNamed.named _ (mem_names (List.mem_of_find?_eq_some first)))

private theorem resolve_capitals (named : isName name.capitals = true) :
    registry.resolve name.capitals = registry.resolve name := by
  rw [resolve, resolve, Text.capitals_capitals (Placeholder.isName_iff.mp named).2]

private theorem register_duplicate_iff {action : Action σ} :
    registry.register (.text name) (.action action) = .error (.duplicateFunction name) ↔
      isName name = true ∧ (registry.resolve name).isSome = true := by
  constructor
  · intro refused
    unfold register at refused
    dsimp only at refused
    split at refused
    · cases refused
    · split at refused
      · cases refused
      · next named =>
          split at refused
          · next taken => exact ⟨by simpa using named, taken⟩
          · cases refused
  · rintro ⟨named, taken⟩
    simp [register, Placeholder.isBlank_of_isName named, named, taken]

/-- A text is found exactly when its capitals are a name that is taken. -/
theorem resolve_isSome_iff (wellNamed : registry.WellNamed) (action : Action σ) :
    (registry.resolve name).isSome = true ↔
      registry.register (.text name.capitals) (.action action) =
        .error (.duplicateFunction name.capitals) := by
  rw [register_duplicate_iff]
  constructor
  · intro found
    have named := isName_capitals_of_resolve wellNamed found
    exact ⟨named, by rwa [resolve_capitals named]⟩
  · rintro ⟨named, taken⟩
    rwa [resolve_capitals named] at taken

/-- No function can be registered under a text with a letter that only its capitals bring into
ASCII. -/
theorem register_folded {candidate : Candidate σ} {point : CodePoint} (member : point ∈ name)
    (folded : point ∈ CodePoint.folded) :
    registry.register (.text name) candidate = .error (.argument (.invalidName name)) := by
  have visible : Text.isBlank name = false := by
    rw [Text.isBlank, List.all_eq_false]
    exact ⟨point, member, by simp [CodePoint.not_isBlank_of_folded point folded]⟩
  have unnamed : isName name = false := by
    rw [← Bool.not_eq_true]
    intro named
    have part := (Placeholder.isName_iff.mp named).2 point member
    rw [CodePoint.not_isNamePart_of_folded point folded] at part
    cases part
  simp [register, visible, unnamed]

end Registry

namespace Session

/-- However a registry is used, a text without a folded letter is found exactly when registering a
function under it is refused since it is taken, so it is a name. A text with a folded letter is
always refused as no name, and found exactly when its capitals are taken. -/
theorem lookup_agrees_with_registration (host : Host σ) (clock : Clock) (builtIn : Bool) (world : σ)
    (operations : List (Operation σ)) :
    let registry := ((start host clock builtIn world).run operations).2.registry
    (∀ (name : Text) (action : Action σ), (∀ point ∈ name, point ∉ CodePoint.folded) →
      ((registry.resolve name).isSome = true ↔
        registry.register (.text name) (.action action) = .error (.duplicateFunction name)) ∧
      (isName name = false → registry.resolve name = none)) ∧
    ∀ (name : Text) (action : Action σ), (∃ point ∈ name, point ∈ CodePoint.folded) →
      registry.register (.text name) (.action action) = .error (.argument (.invalidName name)) ∧
      ((registry.resolve name).isSome = true ↔
        registry.register (.text name.capitals) (.action action) =
          .error (.duplicateFunction name.capitals)) := by
  intro registry
  have wellNamed : registry.WellNamed :=
    (run_entries (wellNamed_start host clock builtIn world) operations).1
  refine ⟨fun name action plain => ?_, fun name action special => ?_⟩
  · have named : (registry.resolve name).isSome = true → isName name = true := fun found =>
      Placeholder.isName_of_capitals (Registry.isName_capitals_of_resolve wellNamed found) plain
    refine ⟨?_, fun unnamed => ?_⟩
    · rw [Registry.register_duplicate_iff]
      exact ⟨fun found => ⟨named found, found⟩, And.right⟩
    · rw [← Option.not_isSome_iff_eq_none]
      intro found
      rw [named found] at unnamed
      cases unnamed
  · obtain ⟨point, member, folded⟩ := special
    exact ⟨Registry.register_folded member folded, Registry.resolve_isSome_iff wellNamed action⟩

/-- A dotless i stands in no name, but its capital does. -/
theorem dotless_i_is_found :
    let action : Action Unit := fun calls => (.text (lit "x"), calls)
    let registry : Registry Unit := ⟨[⟨lit "ID", action⟩]⟩
    let name := lit "\u0131d"
    Registry.empty.register (.text (lit "ID")) (.action action) = .ok registry ∧
      ¬ ((registry.resolve name).isSome = true ↔
        registry.register (.text name) (.action action) = .error (.duplicateFunction name)) ∧
      Placeholder.scan (Placeholder.spelling (.call name)) = none := by
  intro action registry name
  have registered : Registry.empty.register (.text (lit "ID")) (.action action) = .ok registry := by
    cbv
  have found : (registry.resolve name).isSome = true := by
    cbv
  have refused : registry.register (.text name) (.action action) =
      .error (.argument (.invalidName name)) :=
    Registry.register_folded List.mem_cons_self (by decide)
  have unspelled : Placeholder.scan (Placeholder.spelling (.call name)) = none := by
    cbv
  refine ⟨registered, fun same => ?_, unspelled⟩
  have duplicate := same.mp found
  rw [refused] at duplicate
  cases duplicate

end Session

end JsonTemplate

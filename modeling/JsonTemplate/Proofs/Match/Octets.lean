import JsonTemplate.Proofs.Match.Calls
import JsonTemplate.Proofs.Match.PlaceholderFree
import JsonTemplate.Proofs.Text.Utf8
import Mathlib

set_option autoImplicit false

/-!
# Templates in octets

A template that is handed in as octets is the text that they are decoded to, but its bare captures
are not quoted. Only a template that cannot be read without their quotes is treated differently.
-/

namespace JsonTemplate

private theorem Document.read_octets {content : List UInt8} {text : Text}
    (decoded : Utf8.decode content = .ok text)
    (unmarked : text.head? ≠ some (.scalar '\uFEFF')) (source : Option Text) :
    (Document.octets content).read source = (Document.text text).read source := by
  simp only [read, Json.readOctets, Utf8.dropMark_eq decoded unmarked, decoded]

namespace Match

variable {σ : Type}

/-- A match goes by what is read from the template, and by how captures are kept. -/
theorem run_of_same_reading (registry : Registry σ) {config other : MatchConfig}
    (policy : config.capturePolicy = other.capturePolicy) (mode : Mode)
    {expected given : Document}
    (same : (prepare config expected).read (some (lit "expected")) =
      (prepare other given).read (some (lit "expected")))
    (actual : Document) (world : σ) :
    run registry config mode expected actual world =
      run registry other mode given actual world := by
  have both : readBoth config expected actual = readBoth other given actual := by
    rw [readBoth, same, readBoth]
  have compared : ∀ template document,
      compareTrees config mode template document = compareTrees other mode template document := by
    intro template document
    rw [compareTrees, policy, compareTrees]
  simp only [run, both, compared]

/-- A text that quoting changes cannot be read. -/
theorem unread_of_quoted {text : Text} (changed : Placeholder.quoteBare text ≠ text)
    (source : Option Text) : ∃ failure, (Document.text text).read source = .error failure := by
  cases read : (Document.text text).read source with
  | error failure => exact ⟨failure, rfl⟩
  | ok value =>
      have spelled := Json.readText_sound (ok_of_mapError read)
      exact absurd (Placeholder.quoteBare_document spelled) changed

/-- Every text without surrogates and without the mark of the byte order in front has octets, and
they match as the text does when bare captures are not quoted. So they match as the text itself does
unless quoting is wanted and changes the text; then the octets are refused as the unquoted text is,
before the document is looked at and without a call. -/
theorem run_octets (registry : Registry σ) (config : MatchConfig) (mode : Mode) {text : Text}
    (whole : ∀ point ∈ text, Utf8.Whole point)
    (unmarked : text.head? ≠ some (.scalar '\uFEFF')) (actual : Document) (world : σ) :
    ∃ content, Utf8.encode? text = some content ∧
      run registry config mode (.octets content) actual world =
        run registry ⟨config.capturePolicy, false⟩ mode (.text text) actual world ∧
      (config.quoteBare = false ∨ Placeholder.quoteBare text = text →
        run registry config mode (.octets content) actual world =
          run registry config mode (.text text) actual world) ∧
      (Placeholder.quoteBare text ≠ text → ∃ failure,
        (Document.text text).read (some (lit "expected")) = .error failure ∧
        run registry config mode (.octets content) actual world = (.error failure, world)) := by
  obtain ⟨content, encoded, decoded⟩ := Utf8.encode?_decoded whole
  have read := Document.read_octets decoded unmarked (some (lit "expected"))
  refine ⟨content, encoded, ?_, ?_, ?_⟩
  · exact run_of_same_reading registry (by rfl) mode (by exact read) actual world
  · intro unchanged
    refine run_of_same_reading registry rfl mode ?_ actual world
    have quoted : (if config.quoteBare then Placeholder.quoteBare text else text) = text := by
      rcases unchanged with off | fixed
      · simp [off]
      · rw [fixed, ite_self]
    rw [prepare, quoted]
    exact read
  · intro changed
    obtain ⟨failure, unread⟩ := unread_of_quoted changed (some (lit "expected"))
    refine ⟨failure, unread, ?_⟩
    exact run_of_unread_template registry mode actual world (read.trans unread)

/-- A capture between quotes, in octets that are more than the positions of the text. -/
theorem run_octets_accented :
    ∃ content, Utf8.encode? (lit "[\"é\", \"[[A]]\"]") = some content ∧ content.length = 15 ∧
      run Registry.empty .default .exact (.octets content) (.text (lit "[\"é\", true]")) () =
        (.ok ⟨.exact, [], [(lit "A", .boolean true)]⟩, ()) := by
  have whole : ∀ point ∈ lit "[\"é\", \"[[A]]\"]", Utf8.Whole point := by
    intro point member
    obtain ⟨character, _, rfl⟩ := List.mem_map.mp member
    exact ⟨character, rfl⟩
  obtain ⟨content, encoded, _, same, _⟩ :=
    run_octets Registry.empty .default .exact whole (by decide) (.text (lit "[\"é\", true]")) ()
  have listed : Utf8.encode? (lit "[\"é\", \"[[A]]\"]") = some [0x5B, 0x22, 0xC3, 0xA9, 0x22, 0x2C,
      0x20, 0x22, 0x5B, 0x5B, 0x41, 0x5D, 0x5D, 0x22, 0x5D] := by
    cbv
  refine ⟨content, encoded, ?_, ?_⟩
  · rw [listed] at encoded
    cases encoded
    rfl
  · rw [same (.inr (by cbv))]
    cbv

/-- A bare capture in a text captures; in octets it is refused. -/
theorem run_bare_octets :
    Utf8.encode? (lit "[[A]]") = some [0x5B, 0x5B, 0x41, 0x5D, 0x5D] ∧
      run Registry.empty .default .exact (.text (lit "[[A]]")) (.text (lit "true")) () =
        (.ok ⟨.exact, [], [(lit "A", .boolean true)]⟩, ()) ∧
      run Registry.empty .default .exact (.octets [0x5B, 0x5B, 0x41, 0x5D, 0x5D])
          (.text (lit "true")) () =
        (.error (.reported (.parse (some (lit "expected"))
          (.malformed .expectingValue ⟨1, 3⟩))), ()) := by
  exact ⟨by cbv, by cbv, run_of_unread_template Registry.empty .exact _ () (by rfl)⟩

end Match

end JsonTemplate

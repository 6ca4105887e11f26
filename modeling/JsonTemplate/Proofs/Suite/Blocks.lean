import JsonTemplate.Proofs.Data.Kept
import JsonTemplate.Proofs.Suite.Inline
import JsonTemplate.Suite.Run

set_option autoImplicit false

/-!
# Settings and functions of a document

Which blocks of settings, clocks and functions end the building of a suite with a failure that is
not reported: those of the wrong type, and integers that are too long.
-/

namespace JsonTemplate

namespace Suite

open Data (Keeps Writable EntryFor counts parts? members?)

variable {σ : Type} {pool : Data.Pool} {value : Json} {data : Data} {escape : Escape}

/-! ## Steps that report their errors -/

def Reporting {α : Type} (outcome : Except Failure α) : Prop :=
  ∀ escape, outcome ≠ .error (.escaped escape)

theorem escaped_iff_of_reporting {α β : Type} {first : Except Failure α}
    {next : α → Except Failure β} (reporting : ∀ value, Reporting (next value)) :
    first >>= next = .error (.escaped escape) ↔ first = .error (.escaped escape) := by
  rw [bind_eq_error_iff, or_iff_left]
  rintro ⟨value, _, failed⟩
  exact reporting value escape failed

private theorem reporting_mapError {α : Type} (outcome : Except Error α) :
    Reporting (outcome.mapError Failure.reported) := by
  intro escape failed
  obtain ⟨error, _, same⟩ := error_of_mapError failed
  cases same

theorem shownOf_kept (keeps : Keeps pool value data) :
    Decided (Writable value) (.escaped (.unshowable .integerTooLong)) (shownOf pool data) :=
  (Data.show?_held keeps.holds (keeps.shallow.trans_lt (by decide))).mapError fun cause =>
    Failure.escaped (.unshowable cause)

private theorem misshapen_iff {α : Type} {condition : Prop} [Decidable condition]
    {fault : ShapeFault}
    {result : α} :
    (if condition then .error (misshapen fault) else .ok result) =
        (.error (.escaped escape) : Except Failure α) ↔ condition ∧ escape = .shape fault := by
  split <;> simp_all [misshapen, eq_comm]

theorem escaped_iff_of_decided {α : Type} {condition : Prop} {cause : Escape}
    {outcome : Except Failure α} (decided : Decided condition (.escaped cause) outcome) :
    outcome = .error (.escaped escape) ↔ ¬ condition ∧ escape = cause := by
  rw [decided.error_iff, Failure.escaped.injEq]

/-! ## The settings -/

/-- A block of settings is of no use: it counts as given and is no object. A string or an array
does no harm unless it mentions a key. Or the policy has an integer that is too long to be shown. -/
inductive ConfigFault : Json → Escape → Prop where
  | scalar {block : Json} : counts block = true → parts? block = none →
      ConfigFault block (.shape .configNotMapping)
  | string {text key : Text} : key ∈ [policyKey, quotingKey] → text.includes key = true →
      ConfigFault (.string text) (.shape .configNotMapping)
  | array {items : List Json} {key : Text} : key ∈ [policyKey, quotingKey] →
      .string key ∈ items → ConfigFault (.array items) (.shape .configNotMapping)
  | policy {members : List (Text × Json)} {given : Json} :
      members.lookup policyKey = some given → ¬ Writable given →
      ConfigFault (.object members) (.unshowable .integerTooLong)

private theorem policyOf_escapes_iff (keeps : Keeps pool value data) :
    policyOf pool data = .error (.escaped escape) ↔
      ¬ Writable value ∧ escape = .unshowable .integerTooLong := by
  rw [← escaped_iff_of_decided (shownOf_kept keeps)]
  refine escaped_iff_of_reporting fun shown escape => ?_
  dsimp only
  split
  · nofun
  · split <;> nofun

private theorem settingsOfEntries_escapes_iff {members : List (Text × Json)}
    {entries : List (Data × Data)}
    (each : List.Forall₂ (EntryFor (Keeps pool)) members entries) :
    settingsOfEntries pool entries = .error (.escaped escape) ↔
      ∃ given, members.lookup policyKey = some given ∧ ¬ Writable given ∧
        escape = .unshowable .integerTooLong := by
  have found := Data.lookup?_related each policyKey
  rw [settingsOfEntries]
  generalize members.lookup policyKey = member at found
  generalize Data.lookup? entries policyKey = entry at found
  cases found with
  | none => exact iff_of_false nofun nofun
  | some keeps =>
      refine (escaped_iff_of_reporting fun policy escape => ?_).trans ?_
      · exact fun failed => by cases failed
      · simpa using policyOf_escapes_iff keeps

private theorem mentionsKey_kept {items : List Json} {held : List Data}
    (each : List.Forall₂ (Keeps pool) items held) :
    mentionsKey held = true ↔ ∃ key ∈ [policyKey, quotingKey], .string key ∈ items := by
  have mentioned : ∀ key, (∃ part ∈ held, part.sameKey (.text key) = true) ↔
      .string key ∈ items := by
    intro key
    constructor
    · rintro ⟨part, member, same⟩
      obtain ⟨item, included, keeps⟩ := exists_of_mem_right each part member
      rwa [← (Data.sameKey_text_iff keeps.holds).mp same]
    · intro member
      obtain ⟨part, included, keeps⟩ := exists_of_mem_left each _ member
      exact ⟨part, included, (Data.sameKey_text_iff keeps.holds).mpr rfl⟩
  simp [mentionsKey, ← mentioned, and_or_left, exists_or]

private theorem settingsOf_scalar (keeps : Keeps pool value data) (scalar : parts? value = none) :
    settingsOf pool data =
      if counts value = true then .error (misshapen .configNotMapping) else .ok .default := by
  rw [← Data.isTrue_held keeps.holds, settingsOf]
  cases value with
  | null | boolean => cases keeps.holds; cases Data.isTrue pool _ <;> rfl
  | number number => cases keeps.holds; cases number <;> cases Data.isTrue pool _ <;> rfl
  | string | array | object => cases scalar

private theorem settingsOf_text (content : Text) :
    settingsOf pool (.text content) =
      if content.includes policyKey || content.includes quotingKey then
        .error (misshapen .configNotMapping) else .ok .default := by
  cases content <;> rfl

private theorem settingsOf_list {held : List Data} (opened : data.opened pool = .list held) :
    settingsOf pool data =
      if mentionsKey held then .error (misshapen .configNotMapping) else .ok .default := by
  rw [settingsOf, Data.isTrue, opened]
  cases held <;> rfl

private theorem settingsOf_mapping {entries : List (Data × Data)}
    (opened : data.opened pool = .mapping entries) :
    settingsOf pool data = settingsOfEntries pool entries := by
  rw [settingsOf, Data.isTrue, opened]
  cases entries <;> rfl

theorem settingsOf_escapes_iff (keeps : Keeps pool value data) :
    settingsOf pool data = .error (.escaped escape) ↔ ConfigFault value escape := by
  cases value with
  | null | boolean | number =>
      rw [settingsOf_scalar keeps rfl, misshapen_iff]
      constructor
      · rintro ⟨given, rfl⟩
        exact .scalar given rfl
      · rintro ⟨given⟩
        exact ⟨given, rfl⟩
  | string content =>
      cases keeps.holds
      rw [settingsOf_text, misshapen_iff]
      constructor
      · rintro ⟨mentioned, rfl⟩
        rcases Bool.or_eq_true_iff.mp mentioned with first | second
        · exact .string (by simp) first
        · exact .string (List.mem_cons_of_mem _ (by simp)) second
      · intro fault
        cases fault with
        | string key included =>
            refine ⟨?_, rfl⟩
            rcases List.mem_cons.mp key with rfl | key
            · simp [included]
            · cases List.mem_singleton.mp key
              simp [included]
        | scalar _ none => cases none
  | array items =>
      obtain ⟨held, opened, each⟩ := keeps.list
      rw [settingsOf_list opened, misshapen_iff, mentionsKey_kept each]
      constructor
      · rintro ⟨⟨key, listed, member⟩, rfl⟩
        exact .array listed member
      · intro fault
        cases fault with
        | array listed member => exact ⟨⟨_, listed, member⟩, rfl⟩
        | scalar _ none => cases none
  | object members =>
      obtain ⟨entries, opened, each⟩ := keeps.entries
      rw [settingsOf_mapping opened, settingsOfEntries_escapes_iff each]
      constructor
      · rintro ⟨given, found, long, rfl⟩
        exact .policy found long
      · intro fault
        cases fault with
        | policy found long => exact ⟨_, found, long, rfl⟩
        | scalar _ none => cases none

/-! ## The registry -/

private theorem clockOf_escapes_iff (keeps : Keeps pool value data) :
    clockOf pool data = .error (.escaped escape) ↔
      ¬ Writable value ∧ escape = .unshowable .integerTooLong := by
  rw [← escaped_iff_of_decided (shownOf_kept keeps)]
  have shows : value ≠ .null → clockOf pool data =
      shownOf pool data >>= fun shown => (Clock.ofText shown .utc).mapError .reported := by
    intro given
    cases value with
    | null => exact absurd rfl given
    | boolean | string => cases keeps.holds; rfl
    | number number => cases keeps.holds; cases number <;> rfl
    | array items =>
        obtain ⟨held, opened, _⟩ := keeps.list
        cases data <;> (try cases opened) <;> rfl
    | object members =>
        obtain ⟨entries, opened, _⟩ := keeps.entries
        cases data <;> (try cases opened) <;> rfl
  by_cases null : value = .null
  · subst null
    cases keeps.holds
    exact iff_of_false nofun nofun
  · rw [shows null]
    exact escaped_iff_of_reporting fun shown => reporting_mapError _

private theorem constant_kept (keeps : Keeps pool value data) :
    Decided (Writable value) (misshapen (.notWritable .integerTooLong))
      (constant pool data : Except Failure (Action σ)) :=
  (Case.inlineText_held keeps.holds keeps.shallow).total fun _ => ⟨_, rfl⟩

private theorem addConstants_cons (registry : Registry σ) (name : Text) (data : Data)
    (rest : List (Data × Data)) :
    addConstants pool registry ((.text name, data) :: rest) =
      constant pool data >>= fun action =>
        (registry.register (.text name) (.action action)).mapError .reported >>= fun next =>
          addConstants pool next rest := rfl

/-- The first constant that is not registered counts. Unless it is an integer that is too long, the
error is reported. -/
theorem addConstants_escapes_iff {members : List (Text × Json)} {entries : List (Data × Data)}
    (each : List.Forall₂ (EntryFor (Keeps pool)) members entries) {registry : Registry σ} :
    addConstants pool registry entries = .error (.escaped escape) ↔
      ∃ before name data after value built, entries = before ++ (name, data) :: after ∧
        addConstants pool registry before = .ok built ∧ Keeps pool value data ∧
        ¬ Writable value ∧ escape = .shape (.notWritable .integerTooLong) := by
  induction each generalizing registry with
  | nil =>
      refine ⟨nofun, ?_⟩
      rintro ⟨before, name, data, after, value, built, split, _⟩
      cases before <;> cases split
  | @cons member entry members rest here _ ih =>
      obtain ⟨spelling, data⟩ := entry
      obtain ⟨rfl, keeps⟩ := here
      rw [addConstants_cons]
      constructor
      · intro failed
        rcases bind_eq_error_iff.mp failed with long | ⟨action, given, failed⟩
        · obtain ⟨long, same⟩ := (escaped_iff_of_decided (constant_kept keeps)).mp long
          exact ⟨[], _, data, rest, _, registry, rfl, rfl, keeps, long, same⟩
        · rcases bind_eq_error_iff.mp failed with refused | ⟨next, registered, failed⟩
          · exact absurd refused (reporting_mapError _ escape)
          · obtain ⟨before, name, part, after, value, built, rfl, done, found⟩ := ih.mp failed
            refine ⟨(_, data) :: before, name, part, after, value, built, rfl, ?_, found⟩
            rw [addConstants_cons, bind_eq_ok_iff]
            exact ⟨action, given, bind_eq_ok_iff.mpr ⟨next, registered, done⟩⟩
      · rintro ⟨before, name, part, after, value, built, split, done, keeps, long, rfl⟩
        cases before with
        | nil =>
            cases split
            exact bind_eq_error_iff.mpr
              (.inl ((escaped_iff_of_decided (constant_kept keeps)).mpr ⟨long, rfl⟩))
        | cons earlier before =>
            cases split
            rw [addConstants_cons] at done
            obtain ⟨action, given, done⟩ := ok_of_bind done
            obtain ⟨next, registered, done⟩ := ok_of_bind done
            have later := ih.mpr
              ⟨before, name, part, after, value, built, rfl, done, keeps, long, rfl⟩
            exact bind_eq_error_iff.mpr (.inr ⟨action, given,
              bind_eq_error_iff.mpr (.inr ⟨next, registered, later⟩)⟩)

/-- What goes wrong with the clock and the functions of a suite: an integer to be shown or written
is too long, or the functions count as given and are no object. -/
inductive RegistryFault (host : Host σ) (pool : Data.Pool) (entries : List (Data × Data)) :
    Escape → Prop where
  | clock {value : Json} :
      Keeps pool value (Data.lookupD entries (lit "clock")) → ¬ Writable value →
      RegistryFault host pool entries (.unshowable .integerTooLong)
  | functions {clock : Clock} {value : Json} :
      clockOf pool (Data.lookupD entries (lit "clock")) = .ok clock →
      Keeps pool value (Data.lookupD entries (lit "functions")) → counts value = true →
      members? value = none →
      RegistryFault host pool entries (.shape .functionsNotMapping)
  | constant {clock : Clock} {before after : List (Data × Data)} {name data : Data} {value : Json}
      {built : Registry σ} :
      clockOf pool (Data.lookupD entries (lit "clock")) = .ok clock →
      (Data.lookupD entries (lit "functions")).entries? pool =
        some (before ++ (name, data) :: after) →
      addConstants pool (.builtins host clock) before = .ok built →
      Keeps pool value data → ¬ Writable value →
      RegistryFault host pool entries (.shape (.notWritable .integerTooLong))

private theorem registryOf_eq (host : Host σ) (entries : List (Data × Data)) :
    registryOf host pool entries =
      clockOf pool (Data.lookupD entries (lit "clock")) >>= fun clock =>
        if (Data.lookupD entries (lit "functions")).isTrue pool = true then
          match (Data.lookupD entries (lit "functions")).entries? pool with
          | some functions => addConstants pool (.builtins host clock) functions
          | none => .error (misshapen .functionsNotMapping)
        else .ok (.builtins host clock) := by
  rw [registryOf]
  congr 1
  funext clock
  dsimp only
  cases (Data.lookupD entries (lit "functions")).isTrue pool <;> rfl

theorem registryOf_escapes_iff {members : List (Text × Json)} {entries : List (Data × Data)}
    (each : List.Forall₂ (EntryFor (Keeps pool)) members entries) (host : Host σ) :
    registryOf host pool entries = .error (.escaped escape) ↔
      RegistryFault host pool entries escape := by
  have clockKept := Data.getD_related each .null (lit "clock")
  have functionsKept := Data.getD_related each .null (lit "functions")
  rw [registryOf_eq, bind_eq_error_iff]
  constructor
  · rintro (failed | ⟨clock, made, failed⟩)
    · obtain ⟨long, rfl⟩ := (clockOf_escapes_iff clockKept).mp failed
      exact .clock clockKept long
    · split at failed
      · next given =>
          split at failed
          · next functions listed =>
              obtain ⟨sources, _, all⟩ := related_of_some (Data.entries?_kept functionsKept) listed
              obtain ⟨before, name, data, after, value, built, rfl, done, keeps, long, rfl⟩ :=
                (addConstants_escapes_iff all).mp failed
              exact .constant made listed done keeps long
          · next unlisted =>
              cases failed
              exact .functions made functionsKept
                ((Data.isTrue_held functionsKept.holds).symm.trans given)
                ((eq_none_iff_of_related (Data.entries?_kept functionsKept)).mpr unlisted)
      · cases failed
  · intro fault
    cases fault with
    | clock keeps long => exact .inl ((clockOf_escapes_iff keeps).mpr ⟨long, rfl⟩)
    | @functions clock value made keeps given other =>
        refine .inr ⟨clock, made, ?_⟩
        rw [if_pos ((Data.isTrue_held keeps.holds).trans given),
          (eq_none_iff_of_related (Data.entries?_kept keeps)).mp other]
        rfl
    | @constant clock before after name data value built made listed done keeps long =>
        obtain ⟨sources, _, all⟩ := related_of_some (Data.entries?_kept functionsKept) listed
        refine .inr ⟨clock, made, ?_⟩
        rw [if_pos (by rw [Data.isTrue_of_entries? listed]; simp), listed]
        exact (addConstants_escapes_iff all).mpr
          ⟨before, name, data, after, value, built, rfl, done, keeps, long, rfl⟩

end Suite

end JsonTemplate

import JsonTemplate.CommandLine.Run
import JsonTemplate.Proofs.Suite.Blocks
import JsonTemplate.Proofs.Text.Utf8

set_option autoImplicit false

/-!
# Building a suite

A suite that is given as a document is built, or an error is reported, or building it ends with a
failure that is not reported. That failure comes from a block of the wrong type or an integer that
is too long, and only if nothing before it is refused.
-/

namespace JsonTemplate

namespace Suite

open Data (Keeps Writable EntryFor counts parts? members?)

variable {σ : Type} {pool : Data.Pool} {value : Json} {data : Data} {escape : Escape}

/-! ## The cases -/

/-- What cannot be a capture with its value: something that is not gone through, or has not two
parts, or has a first part that is no key. -/
inductive PairFault : Option (List Json) → ShapeFault → Prop where
  | none : PairFault none .capturesNotIterable
  | count {parts : List Json} : parts.length ≠ 2 → PairFault (some parts) .captureNotPair
  | key {key value : Json} : key.nesting ≠ 0 → PairFault (some [key, value]) .captureKeyNotUsable

/-- A block of expected captures is of no use: it counts as given, and is neither an object nor
gone through as captures with their values. The first part that is none counts. -/
inductive CapturesFault : Json → ShapeFault → Prop where
  | scalar {block : Json} : counts block = true → parts? block = none →
      CapturesFault block .capturesNotIterable
  | pair {block item : Json} {before after : List Json} {fault : ShapeFault} :
      members? block = none → parts? block = some (before ++ item :: after) →
      (∀ earlier ∈ before, ∀ other, ¬ PairFault (parts? earlier) other) →
      PairFault (parts? item) fault → CapturesFault block fault

private theorem pairOf_error_iff (keeps : Keeps pool value data) {failure : Failure} :
    Case.pairOf pool data = .error failure ↔
      ∃ fault, PairFault (parts? value) fault ∧ failure = misshapen fault := by
  have related := Data.items?_kept keeps
  rw [Case.pairOf]
  generalize parts? value = parts at related
  generalize data.items? pool = items at related
  have refused : ∀ parts : Option (List Json), ∀ fault, PairFault parts fault →
      (∀ other, PairFault parts other → other = fault) →
      (Except.error (misshapen fault) = (.error failure : Except Failure (Data × Data)) ↔
        ∃ fault, PairFault parts fault ∧ failure = misshapen fault) := by
    intro parts fault here only
    constructor
    · rintro ⟨⟩
      exact ⟨fault, here, rfl⟩
    · rintro ⟨other, there, rfl⟩
      rw [only other there]
  cases related with
  | none => exact refused _ _ .none (by rintro _ ⟨⟩; rfl)
  | some each =>
      cases each with
      | nil => exact refused _ _ (.count nofun) (by rintro _ ⟨⟩; rfl)
      | cons first rest =>
          cases rest with
          | nil => exact refused _ _ (.count nofun) (by rintro _ ⟨⟩; rfl)
          | cons second others =>
              cases others with
              | cons => exact refused _ _ (.count nofun) (by rintro _ ⟨⟩; rfl)
              | nil =>
                  dsimp only
                  split
                  · next usable =>
                      refine iff_of_false nofun ?_
                      rintro ⟨_, fault, _⟩
                      cases fault with
                      | count uneven => exact uneven rfl
                      | key nested => exact nested ((Data.canBeKey_held first.holds).mp usable)
                  · next unusable =>
                      refine refused _ _ (.key fun flat => ?_) ?_
                      · exact unusable ((Data.canBeKey_held first.holds).mpr flat)
                      · intro other fault
                        cases fault with
                        | count uneven => exact absurd rfl uneven
                        | key => rfl

private theorem capturesOf_escapes_iff (keeps : Keeps pool value data) :
    Case.capturesOf pool data = .error (.escaped escape) ↔
      ∃ fault, CapturesFault value fault ∧ escape = .shape fault := by
  have entries := eq_none_iff_of_related (Data.entries?_kept keeps)
  have items := eq_none_iff_of_related (Data.items?_kept keeps)
  have pairs : ∀ {parts : List Json} {held : List Data}, List.Forall₂ (Keeps pool) parts held →
      List.Forall₂ (fun part data => ∀ failure, Case.pairOf pool data = .error failure ↔
        ∃ fault, PairFault (parts? part) fault ∧ failure = misshapen fault) parts held :=
    fun each => each.imp fun _ _ keeps _ => pairOf_error_iff keeps
  constructor
  · intro failed
    rw [Case.capturesOf] at failed
    split at failed
    · cases failed
    · next given =>
        rw [Bool.not_not_eq, Data.isTrue_held keeps.holds] at given
        split at failed
        · cases failed
        · next unlisted scalar =>
            cases failed
            exact ⟨_, .scalar given (items.mpr scalar), rfl⟩
        · next held unlisted listed =>
            obtain ⟨parts, found, each⟩ := related_of_some (Data.items?_kept keeps) listed
            obtain stopped | ⟨_, _, impossible⟩ := bind_eq_error_iff.mp failed
            · obtain ⟨before, item, after, rfl, fine, fault, here, same⟩ :=
                (mapM_eq_error_iff (pairs each)).mp stopped
              cases same
              refine ⟨fault, .pair (entries.mpr unlisted) found ?_ here, rfl⟩
              exact fun earlier member other there => fine earlier member _ ⟨other, there, rfl⟩
            · cases impossible
  · rintro ⟨fault, here, rfl⟩
    rw [Case.capturesOf, Data.isTrue_held keeps.holds]
    cases here with
    | scalar given scalar =>
        rw [given, entries.mp (Data.members?_of_parts? scalar), items.mp scalar]
        rfl
    | @pair item before after _ unlisted found fine here =>
        have given : counts value = true := by
          rw [Data.counts_of_parts? found]
          simp
        cases listed : data.items? pool with
        | none => cases found.symm.trans (items.mpr listed)
        | some held =>
            obtain ⟨parts, same, each⟩ := related_of_some (Data.items?_kept keeps) listed
            cases found.symm.trans same
            have usable : ∀ earlier ∈ before, ∀ failure,
                ¬ ∃ fault, PairFault (parts? earlier) fault ∧ failure = misshapen fault := by
              rintro earlier member _ ⟨other, there, _⟩
              exact fine earlier member other there
            have stopped := (mapM_eq_error_iff (pairs each)).mpr
              ⟨before, item, after, rfl, usable, fault, here, rfl⟩
            rw [given, entries.mp unlisted]
            exact bind_eq_error_iff.mpr (.inl stopped)

/-- What goes wrong with a case that has all keys it must have: an integer to be shown or written is
too long, or the expected captures are of no use. Each part is looked at if those before it are
fine. -/
inductive PartFault (pool : Data.Pool) (entries : List (Data × Data)) (number : Int) :
    Escape → Prop where
  | mode {value : Json} :
      Case.present entries number = .ok () →
      Keeps pool value ((Data.lookup? entries (lit "mode")).getD (.text (lit "exact"))) →
      ¬ Writable value → PartFault pool entries number (.unshowable .integerTooLong)
  | name {mode : Mode} {data : Data} {value : Json} :
      Case.present entries number = .ok () → Case.givenMode pool entries number = .ok mode →
      Data.lookup? entries (lit "name") = some data → Keeps pool value data → ¬ Writable value →
      PartFault pool entries number (.unshowable .integerTooLong)
  | document {mode : Mode} {name key : Text} {value : Json} :
      Case.present entries number = .ok () → Case.givenMode pool entries number = .ok mode →
      Case.givenName pool entries number = .ok name → key ∈ Case.requiredKeys →
      Keeps pool value (Data.lookupD entries key) → ¬ Writable value →
      PartFault pool entries number (.shape (.notWritable .integerTooLong))
  | captures {mode : Mode} {name expected actual : Text} {value : Json} {fault : ShapeFault} :
      Case.present entries number = .ok () → Case.givenMode pool entries number = .ok mode →
      Case.givenName pool entries number = .ok name →
      Case.inlineText pool (Data.lookupD entries (lit "expected")) = .ok expected →
      Case.inlineText pool (Data.lookupD entries (lit "actual")) = .ok actual →
      Keeps pool value (Data.lookupD entries (lit "expect_captures")) →
      CapturesFault value fault → PartFault pool entries number (.shape fault)

variable {members : List (Text × Json)} {entries : List (Data × Data)} {number : Int}

private theorem reporting_present : Reporting (Case.present entries number) := by
  intro escape failed
  rw [Case.present] at failed
  split at failed <;> cases failed

private theorem givenMode_escapes_iff
    (keeps : Keeps pool value ((Data.lookup? entries (lit "mode")).getD (.text (lit "exact")))) :
    Case.givenMode pool entries number = .error (.escaped escape) ↔
      ¬ Writable value ∧ escape = .unshowable .integerTooLong := by
  rw [← escaped_iff_of_decided (shownOf_kept keeps)]
  refine escaped_iff_of_reporting fun given escape => ?_
  split <;> nofun

private theorem givenName_escapes_iff
    (each : List.Forall₂ (EntryFor (Keeps pool)) members entries) :
    Case.givenName pool entries number = .error (.escaped escape) ↔
      ∃ data value, Data.lookup? entries (lit "name") = some data ∧ Keeps pool value data ∧
        ¬ Writable value ∧ escape = .unshowable .integerTooLong := by
  rw [Case.givenName]
  split
  · next data found =>
      obtain ⟨value, _, keeps⟩ := related_of_some (Data.lookup?_related each _) found
      constructor
      · intro failed
        obtain ⟨long, same⟩ := (escaped_iff_of_decided (shownOf_kept keeps)).mp failed
        exact ⟨data, value, found, keeps, long, same⟩
      · rintro ⟨other, source, again, keeps, long, rfl⟩
        cases found.symm.trans again
        exact (escaped_iff_of_decided (shownOf_kept keeps)).mpr ⟨long, rfl⟩
  · next missing =>
      constructor
      · intro failed
        cases failed
      · rintro ⟨data, value, found, _⟩
        cases missing.symm.trans found

private theorem inlineText_escapes_iff (keeps : Keeps pool value data) :
    Case.inlineText pool data = .error (.escaped escape) ↔
      ¬ Writable value ∧ escape = .shape (.notWritable .integerTooLong) :=
  escaped_iff_of_decided (Case.inlineText_held keeps.holds keeps.shallow)

private theorem ofEntries_escapes_iff
    (each : List.Forall₂ (EntryFor (Keeps pool)) members entries) :
    Case.ofEntries pool entries number = .error (.escaped escape) ↔
      PartFault pool entries number escape := by
  have modeKept := Data.getD_related each (.string : Keeps pool _ (.text (lit "exact")))
    (lit "mode")
  have valueKept := fun key => Data.getD_related each .null key
  rw [Case.ofEntries_eq]
  constructor
  · intro failed
    obtain failed | ⟨_, complete, failed⟩ := bind_eq_error_iff.mp failed
    · exact absurd failed (reporting_present escape)
    obtain failed | ⟨mode, modeGiven, failed⟩ := bind_eq_error_iff.mp failed
    · obtain ⟨long, rfl⟩ := (givenMode_escapes_iff modeKept).mp failed
      exact .mode complete modeKept long
    obtain failed | ⟨name, named, failed⟩ := bind_eq_error_iff.mp failed
    · obtain ⟨data, value, found, keeps, long, rfl⟩ := (givenName_escapes_iff each).mp failed
      exact .name complete modeGiven found keeps long
    obtain failed | ⟨expected, written, failed⟩ := bind_eq_error_iff.mp failed
    · obtain ⟨long, rfl⟩ := (inlineText_escapes_iff (valueKept _)).mp failed
      exact .document complete modeGiven named (by simp [Case.requiredKeys]) (valueKept _) long
    obtain failed | ⟨actual, other, failed⟩ := bind_eq_error_iff.mp failed
    · obtain ⟨long, rfl⟩ := (inlineText_escapes_iff (valueKept _)).mp failed
      exact .document complete modeGiven named (by simp [Case.requiredKeys]) (valueKept _) long
    obtain failed | ⟨captures, _, failed⟩ := bind_eq_error_iff.mp failed
    · obtain ⟨fault, here, rfl⟩ := (capturesOf_escapes_iff (valueKept _)).mp failed
      exact .captures complete modeGiven named written other (valueKept _) here
    cases failed
  · intro fault
    cases fault with
    | mode complete keeps long =>
        exact error_after complete (error_at ((givenMode_escapes_iff keeps).mpr ⟨long, rfl⟩))
    | name complete modeGiven found keeps long =>
        exact error_after complete (error_after modeGiven
          (error_at ((givenName_escapes_iff each).mpr ⟨_, _, found, keeps, long, rfl⟩)))
    | @document mode name key value complete modeGiven named key keeps long =>
        refine error_after complete (error_after modeGiven (error_after named ?_))
        have failed := (inlineText_escapes_iff keeps).mpr ⟨long, rfl⟩
        rcases List.mem_cons.mp key with rfl | key
        · exact error_at failed
        · cases List.mem_singleton.mp key
          -- The expected document may have an integer that is too long as well.
          cases written : Case.inlineText pool (Data.lookupD entries (lit "expected")) with
          | ok expected => exact error_after rfl (error_at failed)
          | error failure =>
              obtain ⟨_, rfl⟩ := (Case.inlineText_held (valueKept (lit "expected")).holds
                (valueKept (lit "expected")).shallow).error_iff.mp written
              rfl
    | captures complete modeGiven named written other keeps here =>
        exact error_after complete (error_after modeGiven (error_after named
          (error_after written (error_after other
            (error_at ((capturesOf_escapes_iff keeps).mpr ⟨_, here, rfl⟩))))))

private theorem ofData_escapes_iff (keeps : Keeps pool value data) {index : Int} :
    Case.ofData pool data index = .error (.escaped escape) ↔
      ∃ entries, data.entries? pool = some entries ∧
        PartFault pool entries (index + 1) escape := by
  rw [Case.ofData]
  split
  · next entries listed =>
      obtain ⟨members, _, each⟩ := related_of_some (Data.entries?_kept keeps) listed
      rw [ofEntries_escapes_iff each]
      constructor
      · exact fun fault => ⟨entries, listed, fault⟩
      · rintro ⟨_, same, fault⟩
        cases listed.symm.trans same
        exact fault
  · next unlisted =>
      constructor
      · intro failed
        cases failed
      · rintro ⟨entries, listed, _⟩
        cases unlisted.symm.trans listed

def casesFrom (pool : Data.Pool) (items : List Data) : Except Failure (List Case) :=
  items.zipIdx.mapM fun (item, index) => Case.ofData pool item index

private theorem casesFrom_error_iff {items : List Data} {failure : Failure} :
    casesFrom pool items = .error failure ↔ ∃ before item after cases,
      items = before ++ item :: after ∧ casesFrom pool before = .ok cases ∧
        Case.ofData pool item before.length = .error failure := by
  have each : List.Forall₂ (fun source item : Data × Nat => ∀ failure,
      Case.ofData pool item.1 item.2 = .error failure ↔
        Case.ofData pool source.1 source.2 = .error failure) items.zipIdx items.zipIdx :=
    List.forall₂_same.mpr fun _ _ _ => Iff.rfl
  rw [casesFrom, mapM_eq_error_iff each]
  constructor
  · rintro ⟨before, ⟨item, index⟩, after, split, fine, failed⟩
    obtain ⟨earlier, rest, rfl, rfl, later⟩ := List.zipIdx_eq_append_iff.mp split
    obtain ⟨first, others, rfl, same, _⟩ := List.zipIdx_eq_cons_iff.mp later.symm
    cases same
    have done : ∃ cases, casesFrom pool earlier = .ok cases := by
      refine mapM_total fun source member => ?_
      cases made : Case.ofData pool source.1 source.2 with
      | ok entry => exact ⟨entry, made⟩
      | error other => exact absurd made (fine source member other)
    obtain ⟨cases, done⟩ := done
    exact ⟨earlier, item, others, cases, rfl, done, by simpa using failed⟩
  · rintro ⟨before, item, after, cases, rfl, done, failed⟩
    refine ⟨before.zipIdx, (item, before.length), after.zipIdx (before.length + 1), ?_, ?_, failed⟩
    · simp [List.zipIdx_append]
    · intro source member other stopped
      obtain ⟨entry, made⟩ := ok_of_mapM done source member
      cases made.symm.trans stopped

/-- What goes wrong with the cases: the block counts as given and is not gone through, or a case
goes wrong and all before it are fine. -/
inductive CasesFault (pool : Data.Pool) (block : Data) : Escape → Prop where
  | scalar {value : Json} : Keeps pool value block → counts value = true → parts? value = none →
      CasesFault pool block (.shape .casesNotList)
  | item {before after : List Data} {item : Data} {entries : List (Data × Data)}
      {cases : List Case} {escape : Escape} :
      block.items? pool = some (before ++ item :: after) → casesFrom pool before = .ok cases →
      item.entries? pool = some entries → PartFault pool entries (before.length + 1) escape →
      CasesFault pool block escape

private theorem casesOf_eq (block : Data) :
    casesOf pool block =
      if block.isTrue pool = true then
        match block.items? pool with
        | none => .error (misshapen .casesNotList)
        | some items => casesFrom pool items
      else .ok [] := by
  rw [casesOf]
  cases block.isTrue pool <;> rfl

private theorem casesOf_escapes_iff (keeps : Keeps pool value data) :
    casesOf pool data = .error (.escaped escape) ↔ CasesFault pool data escape := by
  have related := Data.items?_kept keeps
  rw [casesOf_eq]
  constructor
  · intro failed
    split at failed
    · next given =>
        rw [Data.isTrue_held keeps.holds] at given
        split at failed
        · next scalar =>
            cases failed
            exact .scalar keeps given ((eq_none_iff_of_related related).mpr scalar)
        · next items listed =>
            obtain ⟨parts, _, each⟩ := related_of_some related listed
            obtain ⟨before, item, after, cases, rfl, done, stopped⟩ :=
              casesFrom_error_iff.mp failed
            obtain ⟨part, _, inside⟩ := exists_of_mem_right each item (by simp)
            obtain ⟨entries, mapping, fault⟩ := (ofData_escapes_iff inside).mp stopped
            exact .item listed done mapping fault
    · cases failed
  · intro fault
    cases fault with
    | scalar holding given scalar =>
        rw [if_pos ((Data.isTrue_held holding.holds).trans given),
          (eq_none_iff_of_related (Data.items?_kept holding)).mp scalar]
        rfl
    | @item before after item entries cases _ listed done mapping fault =>
        obtain ⟨parts, found, each⟩ := related_of_some related listed
        obtain ⟨part, member, inside⟩ := exists_of_mem_right each item (by simp)
        have given : data.isTrue pool = true := by
          rw [Data.isTrue_held keeps.holds, Data.counts_of_parts? found]
          simp [List.ne_nil_of_mem member]
        rw [if_pos given, listed]
        exact casesFrom_error_iff.mpr ⟨before, item, after, cases, rfl, done,
          (ofData_escapes_iff inside).mpr ⟨entries, mapping, fault⟩⟩

/-! ## The suite -/

/-- What goes wrong with building a suite. Each block is looked at if those before it are fine, and
a registry that is given takes the place of the suite's own. -/
inductive Stuck (host : Host σ) (given : Option (Registry σ)) (pool : Data.Pool)
    (entries : List (Data × Data)) : Escape → Prop where
  | config {value : Json} {escape : Escape} :
      Keeps pool value (Data.lookupD entries (lit "config")) → ConfigFault value escape →
      Stuck host given pool entries escape
  | registry {config : MatchConfig} {escape : Escape} :
      settingsOf pool (Data.lookupD entries (lit "config")) = .ok config → given = none →
      RegistryFault host pool entries escape → Stuck host given pool entries escape
  | cases {config : MatchConfig} {escape : Escape} :
      settingsOf pool (Data.lookupD entries (lit "config")) = .ok config →
      (given = none → ∃ registry, registryOf host pool entries = .ok registry) →
      CasesFault pool (Data.lookupD entries (lit "cases")) escape →
      Stuck host given pool entries escape

private theorem ofData_eq (host : Host σ) (given : Option (Registry σ))
    (listed : data.entries? pool = some entries) :
    ofData host given pool data =
      settingsOf pool (Data.lookupD entries (lit "config")) >>= fun config =>
        given.elim (registryOf host pool entries) .ok >>= fun registry =>
          casesOf pool (Data.lookupD entries (lit "cases")) >>= fun cases =>
            .ok ⟨pool, config, registry, cases⟩ := by
  rw [ofData, listed]
  cases given <;> rfl

private theorem stuck_iff (each : List.Forall₂ (EntryFor (Keeps pool)) members entries)
    (host : Host σ)
    (given : Option (Registry σ)) (listed : data.entries? pool = some entries) :
    ofData host given pool data = .error (.escaped escape) ↔
      Stuck host given pool entries escape := by
  have valueKept := fun key => Data.getD_related each .null key
  rw [ofData_eq host given listed]
  constructor
  · intro failed
    obtain failed | ⟨config, settings, failed⟩ := bind_eq_error_iff.mp failed
    · exact .config (valueKept _) ((settingsOf_escapes_iff (valueKept _)).mp failed)
    obtain failed | ⟨registry, made, failed⟩ := bind_eq_error_iff.mp failed
    · cases given with
      | some registry => cases failed
      | none => exact .registry settings rfl ((registryOf_escapes_iff each host).mp failed)
    obtain failed | ⟨cases, _, failed⟩ := bind_eq_error_iff.mp failed
    · refine .cases settings ?_ ((casesOf_escapes_iff (valueKept _)).mp failed)
      rintro rfl
      exact ⟨registry, made⟩
    cases failed
  · intro stuck
    cases stuck with
    | config keeps fault => exact error_at ((settingsOf_escapes_iff keeps).mpr fault)
    | registry settings missing fault =>
        subst missing
        exact error_after settings (error_at ((registryOf_escapes_iff each host).mpr fault))
    | cases settings made fault =>
        have failed := (casesOf_escapes_iff (valueKept _)).mpr fault
        cases given with
        | some registry => exact error_after settings (error_after rfl (error_at failed))
        | none =>
            obtain ⟨registry, made⟩ := made rfl
            exact error_after settings (error_after made (error_at failed))

private theorem ofData_unlisted (host : Host σ) (given : Option (Registry σ))
    (unlisted : data.entries? pool = none) :
    ofData host given pool data = .error (.reported (.argument .suiteNotMapping)) := by
  rw [ofData, unlisted]

def GoesWrong (host : Host σ) (given : Option (Registry σ)) (pool : Data.Pool) (data : Data)
    (escape : Escape) : Prop :=
  ∃ entries, data.entries? pool = some entries ∧ Stuck host given pool entries escape

private theorem goesWrong_iff (keeps : Keeps pool value data) (host : Host σ)
    (given : Option (Registry σ)) :
    ofData host given pool data = .error (.escaped escape) ↔
      GoesWrong host given pool data escape := by
  constructor
  · intro failed
    cases listed : data.entries? pool with
    | none =>
        rw [ofData_unlisted host given listed] at failed
        cases failed
    | some entries =>
        obtain ⟨members, _, each⟩ := related_of_some (Data.entries?_kept keeps) listed
        exact ⟨entries, listed, (stuck_iff each host given listed).mp failed⟩
  · rintro ⟨entries, listed, stuck⟩
    obtain ⟨members, _, each⟩ := related_of_some (Data.entries?_kept keeps) listed
    exact (stuck_iff each host given listed).mpr stuck

private theorem ofFile_eq {load : Loader} {path : Text} {entry : FileEntry} (host : Host σ)
    (given : Option (Registry σ)) (loaded : dataOfFile load path entry = .ok (pool, data)) :
    ofFile load host given path entry = ofData host given pool data := by
  rw [ofFile, loaded]
  rfl

/-- From the command line, an error that is reported ends a run in order, with its message and the
exit code 1; a failure that is not reported ends it out of order. -/
theorem run_of_unbuilt {load : Loader} {path : Text} {entry : FileEntry} {failure : Failure}
    {host : Host σ} (loaded : dataOfFile load path entry = .ok (pool, data))
    (failed : ofData host none pool data = .error failure) (arguments : CommandLine.Arguments)
    (world : σ) :
    CommandLine.run load host arguments path entry world =
      match failure with
      | .reported error =>
          .ok ⟨1, arguments.unlessQuiet (lit "Suite: " ++ path ++ lit "\n\n"),
            CommandLine.errorText error.message, none⟩
      | .escaped escape => .error escape := by
  have unbuilt := (ofFile_eq host none loaded).trans failed
  cases entry with
  | missing => cases loaded
  | directory | content =>
      rw [CommandLine.run]
      · rw [unbuilt]
        cases failure <;> rfl
      · nofun

/-- A suite given as a document that is not nested too deeply to be written is built or refused with
an error that is reported, except when one of its blocks goes wrong before anything is refused: the
settings count as given, are no object, and are no harmless string or array; the functions count as
given and are no object; the cases count as given and are not gone through; the expected captures of
a case are neither an object nor captures with their values; or an integer that is shown or written
is too long. From the command line, whatever loads the file, the error is printed and the exit code
is 1, while such a block ends the run out of order. -/
theorem building_ends_in_order (holds : Data.Holds pool value data)
    (shallow : value.nesting ≤ Data.mostWritten) (host : Host σ) (given : Option (Registry σ)) :
    (∀ escape, ofData host given pool data = .error (.escaped escape) ↔
      GoesWrong host given pool data escape) ∧
    ((∀ escape, ¬ GoesWrong host given pool data escape) →
      (∃ suite, ofData host given pool data = .ok suite) ∨
        ∃ error, ofData host given pool data = .error (.reported error)) ∧
    ∀ load path entry, dataOfFile load path entry = .ok (pool, data) →
      (∀ error, ofData host none pool data = .error (.reported error) →
        ∀ arguments world, CommandLine.run load host arguments path entry world =
          .ok ⟨1, arguments.unlessQuiet (lit "Suite: " ++ path ++ lit "\n\n"),
            CommandLine.errorText error.message, none⟩) ∧
      ∀ escape, GoesWrong host none pool data escape →
        ∀ arguments world,
          CommandLine.run load host arguments path entry world = .error escape := by
  have wrong := fun given escape =>
    @goesWrong_iff σ pool value data escape ⟨holds, shallow⟩ host given
  refine ⟨wrong given, fun fine => ?_, fun load path entry loaded => ⟨?_, ?_⟩⟩
  · rcases built : ofData host given pool data with failure | suite
    · cases failure with
      | reported error => exact .inr ⟨error, rfl⟩
      | escaped escape => exact absurd ((wrong given escape).mp built) (fine escape)
    · exact .inl ⟨suite, rfl⟩
  · exact fun error failed arguments world => run_of_unbuilt loaded failed arguments world
  · exact fun escape stuck arguments world =>
      run_of_unbuilt loaded ((wrong none escape).mpr stuck) arguments world

/-- A number as settings. -/
theorem number_as_settings_is_not_reported :
    let value : Json := .object [(lit "config", .number (.integer 5)), (lit "cases", .array [])]
    let host : Host Unit :=
      ⟨fun world => (0, world), fun world => (⟨⟨0, by decide⟩, .utc⟩, world)⟩
    value.nesting ≤ Data.mostWritten ∧
      ¬ ((∃ suite, ofData host none #[] (Data.ofJson value) = .ok suite) ∨
        ∃ error, ofData host none #[] (Data.ofJson value) = .error (.reported error)) := by
  intro value host
  have settings : settingsOf #[] (.integer 5) = .error (misshapen .configNotMapping) := rfl
  have failed : ofData host none #[] (Data.ofJson value) =
      .error (.escaped (.shape .configNotMapping)) := by
    rw [ofData_eq host none rfl]
    exact error_at settings
  refine ⟨by decide, ?_⟩
  rw [failed]
  rintro (⟨suite, built⟩ | ⟨error, reported⟩)
  · cases built
  · cases reported

/-- A text of two characters is a capture with its value, but none of three. A file with such a
suite ends the command line out of order. -/
theorem building_with_texts_as_captures :
    let value : Json := .object [(lit "cases", .array [.object [(lit "actual", .null),
      (lit "expected", .null),
      (lit "expect_captures", .array [.string (lit "AB"), .string (lit "ABC")])]])]
    let host : Host Unit :=
      ⟨fun world => (0, world), fun world => (⟨⟨0, by decide⟩, .utc⟩, world)⟩
    let text := lit "\x7b\"cases\": [\x7b\"actual\": null, \"expected\": null, " ++
      lit "\"expect_captures\": [\"AB\", \"ABC\"]\x7d]\x7d"
    let load : Loader := fun given =>
      if given = text then .ok (#[], Data.ofJson value) else .error .malformed
    ofData host none #[] (Data.ofJson value) = .error (.escaped (.shape .captureNotPair)) ∧
      ∃ content, Utf8.encode? text = some content ∧ ∀ arguments path,
        CommandLine.run load host arguments path (.content content) () =
          .error (.shape .captureNotPair) := by
  intro value host text load
  let captures : Data := .list [.text (lit "AB"), .text (lit "ABC")]
  let entries : List (Data × Data) := [(.text (lit "actual"), .null),
    (.text (lit "expected"), .null), (.text (lit "expect_captures"), captures)]
  have holds : Data.Holds #[] value (Data.ofJson value) := Data.holds_ofJson value
  have captured : Keeps #[] (.array [.string (lit "AB"), .string (lit "ABC")]) captures :=
    ⟨Data.holds_ofJson _, by decide⟩
  have complete : Case.present entries 1 = .ok () := Case.present_ok_iff.mpr (by decide)
  have fault : PartFault #[] entries 1 (.shape .captureNotPair) := by
    refine .captures complete (by cbv) (by cbv) (by cbv) (by cbv) captured
      (@CapturesFault.pair _ (.string (lit "ABC")) [.string (lit "AB")] [] _ rfl rfl ?_
        (.count (by decide)))
    intro earlier member other uneven
    cases List.mem_singleton.mp member
    cases uneven with
    | count uneven => exact uneven rfl
    | key nested => exact nested rfl
  have cases : CasesFault #[] (.list [.mapping entries]) (.shape .captureNotPair) :=
    @CasesFault.item _ _ [] [] _ entries [] _ rfl rfl rfl fault
  have wrong : GoesWrong host none #[] (Data.ofJson value) (.shape .captureNotPair) :=
    ⟨_, rfl, .cases rfl (fun _ => ⟨_, rfl⟩) cases⟩
  obtain ⟨built, _, ends⟩ := building_ends_in_order holds (by decide) host none
  have whole : ∀ point ∈ text, Utf8.Whole point := by simp [text, lit, Utf8.Whole]
  obtain ⟨content, encoded, decoded⟩ := Utf8.encode?_decoded whole
  have loaded : ∀ path, dataOfFile load path (.content content) = .ok (#[], Data.ofJson value) :=
    fun path => by
      have given : load text = .ok (#[], Data.ofJson value) := if_pos rfl
      rw [dataOfFile, decoded]
      dsimp only
      rw [dataOfText, given]
      rfl
  exact ⟨(built _).mpr wrong, content, encoded, fun arguments path =>
    (ends load path _ (loaded path)).2 _ wrong arguments ()⟩

end Suite

end JsonTemplate

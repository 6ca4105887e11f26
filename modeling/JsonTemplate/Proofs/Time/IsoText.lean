import JsonTemplate.Proofs.Text.Numeral
import JsonTemplate.Proofs.Text.Utf8
import JsonTemplate.Proofs.Time.Moment
import JsonTemplate.Time.IsoText

set_option autoImplicit false

/-!
# Instants read back from text

A moment that is written to the millisecond is read back as that moment, if its offset has no part
of a second. The text is cut by its octets, which are its characters since all of them lie in ASCII.
-/

namespace JsonTemplate.IsoText

/-! ## Octets of ASCII -/

def ascii (text : Text) : Octets := text.map fun point => Char.ofNat point.value

@[simp] theorem ascii_nil : ascii [] = [] := rfl

@[simp] theorem ascii_append (left right : Text) :
    ascii (left ++ right) = ascii left ++ ascii right := List.map_append

@[simp] theorem ascii_cons (character : Char) (text : Text) :
    ascii (.scalar character :: text) = character :: ascii text := by
  simp [ascii, CodePoint.value]

@[simp] theorem ascii_eq_nil_iff {text : Text} : ascii text = [] ↔ text = [] := List.map_eq_nil_iff

@[simp] theorem length_ascii (text : Text) : (ascii text).length = text.length := List.length_map _

private theorem encode?_ascii {text : Text} (small : ∀ point ∈ text, point.value < 0x80) :
    Utf8.encode? text = some (text.map fun point => .ofNat point.value) := by
  induction text with
  | nil => rfl
  | cons point text ih =>
      obtain ⟨first, others⟩ := List.forall_mem_cons.mp small
      cases point with
      | surrogate offset =>
          rw [CodePoint.value] at first
          omega
      | scalar character =>
          rw [CodePoint.value] at first
          simp [Utf8.encode?, Utf8.encodePoint?, first, ih others, CodePoint.value]

private theorem octets?_ascii {text : Text} (small : ∀ point ∈ text, point.value < 0x80) :
    octets? text = some (ascii text) := by
  unfold octets?
  dsimp only
  split
  · next place found =>
      -- A surrogate is no octet, so none is found as the separator.
      have surrogate := List.find?_some found
      split at surrogate
      · next offset stands =>
          have low := small _ (List.mem_of_getElem? stands)
          rw [CodePoint.value] at low
          omega
      · cases surrogate
  · rw [encode?_ascii small]
    refine congrArg some ?_
    rw [List.map_map]
    refine List.map_congr_left fun point member => ?_
    have low := small point member
    have octet : (UInt8.ofNat point.value).toNat = point.value := Utf8.toNat_ofNat (by omega)
    rw [Function.comp_apply, octet]

/-! ## Digits -/

private theorem isDigit_ascii {digits : Text} (all : ∀ point ∈ digits, point.isDigit = true) :
    ∀ octet ∈ ascii digits, octet.isDigit = true := by
  intro octet member
  obtain ⟨point, within, rfl⟩ := List.mem_map.mp member
  cases point with
  | surrogate => cases all _ within
  | scalar character => simpa [CodePoint.value, CodePoint.isDigit] using all _ within

private theorem foldl_ascii {digits : Text} (all : ∀ point ∈ digits, point.isDigit = true) :
    (ascii digits).foldl (fun number digit => number * 10 + (digit.toNat - '0'.toNat)) 0 =
      Numeral.value digits := by
  rw [ascii, List.foldl_map, Numeral.value]
  refine List.foldl_ext _ _ _ fun number point within => ?_
  cases point with
  | surrogate => cases all _ within
  | scalar character => simp [CodePoint.value, CodePoint.digitValue]

/-- A number in its width is read, whatever comes behind it. -/
theorem digits?_padded {width number : Nat} (positive : 0 < width) (fits : number < 10 ^ width)
    (rest : Octets) :
    digits? width (ascii (Numeral.padded width number) ++ rest) = some (number, rest) := by
  have size : (ascii (Numeral.padded width number)).length = width := by
    rw [length_ascii, Numeral.length_padded positive fits]
  have all := Numeral.isDigit_padded width number
  have decimal : (ascii (Numeral.padded width number)).all Char.isDigit = true :=
    List.all_eq_true.mpr (isDigit_ascii all)
  simp only [digits?]
  rw [List.take_left' size, List.drop_left' size, if_pos ⟨size, decimal⟩, foldl_ascii all,
    Numeral.value_padded]

private theorem digits?_alone {width number : Nat} (positive : 0 < width)
    (fits : number < 10 ^ width) :
    digits? width (ascii (Numeral.padded width number)) = some (number, []) := by
  rw [← List.append_nil (ascii _), digits?_padded positive fits]

private theorem exists_cons_padded {width number : Nat} (positive : 0 < width)
    (fits : number < 10 ^ width) :
    ∃ first others, ascii (Numeral.padded width number) = first :: others ∧
      first.isDigit = true := by
  cases shape : ascii (Numeral.padded width number) with
  | nil =>
      have none := congrArg List.length shape
      rw [length_ascii, Numeral.length_padded positive fits] at none
      exact absurd none (Nat.ne_of_gt positive)
  | cons first others =>
      exact ⟨first, others, rfl,
        isDigit_ascii (Numeral.isDigit_padded width number) first (shape ▸ List.mem_cons_self)⟩

/-! ## Dates -/

private theorem date?_render {date : Date} (year : date.year < 10 ^ 4) (month : date.month < 10 ^ 2)
    (day : date.day < 10 ^ 2) : date? (ascii date.render) = some date := by
  obtain ⟨first, others, shape, digit⟩ := exists_cons_padded (by decide) month
  have monthRest : monthRest? date.year true (ascii (Numeral.padded 2 date.month) ++
      '-' :: ascii (Numeral.padded 2 date.day)) = some date := by
    simp [monthRest?, digits?_padded (by decide) month, digits?_alone (by decide) day]
  simp only [Date.render, ascii_append, ascii_cons, List.append_assoc, List.cons_append]
  simp only [date?, digits?_padded (by decide) year, Option.bind_eq_bind, Option.bind_some]
  split
  · next week =>
      -- The month begins with a digit, so no week follows.
      rw [shape] at week
      cases week
      cases digit
  · exact monthRest

private theorem length_render {date : Date} (year : date.year < 10 ^ 4)
    (month : date.month < 10 ^ 2)
    (day : date.day < 10 ^ 2) : date.render.length = 10 := by
  simp [Date.render, Numeral.length_padded (by decide) year,
    Numeral.length_padded (by decide) month, Numeral.length_padded (by decide) day]

private theorem dateLength?_render {date : Date} (year : date.year < 10 ^ 4)
    (month : date.month < 10 ^ 2)
    (day : date.day < 10 ^ 2) (rest : Octets) :
    dateLength? (ascii date.render ++ rest) = some 10 := by
  have size : (Numeral.padded 4 date.year).length = 4 := Numeral.length_padded (by decide) year
  obtain ⟨first, others, shape, digit⟩ := exists_cons_padded (by decide) month
  have hyphen : isAt (ascii date.render ++ rest) 4 '-' = true := by
    simp [isAt, Date.render, size]
  have noWeek : isAt (ascii date.render ++ rest) 5 'W' = false := by
    have other : first ≠ 'W' := by
      rintro rfl
      cases digit
    simpa [isAt, Date.render, List.getElem?_append_right, size, shape] using other
  have long : (ascii date.render ++ rest).length ≠ 7 := by
    rw [List.length_append, length_ascii, length_render year month day]
    omega
  rw [dateLength?, if_neg long, if_pos hyphen, noWeek]
  rfl

/-! ## Times of day -/

private theorem laterParts?_colon {colons : Option Bool} {fields field : Nat} {after : Octets}
    (used : colons ≠ some false) (fits : field < 10 ^ 2) (more : after ≠ []) :
    laterParts? colons (fields + 1) (ascii (Numeral.padded 2 field) ++ ':' :: after) =
      (laterParts? (some true) fields after).map fun (others, micro, stray) =>
        (field :: others, micro, stray) := by
  obtain ⟨first, others, rfl⟩ := List.exists_cons_of_ne_nil more
  have colon : colons.getD true = true := by
    cases colons with
    | none => rfl
    | some colon => cases colon <;> simp_all
  rw [laterParts?, digits?_padded (by decide) fits]
  simp [colon, Option.map_eq_bind]

private theorem laterParts?_last {colons : Option Bool} {fields field : Nat}
    (fits : field < 10 ^ 2) :
    laterParts? colons (fields + 1) (ascii (Numeral.padded 2 field)) =
      some ([field], 0, false) := by
  rw [laterParts?, digits?_alone (by decide) fits]
  rfl

private theorem fraction?_millis {millis : Nat} (fits : millis < 10 ^ 3) :
    fraction? (ascii (Numeral.padded 3 millis)) = some (millis * 1000, false) := by
  simp [fraction?, Numeral.length_padded (by decide) fits, digits?_alone (by decide) fits,
    isLeftOver]

private theorem laterParts?_millis {colons : Option Bool} {fields field millis : Nat}
    (fits : field < 10 ^ 2) (below : millis < 10 ^ 3) :
    laterParts? colons (fields + 1)
        (ascii (Numeral.padded 2 field) ++ '.' :: ascii (Numeral.padded 3 millis)) =
      some ([field], millis * 1000, false) := by
  have fraction := fraction?_millis below
  obtain ⟨first, others, shape, _⟩ := exists_cons_padded (by decide) below
  rw [shape] at fraction ⊢
  rw [laterParts?, digits?_padded (by decide) fits]
  simp [fraction]

private theorem parts?_millis {hour minute second millis : Nat} (hours : hour < 10 ^ 2)
    (minutes : minute < 10 ^ 2) (seconds : second < 10 ^ 2) (below : millis < 10 ^ 3) :
    parts? (ascii (Numeral.padded 2 hour ++ .scalar ':' :: (Numeral.padded 2 minute ++
        .scalar ':' :: (Numeral.padded 2 second ++ .scalar '.' :: Numeral.padded 3 millis)))) =
      some ⟨hour, minute, second, millis * 1000, false⟩ := by
  simp [parts?, laterParts?_colon _ hours, laterParts?_colon _ minutes,
    laterParts?_millis seconds below]

private theorem parts?_seconds {hour minute second : Nat} (hours : hour < 10 ^ 2)
    (minutes : minute < 10 ^ 2) (seconds : second < 10 ^ 2) :
    parts? (ascii (Numeral.padded 2 hour ++ .scalar ':' :: (Numeral.padded 2 minute ++
        if second = 0 then [] else .scalar ':' :: Numeral.padded 2 second))) =
      some ⟨hour, minute, second, 0, false⟩ := by
  split
  · next none =>
      simp [parts?, laterParts?_colon _ hours, laterParts?_last minutes,
        Numeral.padded_ne_nil, none]
  · simp [parts?, laterParts?_colon _ hours, laterParts?_colon _ minutes, laterParts?_last seconds,
      Numeral.padded_ne_nil]

/-- The sign that ends the time of day begins the offset. -/
theorem time?_signed {clock zone : Octets} {shown : Parts} {micros : Int} {hour minute second : Nat}
    (unsigned : ∀ octet ∈ clock, octet ≠ '+' ∧ octet ≠ '-') (before : parts? clock = some shown)
    (after : parts? zone = some ⟨hour, minute, second, 0, false⟩)
    (size : micros.natAbs = (hour * 3600 + minute * 60 + second) * 1000000) :
    time? (clock ++ (if micros < 0 then '-' else '+') :: zone) = some (shown, some micros) := by
  have passed : ∀ octet ∈ clock, (!(octet == '+' || octet == '-')) = true := by
    simpa using unsigned
  simp only [time?]
  rw [List.takeWhile_append_of_pos passed, List.dropWhile_append_of_pos passed]
  by_cases negative : micros < 0
  · rw [if_pos negative]
    simp [before, after]
    omega
  · rw [if_neg negative]
    simp [before, after]
    omega

/-! ## Moments -/

def clockText (wall : WallTime) : Text :=
  Numeral.padded 2 wall.hour ++ .scalar ':' :: (Numeral.padded 2 wall.minute ++
    .scalar ':' :: (Numeral.padded 2 wall.second ++
      .scalar '.' :: Numeral.padded 3 (wall.micro / 1000)))

def clockParts (wall : WallTime) : Parts :=
  ⟨wall.hour, wall.minute, wall.second, wall.micro / 1000 * 1000, false⟩

def zoneText (offset : Offset) : Text :=
  Numeral.padded 2 (offset.micros.natAbs / 3600000000) ++
    .scalar ':' :: (Numeral.padded 2 (offset.micros.natAbs / 60000000 % 60) ++
      if offset.micros.natAbs / 1000000 % 60 = 0 then []
      else .scalar ':' :: Numeral.padded 2 (offset.micros.natAbs / 1000000 % 60))

private theorem renderLocal_eq {moment : Moment} (whole : 1000000 ∣ moment.offset.micros) :
    moment.renderLocal = moment.wall.date.render ++ .scalar 'T' :: (clockText moment.wall ++
      .scalar (if moment.offset.micros < 0 then '-' else '+') :: zoneText moment.offset) := by
  have micros : moment.offset.micros.natAbs % 1000000 = 0 := by omega
  simp [Moment.renderLocal, WallTime.renderMillis, WallTime.renderSeconds, Offset.render, clockText,
    zoneText, micros]

def Spelled (marks text : Text) : Prop :=
  ∀ point ∈ text, point.isDigit = true ∨ point ∈ marks

theorem Spelled.padded {marks : Text} (width number : Nat) :
    Spelled marks (Numeral.padded width number) :=
  fun point member => .inl (Numeral.isDigit_padded width number point member)

/-- What holds of the digits and the marks holds all over the text. -/
theorem Spelled.forall {property : CodePoint → Prop} {marks text : Text}
    (spelled : Spelled marks text) (digits : ∀ number < 10, property (Numeral.digit number))
    (others : ∀ point ∈ marks, property point) : ∀ point ∈ text, property point := by
  intro point member
  rcases spelled point member with decimal | mark
  · have digit := digits point.digitValue (Numeral.digitValue_lt decimal)
    rwa [Numeral.digit_digitValue decimal] at digit
  · exact others point mark

@[simp] theorem spelled_nil {marks : Text} : Spelled marks [] := List.forall_mem_nil _

private theorem spelled_append {marks left right : Text} :
    Spelled marks (left ++ right) ↔ Spelled marks left ∧ Spelled marks right :=
  List.forall_mem_append

private theorem spelled_cons {marks text : Text} {point : CodePoint} :
    Spelled marks (point :: text) ↔ (point.isDigit = true ∨ point ∈ marks) ∧ Spelled marks text :=
  List.forall_mem_cons

private theorem spelled_clockText {marks : Text} (colon : .scalar ':' ∈ marks)
    (point : .scalar '.' ∈ marks)
    (wall : WallTime) : Spelled marks (clockText wall) := by
  simp [clockText, spelled_append, spelled_cons, Spelled.padded, colon, point]

private theorem spelled_zoneText {marks : Text} (colon : .scalar ':' ∈ marks) (offset : Offset) :
    Spelled marks (zoneText offset) := by
  rw [zoneText]
  split
  · simp [spelled_append, spelled_cons, Spelled.padded, colon]
  · simp [spelled_append, spelled_cons, Spelled.padded, colon]

private theorem spelled_renderLocal {moment : Moment} (whole : 1000000 ∣ moment.offset.micros) :
    Spelled (lit "-T:.+") moment.renderLocal := by
  have clock := @spelled_clockText (lit "-T:.+") (by decide) (by decide) moment.wall
  have zone := @spelled_zoneText (lit "-T:.+") (by decide) moment.offset
  have sign : CodePoint.scalar (if moment.offset.micros < 0 then '-' else '+') ∈ lit "-T:.+" := by
    split <;> decide
  have hyphen : CodePoint.scalar '-' ∈ lit "-T:.+" := by decide
  have separator : CodePoint.scalar 'T' ∈ lit "-T:.+" := by decide
  rw [renderLocal_eq whole]
  simp only [Date.render, spelled_append, spelled_cons, Spelled.padded, clock, zone, sign, hyphen,
    separator, or_true, true_and]

private theorem parts?_clockText (wall : WallTime) :
    parts? (ascii (clockText wall)) = some (clockParts wall) :=
  parts?_millis (wall.hour_lt.trans (by decide)) (wall.minute_lt.trans (by decide))
    (wall.second_lt.trans (by decide)) wall.milli_lt

private theorem parts?_zoneText (offset : Offset) :
    parts? (ascii (zoneText offset)) = some ⟨offset.micros.natAbs / 3600000000,
      offset.micros.natAbs / 60000000 % 60, offset.micros.natAbs / 1000000 % 60, 0, false⟩ := by
  have below := offset.belowDay
  rw [Calendar.dayMicros] at below
  exact parts?_seconds (by omega) (by omega) (by omega)

private theorem fields?_renderLocal {moment : Moment} (whole : 1000000 ∣ moment.offset.micros) :
    fields? moment.renderLocal =
      some (moment.wall.date, clockParts moment.wall, some moment.offset.micros) := by
  have small : ∀ point ∈ moment.renderLocal, point.value < 0x80 :=
    (spelled_renderLocal whole).forall (by decide) (by decide)
  have clock : Spelled (lit ":.") (clockText moment.wall) :=
    spelled_clockText (by decide) (by decide) moment.wall
  have unsigned : ∀ octet ∈ ascii (clockText moment.wall), octet ≠ '+' ∧ octet ≠ '-' :=
    List.forall_mem_map.mpr (clock.forall (by decide) (by decide))
  have size : (ascii moment.wall.date.render).length = 10 := by
    rw [length_ascii,
      length_render moment.wall.year_lt moment.wall.month_lt moment.wall.dayOfMonth_lt]
  have time := @time?_signed _ _ _ moment.offset.micros _ _ _ unsigned
    (parts?_clockText moment.wall) (parts?_zoneText moment.offset) (by omega)
  have date := date?_render moment.wall.year_lt moment.wall.month_lt moment.wall.dayOfMonth_lt
  have length := dateLength?_render moment.wall.year_lt moment.wall.month_lt
    moment.wall.dayOfMonth_lt
  have long (rest : Octets) : ¬ (ascii moment.wall.date.render ++ rest).length < 7 := by
    rw [List.length_append, size]
    omega
  rw [fields?, octets?_ascii small, renderLocal_eq whole]
  simp only [ascii_append, ascii_cons, Option.bind_eq_bind, Option.bind_some]
  rw [if_neg (long _), length]
  simp [List.take_left' size, List.drop_left' size, date, dropSeparator, time]

private theorem wallTime_clockParts (wall : WallTime) :
    wallTime wall.date (clockParts wall) = .ok wall.toMillis := by
  obtain ⟨year, month, day⟩ := wall.date_parts
  have hour : (clockParts wall).hour < 24 := wall.hour_lt
  have minute : (clockParts wall).minute < 60 := wall.minute_lt
  have second : (clockParts wall).second < 60 := wall.second_lt
  have found : WallTime.ofFields? wall.date (clockParts wall).hour (clockParts wall).minute
      (clockParts wall).second (clockParts wall).micro = some wall.toMillis :=
    wall.ofFields?_toMillis
  rw [wallTime, if_neg (by omega), if_neg (by omega), if_neg (by omega), if_neg (by omega),
    if_neg (by omega), if_neg (by omega), found]

/-! ## Whole texts -/

def plain (text : Text) : Text :=
  text.trim.flatMap fun point => if point = .scalar 'Z' then lit "+00:00" else [point]

private theorem dropWhile_visible {text : Text} (visible : ∀ point ∈ text, point.isBlank = false) :
    text.dropWhile CodePoint.isBlank = text := by
  cases text with
  | nil => rfl
  | cons point text => simp [visible point]

private theorem trim_visible {text : Text} (visible : ∀ point ∈ text, point.isBlank = false) :
    text.trim = text := by
  have backwards : ∀ point ∈ text.reverse, point.isBlank = false := by simpa using visible
  rw [Text.trim, dropWhile_visible visible, dropWhile_visible backwards, List.reverse_reverse]

private theorem flatMap_plain {text : Text} (other : ∀ point ∈ text, point ≠ .scalar 'Z') :
    text.flatMap (fun point => if point = .scalar 'Z' then lit "+00:00" else [point]) = text := by
  induction text with
  | nil => rfl
  | cons point text ih =>
      obtain ⟨first, others⟩ := List.forall_mem_cons.mp other
      rw [List.flatMap_cons, if_neg first, ih others, List.singleton_append]

private theorem plain_eq {text : Text} (visible : ∀ point ∈ text, point.isBlank = false)
    (other : ∀ point ∈ text, point ≠ .scalar 'Z') : plain text = text := by
  rw [plain, trim_visible visible, flatMap_plain other]

private theorem plain_zulu {text : Text} (visible : ∀ point ∈ text, point.isBlank = false)
    (other : ∀ point ∈ text, point ≠ .scalar 'Z') :
    plain (text ++ [.scalar 'Z']) = text ++ lit "+00:00" := by
  have allVisible : ∀ point ∈ text ++ [.scalar 'Z'], point.isBlank = false :=
    List.forall_mem_append.mpr ⟨visible, by decide⟩
  rw [plain, trim_visible allVisible, List.flatMap_append, flatMap_plain other]
  rfl

private theorem read_of_plain {text : Text} {moment : Moment}
    (whole : 1000000 ∣ moment.offset.micros)
    (same : plain text = moment.renderLocal) : read text = .ok moment.toMillis := by
  have fields := fields?_renderLocal whole
  rw [← same, plain] at fields
  simp only [read, fields, Option.getD_some, Offset.ofMicros?_micros, wallTime_clockParts]
  rfl

theorem read_renderLocal {moment : Moment} (whole : 1000000 ∣ moment.offset.micros) :
    read moment.renderLocal = .ok moment.toMillis := by
  have visible : ∀ point ∈ moment.renderLocal, point.isBlank = false :=
    (spelled_renderLocal whole).forall (by decide) (by decide)
  have other : ∀ point ∈ moment.renderLocal, point ≠ .scalar 'Z' :=
    (spelled_renderLocal whole).forall (by decide) (by decide)
  exact read_of_plain whole (plain_eq visible other)

private theorem render_utc : Offset.utc.render = lit "+00:00" := by
  decide +kernel

theorem read_zulu (wall : WallTime) :
    read (wall.renderMillis ++ [.scalar 'Z']) = .ok (Moment.toMillis ⟨wall, .utc⟩) := by
  have whole : 1000000 ∣ Offset.utc.micros := by decide
  have spelled := @spelled_renderLocal ⟨wall, .utc⟩ whole
  rw [Moment.renderLocal, spelled_append] at spelled
  refine read_of_plain whole ?_
  have visible : ∀ point ∈ wall.renderMillis, point.isBlank = false :=
    spelled.1.forall (by decide) (by decide)
  have other : ∀ point ∈ wall.renderMillis, point ≠ .scalar 'Z' :=
    spelled.1.forall (by decide) (by decide)
  rw [plain_zulu visible other, Moment.renderLocal, render_utc]

end JsonTemplate.IsoText

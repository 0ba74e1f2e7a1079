import Mathlib.Data.List.TakeWhile
import Transit.Proofs.Schedule.TimeText

/-!
# Which texts are service times

A text is a service time if, the blanks around it left out, it is hours, minutes and seconds
joined by colons: the hours in one to three digits, the minutes and the seconds in two digits
and below sixty.  Every such text is read as the time it shows, for three hour digits cannot
exceed what a service time holds.  Every other text is refused, for the first of its parts that
does not fit.
-/

namespace Transit

namespace Text

variable {characters core before after first second third : List Char}

/-- What is left of a text without the blanks at both of its ends. -/
structure IsCore (characters core : List Char) : Prop where
  around : ∃ before after, characters = before ++ (core ++ after) ∧
    (∀ character ∈ before, isBlank character = true) ∧
      ∀ character ∈ after, isBlank character = true
  opens : ∀ first ∈ core.head?, isBlank first = false
  ends : ∀ last ∈ core.getLast?, isBlank last = false

/-- Blanks at the front make no difference. -/
theorem trimStart_append (blank : ∀ character ∈ before, isBlank character = true) :
    trimStart (before ++ characters) = trimStart characters :=
  List.dropWhile_append_of_pos blank

theorem exists_append_trimStart (characters : List Char) :
    ∃ before, characters = before ++ trimStart characters ∧
      ∀ character ∈ before, isBlank character = true :=
  ⟨characters.takeWhile isBlank, List.takeWhile_append_dropWhile.symm,
    fun _ => List.mem_takeWhile_imp⟩

theorem isBlank_head?_trimStart (characters : List Char) :
    ∀ first ∈ (trimStart characters).head?, isBlank first = false := by
  cases trimmed : trimStart characters with
  | nil => nofun
  | cons opening rest =>
      rintro _ ⟨⟩
      exact isBlank_head_trimStart trimmed

theorem isCore_trim (characters : List Char) : IsCore characters (trim characters) := by
  obtain ⟨before, split, blankBefore⟩ := exists_append_trimStart characters
  obtain ⟨after, rest, blankAfter⟩ := exists_append_trimStart (trimStart characters).reverse
  have kept : trimStart characters = trim characters ++ after.reverse := by
    rw [trim, ← List.reverse_append, ← rest, List.reverse_reverse]
  refine ⟨⟨before, after.reverse, ?_, blankBefore, ?_⟩, ?_, ?_⟩
  · rw [← kept]
    exact split
  · intro character member
    exact blankAfter character (List.mem_reverse.mp member)
  · intro opening found
    apply isBlank_head?_trimStart characters
    rw [kept, List.head?_append, Option.mem_def.mp found]
    rfl
  · rw [trim, List.getLast?_reverse]
    exact isBlank_head?_trimStart _

/-- Trimming leaves what stands between the blanks. -/
theorem trim_eq_iff : trim characters = core ↔ IsCore characters core := by
  constructor
  · rintro rfl
    exact isCore_trim characters
  · rintro ⟨⟨before, after, rfl, blankBefore, blankAfter⟩, opens, ends⟩
    have blankReverse : ∀ character ∈ after.reverse, isBlank character = true :=
      fun character member => blankAfter character (List.mem_reverse.mp member)
    rw [trim, trimStart_append blankBefore]
    -- Where nothing is left the blanks behind are taken for blanks in front.
    cases core with
    | nil =>
        have nothing : trimStart (after ++ []) = [] := trimStart_append blankAfter
        rw [List.nil_append, ← List.append_nil after, nothing]
        rfl
    | cons opening rest =>
        have opensAll : ∀ first ∈ (opening :: rest ++ after).head?, isBlank first = false := opens
        rw [trimStart_eq_self opensAll, List.reverse_append, trimStart_append blankReverse,
          trimStart_eq_self (by rwa [List.head?_reverse]), List.reverse_reverse]

/-- No part between two colons holds a colon. -/
theorem colon_notMem_of_mem_splitOn {part : List Char} (member : part ∈ characters.splitOn ':') :
    ':' ∉ part := by
  induction characters generalizing part with
  | nil =>
      rw [List.splitOn_nil, List.mem_singleton] at member
      rw [member]
      exact List.not_mem_nil
  | cons character rest hypothesis =>
      rw [List.splitOn_cons_eq_if_modifyHead] at member
      split at member
      case isTrue =>
        rcases List.mem_cons.mp member with rfl | later
        · exact List.not_mem_nil
        · exact hypothesis later
      case isFalse other =>
        obtain ⟨opening, others, parts⟩ := List.exists_cons_of_ne_nil (List.splitOn_ne_nil ':' rest)
        rw [parts, List.modifyHead_cons] at member
        rcases List.mem_cons.mp member with rfl | later
        · have bare := hypothesis (parts ▸ List.mem_cons_self)
          rw [List.mem_cons, not_or]
          exact ⟨fun same => other (beq_iff_eq.mpr same.symm), bare⟩
        · exact hypothesis (parts ▸ List.mem_cons_of_mem opening later)

/-- There is one part more than there are colons. -/
theorem length_splitOn_colon (characters : List Char) :
    (characters.splitOn ':').length = characters.count ':' + 1 := by
  induction characters with
  | nil => rfl
  | cons character rest hypothesis =>
      rw [List.splitOn_cons_eq_if_modifyHead, List.count_cons]
      split
      case isTrue => rw [List.length_cons, hypothesis]
      case isFalse => rw [List.length_modifyHead, hypothesis, Nat.add_zero]

/-- Two colons part a text into hours, minutes and seconds. -/
structure IsParted (characters hours minutes seconds : List Char) : Prop where
  joined : characters = hours ++ ':' :: (minutes ++ ':' :: seconds)
  hours_bare : ':' ∉ hours
  minutes_bare : ':' ∉ minutes
  seconds_bare : ':' ∉ seconds

theorem splitOn_eq_iff :
    characters.splitOn ':' = [first, second, third] ↔ IsParted characters first second third := by
  constructor
  · intro parts
    have bare : ∀ part ∈ [first, second, third], ':' ∉ part :=
      fun part member => colon_notMem_of_mem_splitOn (parts ▸ member)
    have joined : [':'].intercalate (characters.splitOn ':') = characters :=
      List.intercalate_splitOn ':'
    rw [parts] at joined
    refine ⟨?_, bare first (by simp), bare second (by simp), bare third (by simp)⟩
    rw [← joined]
    simp [List.intercalate]
  · rintro ⟨rfl, inFirst, inSecond, inThird⟩
    exact splitOn_colons inFirst inSecond inThird

/-- A text has three parts exactly if it has two colons. -/
theorem exists_isParted_iff :
    (∃ hours minutes seconds, IsParted characters hours minutes seconds) ↔
      characters.count ':' = 2 := by
  simp only [← splitOn_eq_iff]
  rw [← List.length_eq_three, length_splitOn_colon, Nat.add_right_cancel_iff]

end Text

namespace ServiceTime

open Text

/-- A run of `least` to `most` digits. -/
structure IsNumeral (least most : Nat) (characters : List Char) : Prop where
  long : least ≤ characters.length
  short : characters.length ≤ most
  digits : ∀ character ∈ characters, character.isDigit = true

/-- A text shows hours, minutes and seconds: as numerals joined by colons, with blanks around
them. -/
inductive Shows (text : String) : (hours minutes seconds : Nat) → Prop
  | clock {hours minutes seconds} :
      IsCore text.toList (hours ++ ':' :: (minutes ++ ':' :: seconds)) →
      IsNumeral 1 3 hours → IsNumeral 2 2 minutes → IsNumeral 2 2 seconds →
      Shows text (numeralValue hours) (numeralValue minutes) (numeralValue seconds)

/-- Why a text that has no blanks at its ends shows no time: of several reasons the first. -/
inductive IsMisread (characters : List Char) : TimeFault → Prop
  | parts : characters.count ':' ≠ 2 → IsMisread characters .parts
  | hourDigits {hours minutes seconds} : IsParted characters hours minutes seconds →
      ¬ IsNumeral 1 3 hours → IsMisread characters .hourDigits
  | minuteDigits {hours minutes seconds} : IsParted characters hours minutes seconds →
      IsNumeral 1 3 hours → ¬ IsNumeral 2 2 minutes → IsMisread characters .minuteDigits
  | secondDigits {hours minutes seconds} : IsParted characters hours minutes seconds →
      IsNumeral 1 3 hours → IsNumeral 2 2 minutes → ¬ IsNumeral 2 2 seconds →
      IsMisread characters .secondDigits
  | minute {hours minutes seconds} : IsParted characters hours minutes seconds →
      IsNumeral 1 3 hours → IsNumeral 2 2 minutes → IsNumeral 2 2 seconds →
      59 < numeralValue minutes → IsMisread characters .minute
  | second {hours minutes seconds} : IsParted characters hours minutes seconds →
      IsNumeral 1 3 hours → IsNumeral 2 2 minutes → IsNumeral 2 2 seconds →
      numeralValue minutes ≤ 59 → 59 < numeralValue seconds → IsMisread characters .second

variable {text : String} {characters hours minutes seconds : List Char} {least most : Nat}
  {fault : TimeFault} {hour minute second : Nat}

theorem IsNumeral.bare (numeral : IsNumeral least most characters) : ':' ∉ characters := by
  intro member
  have digit := numeral.digits ':' member
  simp at digit

theorem IsNumeral.value_lt (numeral : IsNumeral least most characters) :
    numeralValue characters < 10 ^ most :=
  Nat.lt_of_lt_of_le (numeralValue_lt numeral.digits)
    (Nat.pow_le_pow_right (by decide) numeral.short)

theorem field_of_isNumeral (numeral : IsNumeral least most characters) :
    field least most fault characters = .ok (numeralValue characters) :=
  field_eq_ok_iff.mpr ⟨numeral.long, numeral.short, numeral.digits, rfl⟩

theorem field_of_not_isNumeral (misfit : ¬ IsNumeral least most characters) :
    field least most fault characters = .error fault := by
  rw [field, if_neg]
  rintro ⟨long, short, digits⟩
  exact misfit ⟨long, short, List.all_eq_true.mp digits⟩

theorem parse_of_isParted
    (core : IsCore text.toList characters) (parts : IsParted characters hours minutes seconds) :
    parse text = (do
      let hours ← field 1 3 .hourDigits hours
      let minutes ← field 2 2 .minuteDigits minutes
      let seconds ← field 2 2 .secondDigits seconds
      ofClock hours minutes seconds) := by
  rw [← trim_eq_iff] at core
  apply parse_of_splitOn
  rw [core]
  exact splitOn_eq_iff.mpr parts

theorem parse_of_isNumerals
    (core : IsCore text.toList characters) (parts : IsParted characters hours minutes seconds)
    (hourFits : IsNumeral 1 3 hours) (minuteFits : IsNumeral 2 2 minutes)
    (secondFits : IsNumeral 2 2 seconds) :
    parse text = ofClock (numeralValue hours) (numeralValue minutes) (numeralValue seconds) := by
  rw [parse_of_isParted core parts, field_of_isNumeral hourFits, field_of_isNumeral minuteFits,
    field_of_isNumeral secondFits]
  rfl

/-- A clock text is read as the time it shows. -/
theorem exists_parse_of_shows
    (shown : Shows text hour minute second) (minuteInHour : minute ≤ 59)
    (secondInMinute : second ≤ 59) :
    ∃ time, parse text = .ok time ∧
      time.seconds.toNat = 3600 * hour + 60 * minute + second := by
  obtain ⟨core, hourFits, minuteFits, secondFits⟩ := shown
  have parts := IsParted.mk rfl hourFits.bare minuteFits.bare secondFits.bare
  have fewHours := Nat.le_of_lt_succ hourFits.value_lt
  have read := parse_of_isNumerals core parts hourFits minuteFits secondFits
  rw [ofClock_eq_ok fewHours minuteInHour secondInMinute] at read
  refine ⟨_, read, ?_⟩
  have total := (ofClock_eq_ok_iff.mp (ofClock_eq_ok fewHours minuteInHour secondInMinute)).2.2
  omega

/-- A text that is misread is refused for that. -/
theorem parse_of_isMisread
    (core : IsCore text.toList characters) (misread : IsMisread characters fault) :
    parse text = .error fault := by
  cases misread with
  | parts other =>
      rw [← trim_eq_iff] at core
      unfold parse
      split
      case h_1 _ _ _ parts =>
        rw [core, splitOn_eq_iff] at parts
        exact absurd (exists_isParted_iff.mp ⟨_, _, _, parts⟩) other
      case h_2 => rfl
  | hourDigits parts misfit =>
      rw [parse_of_isParted core parts, field_of_not_isNumeral misfit]
      rfl
  | minuteDigits parts hourFits misfit =>
      rw [parse_of_isParted core parts, field_of_isNumeral hourFits,
        field_of_not_isNumeral misfit]
      rfl
  | secondDigits parts hourFits minuteFits misfit =>
      rw [parse_of_isParted core parts, field_of_isNumeral hourFits,
        field_of_isNumeral minuteFits, field_of_not_isNumeral misfit]
      rfl
  | minute parts hourFits minuteFits secondFits late =>
      rw [parse_of_isNumerals core parts hourFits minuteFits secondFits, ofClock, if_pos late]
  | second parts hourFits minuteFits secondFits early late =>
      rw [parse_of_isNumerals core parts hourFits minuteFits secondFits, ofClock,
        if_neg (Nat.not_lt.mpr early), if_pos late]

/-- Every text shows a time or is misread. -/
theorem shows_or_isMisread (core : IsCore text.toList characters) :
    (∃ hour minute second, Shows text hour minute second ∧ minute ≤ 59 ∧ second ≤ 59) ∨
      ∃ fault, IsMisread characters fault := by
  by_cases colons : characters.count ':' = 2
  case neg => exact .inr ⟨_, .parts colons⟩
  obtain ⟨hours, minutes, seconds, parts⟩ := exists_isParted_iff.mpr colons
  by_cases hourFits : IsNumeral 1 3 hours
  case neg => exact .inr ⟨_, .hourDigits parts hourFits⟩
  by_cases minuteFits : IsNumeral 2 2 minutes
  case neg => exact .inr ⟨_, .minuteDigits parts hourFits minuteFits⟩
  by_cases secondFits : IsNumeral 2 2 seconds
  case neg => exact .inr ⟨_, .secondDigits parts hourFits minuteFits secondFits⟩
  rcases Nat.lt_or_ge 59 (numeralValue minutes) with late | minuteInHour
  · exact .inr ⟨_, .minute parts hourFits minuteFits secondFits late⟩
  rcases Nat.lt_or_ge 59 (numeralValue seconds) with late | secondInMinute
  · exact .inr ⟨_, .second parts hourFits minuteFits secondFits minuteInHour late⟩
  · rw [parts.joined] at core
    exact .inl ⟨_, _, _, .clock core hourFits minuteFits secondFits, minuteInHour,
      secondInMinute⟩

theorem parse_eq_ok_iff {time : ServiceTime} :
    parse text = .ok time ↔
      ∃ hour minute second, Shows text hour minute second ∧ minute ≤ 59 ∧ second ≤ 59 ∧
        time.seconds.toNat = 3600 * hour + 60 * minute + second := by
  constructor
  · intro read
    have core := isCore_trim text.toList
    rcases shows_or_isMisread core with
      ⟨hour, minute, second, shown, minuteInHour, secondInMinute⟩ | ⟨fault, misread⟩
    · obtain ⟨known, readAgain, total⟩ :=
        exists_parse_of_shows shown minuteInHour secondInMinute
      cases read.symm.trans readAgain
      exact ⟨hour, minute, second, shown, minuteInHour, secondInMinute, total⟩
    · cases read.symm.trans (parse_of_isMisread core misread)
  · rintro ⟨hour, minute, second, shown, minuteInHour, secondInMinute, total⟩
    obtain ⟨known, read, knownTotal⟩ := exists_parse_of_shows shown minuteInHour secondInMinute
    have same : known.seconds = time.seconds := UInt32.toNat_inj.mp (knownTotal.trans total.symm)
    cases known
    cases time
    cases same
    exact read

theorem parse_eq_error_iff :
    parse text = .error fault ↔ ∃ core, IsCore text.toList core ∧ IsMisread core fault := by
  constructor
  · intro refused
    have core := isCore_trim text.toList
    rcases shows_or_isMisread core with
      ⟨hour, minute, second, shown, minuteInHour, secondInMinute⟩ | ⟨known, misread⟩
    · obtain ⟨time, read, _⟩ := exists_parse_of_shows shown minuteInHour secondInMinute
      cases refused.symm.trans read
    · cases refused.symm.trans (parse_of_isMisread core misread)
      exact ⟨_, core, misread⟩
  · rintro ⟨core, known, misread⟩
    exact parse_of_isMisread known misread

/-- A text is read exactly if it shows hours of at most three digits and minutes and seconds
below sixty, and then as the time it shows.  Otherwise it is refused for what is misread, and
never because the time were too late for a service time. -/
theorem parse_reads_what_is_shown (text : String) :
    ((∃ time, parse text = .ok time) ↔
        ∃ hour minute second, Shows text hour minute second ∧ minute ≤ 59 ∧ second ≤ 59) ∧
      (∀ time, parse text = .ok time ↔
        ∃ hour minute second, Shows text hour minute second ∧ minute ≤ 59 ∧ second ≤ 59 ∧
          time.seconds.toNat = 3600 * hour + 60 * minute + second) ∧
      (∀ fault, parse text = .error fault ↔
        ∃ core, IsCore text.toList core ∧ IsMisread core fault) ∧
      parse text ≠ .error .hour := by
  refine ⟨⟨?_, ?_⟩, fun _ => parse_eq_ok_iff, fun _ => parse_eq_error_iff, ?_⟩
  · rintro ⟨time, read⟩
    obtain ⟨hour, minute, second, shown, minuteInHour, secondInMinute, _⟩ :=
      parse_eq_ok_iff.mp read
    exact ⟨hour, minute, second, shown, minuteInHour, secondInMinute⟩
  · rintro ⟨hour, minute, second, shown, minuteInHour, secondInMinute⟩
    obtain ⟨time, read, _⟩ := exists_parse_of_shows shown minuteInHour secondInMinute
    exact ⟨time, read⟩
  · intro refused
    obtain ⟨core, _, misread⟩ := parse_eq_error_iff.mp refused
    cases misread

/-- Blanks are left out around a text but not inside it, and of all digits of the world only the
plain ones count. -/
example :
    parse "\u3000 7:05:09\n" = .ok ⟨25509⟩ ∧ parse "7: 5:09" = .error .minuteDigits ∧
      parse "٧:05:09" = .error .hourDigits := by
  decide +kernel

end ServiceTime

end Transit

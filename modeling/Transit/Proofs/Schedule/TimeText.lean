import Transit.Proofs.Chronology.Reading
import Transit.Proofs.Order.Results
import Transit.Schedule.ServiceTime

/-!
# Service times that are written and read

A service time is written with as many hour digits as its hours have, and at least two, but
is read with at most three.  What is written can therefore be read back exactly for times of
fewer than a thousand hours.  Nothing later is ever read, so that whatever text a time was
read from, its written form is read as the same time.
-/

namespace Transit

namespace Text

/-- Three texts without a colon are the parts of the text that puts them together by colons. -/
theorem splitOn_colons {first second third : List Char}
    (inFirst : ':' ∉ first) (inSecond : ':' ∉ second) (inThird : ':' ∉ third) :
    (first ++ ':' :: (second ++ ':' :: third)).splitOn ':' = [first, second, third] := by
  have joined : [':'].intercalate [first, second, third] =
      first ++ ':' :: (second ++ ':' :: third) := by
    simp [List.intercalate]
  rw [← joined]
  exact List.splitOn_intercalate ':' (by simp [inFirst, inSecond, inThird]) (by simp)

theorem colon_notMem_padded (width number : Nat) : ':' ∉ (padded width number).toList := by
  intro member
  have digit := isDigit_of_mem_padded member
  simp at digit

/-- A number fits a field of `most` digits if it is below the power of ten with as many zeros. -/
theorem length_padded_le_iff {width most number : Nat} (room : width ≤ most) (some : 0 < most) :
    (padded width number).toList.length ≤ most ↔ number < 10 ^ most := by
  rw [length_padded, Nat.max_le, Nat.length_toDigits_le_iff (by decide) some]
  exact and_iff_right room

end Text

namespace ServiceTime

open Text

section Reading

variable {hours minutes seconds : Nat} {least most number : Nat} {fault : TimeFault}
  {characters : List Char} {time : ServiceTime}

theorem ofClock_eq_ok_iff :
    ofClock hours minutes seconds = .ok time ↔
      minutes ≤ 59 ∧ seconds ≤ 59 ∧
        time.seconds.toNat = hours * 3600 + (minutes * 60 + seconds) := by
  have below := time.seconds.toNat_lt_size
  unfold ofClock
  split
  case isTrue late => simp; omega
  case isFalse early =>
    split
    case isTrue late => simp; omega
    case isFalse soon =>
      split
      case isTrue fits =>
        rw [Except.ok.injEq]
        constructor
        · rintro rfl
          exact ⟨by omega, by omega, UInt32.toNat_ofNat_of_lt' fits⟩
        · rintro ⟨_, _, same⟩
          rw [← same, UInt32.ofNat_toNat]
      case isFalse beyond => simp; omega

theorem field_eq_ok_iff :
    field least most fault characters = .ok number ↔
      least ≤ characters.length ∧ characters.length ≤ most ∧
        (∀ character ∈ characters, character.isDigit = true) ∧
        numeralValue characters = number := by
  unfold field
  split
  case isTrue fits =>
    rw [List.all_eq_true] at fits
    rw [Except.ok.injEq]
    exact ⟨fun same => ⟨fits.1, fits.2.1, fits.2.2, same⟩, fun filled => filled.2.2.2⟩
  case isFalse misfit =>
    rw [List.all_eq_true] at misfit
    constructor
    · intro refused
      cases refused
    · rintro ⟨long, short, digits, _⟩
      exact absurd ⟨long, short, digits⟩ misfit

/-- A number with few enough digits fills its field. -/
theorem field_padded {width : Nat} (wide : least ≤ width) (room : width ≤ most) (some : 0 < most)
    (small : number < 10 ^ most) :
    field least most fault (padded width number).toList = .ok number := by
  refine field_eq_ok_iff.mpr ⟨?_, (length_padded_le_iff room some).mpr small,
    fun _ => isDigit_of_mem_padded, numeralValue_padded width number⟩
  rw [length_padded]
  omega

/-- A number with too many digits is refused. -/
theorem field_padded_of_large {width : Nat} (room : width ≤ most) (some : 0 < most)
    (large : 10 ^ most ≤ number) :
    field least most fault (padded width number).toList = .error fault := by
  have long : ¬ (padded width number).toList.length ≤ most := by
    rw [length_padded_le_iff room some]
    omega
  rw [field, if_neg fun fits => long fits.2.1]

theorem parse_of_splitOn {text : String} {first second third : List Char}
    (parts : (trim text.toList).splitOn ':' = [first, second, third]) :
    parse text = (do
      let hours ← field 1 3 .hourDigits first
      let minutes ← field 2 2 .minuteDigits second
      let seconds ← field 2 2 .secondDigits third
      ofClock hours minutes seconds) := by
  rw [parse, parts]

/-- What is read has hours of at most three digits, and minutes and seconds below sixty. -/
theorem seconds_lt_of_parse {text : String} (read : parse text = .ok time) :
    time.seconds.toNat < 3600000 := by
  unfold parse at read
  split at read
  case h_1 first second third _ =>
    obtain ⟨hours, hourDigits, read⟩ := Except.bind_eq_ok.mp read
    obtain ⟨minutes, _, read⟩ := Except.bind_eq_ok.mp read
    obtain ⟨seconds, _, read⟩ := Except.bind_eq_ok.mp read
    obtain ⟨_, short, digits, rfl⟩ := field_eq_ok_iff.mp hourDigits
    obtain ⟨minuteInHour, secondInMinute, total⟩ := ofClock_eq_ok_iff.mp read
    have few : numeralValue first < 10 ^ 3 :=
      Nat.lt_of_lt_of_le (numeralValue_lt digits) (Nat.pow_le_pow_right (by decide) short)
    omega
  case h_2 => cases read

end Reading

section Writing

variable (time : ServiceTime)

theorem toList_text :
    time.text.toList =
      (padded 2 (time.seconds.toNat / 3600)).toList ++ ':' ::
        ((padded 2 (time.seconds.toNat / 60 % 60)).toList ++ ':' ::
          (padded 2 (time.seconds.toNat % 60)).toList) := by
  have joined : time.text =
      padded 2 (time.seconds.toNat / 3600) ++ ":" ++ padded 2 (time.seconds.toNat / 60 % 60) ++
        ":" ++ padded 2 (time.seconds.toNat % 60) := rfl
  simp [joined]

/-- A written time begins and ends with a digit. -/
theorem trim_text : trim time.text.toList = time.text.toList := by
  have ends : ∀ number, (padded 2 number).toList ≠ [] := by
    intro number nothing
    have wide := length_padded 2 number
    rw [nothing, List.length_nil] at wide
    omega
  apply trim_eq_self
  · intro first member
    rw [toList_text, List.head?_append_of_ne_nil _ (ends _)] at member
    exact isBlank_of_isDigit (isDigit_of_mem_padded (List.mem_of_mem_head? member))
  · intro last member
    have closing : time.text.toList =
        ((padded 2 (time.seconds.toNat / 3600)).toList ++ ':' ::
          ((padded 2 (time.seconds.toNat / 60 % 60)).toList ++ [':'])) ++
            (padded 2 (time.seconds.toNat % 60)).toList := by
      simp [toList_text]
    rw [closing, List.getLast?_append_of_ne_nil _ (ends _)] at member
    exact isBlank_of_isDigit (isDigit_of_mem_padded (List.mem_of_mem_getLast? member))

theorem splitOn_text :
    (trim time.text.toList).splitOn ':' =
      [(padded 2 (time.seconds.toNat / 3600)).toList,
        (padded 2 (time.seconds.toNat / 60 % 60)).toList,
        (padded 2 (time.seconds.toNat % 60)).toList] := by
  rw [trim_text, toList_text]
  exact splitOn_colons (colon_notMem_padded _ _) (colon_notMem_padded _ _)
    (colon_notMem_padded _ _)

/-- A time of fewer than a thousand hours is read back from its written form. -/
theorem parse_text (near : time.seconds.toNat < 3600000) : parse time.text = .ok time := by
  rw [parse_of_splitOn time.splitOn_text,
    field_padded (by decide) (by decide) (by decide) (by omega),
    field_padded (by decide) (by decide) (by decide) (by omega),
    field_padded (by decide) (by decide) (by decide) (by omega)]
  refine ofClock_eq_ok_iff.mpr ⟨by omega, by omega, by omega⟩

/-- The hours of a later time have too many digits. -/
theorem parse_text_of_far (far : 3600000 ≤ time.seconds.toNat) :
    parse time.text = .error .hourDigits := by
  rw [parse_of_splitOn time.splitOn_text,
    field_padded_of_large (by decide) (by decide) (by omega)]
  rfl

end Writing

/-- The written form of a time is read back exactly for the times that can be read at all, which
are those of fewer than a thousand hours; a later one is refused for its hours.  Whatever text
a time was read from, writing it and reading again gives the same time and the same text. -/
theorem parse_text_reaches (time : ServiceTime) :
    (parse time.text =
        if time.seconds.toNat < 3600000 then .ok time else .error .hourDigits) ∧
      ((∃ written, parse written = .ok time) ↔ time.seconds.toNat < 3600000) ∧
      ∀ written, parse written = .ok time →
        parse time.text = .ok time ∧ (parse time.text).map text = .ok time.text := by
  refine ⟨?_, ⟨?_, fun near => ⟨time.text, time.parse_text near⟩⟩, ?_⟩
  · split
    case isTrue near => exact time.parse_text near
    case isFalse far => exact time.parse_text_of_far (Nat.le_of_not_lt far)
  · rintro ⟨written, read⟩
    exact seconds_lt_of_parse read
  · intro written read
    have back := time.parse_text (seconds_lt_of_parse read)
    refine ⟨back, ?_⟩
    rw [back]
    rfl

/-- The last time that can be read, from a text with blanks around it. -/
theorem parse_text_reaches_last :
    parse "\t999:59:59 " = .ok ⟨3599999⟩ ∧
      parse (text ⟨3599999⟩) = .ok ⟨3599999⟩ ∧
        (parse (text ⟨3599999⟩)).map text = .ok (text ⟨3599999⟩) := by
  have read : parse "\t999:59:59 " = .ok ⟨3599999⟩ := by decide +kernel
  exact ⟨read, (parse_text_reaches ⟨3599999⟩).2.2 _ read⟩

example : text ⟨3600000⟩ = "1000:00:00" ∧ parse "1000:00:00" = .error .hourDigits := by
  decide +kernel

end ServiceTime

end Transit

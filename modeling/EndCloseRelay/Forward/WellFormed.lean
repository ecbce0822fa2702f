import EndCloseRelay.Calendar.Dates
import EndCloseRelay.Forward.KeyCollisions
import EndCloseRelay.Forward.Amounts

/-!
# Well-formed records

A record that End Close can take has a calendar date, an external id and a
whole number of cents.  `maps_well_iff` says for which payloads `mapEvent`
makes such a record or refuses with a `MappingError`.
-/

namespace EndCloseRelay

open Js
open Calendar (Date IsDate fixed layout)

/-! ## Texts of dates -/

theorem isDigit_eq (c : Char) : isDigit c = c.isDigit := by
  rw [Bool.eq_iff_iff]
  simp [isDigit, Char.isDigit, Char.le_def]

/-- Digits padded to a width are the digits of their value. -/
theorem padStartZero_digits {digits : List Char} (all : ∀ c ∈ digits, isDigit c) {width : Nat}
    (short : digits.length ≤ width) :
    padStartZero (String.ofList digits) width = String.ofList (fixed width (digitsValue digits)) := by
  have same := Calendar.fixed_ofDigitChars (fun c member => (isDigit_eq c) ▸ all c member) short
  rw [digitsValue_eq, same]
  unfold padStartZero
  rw [String.toList_ofList]

theorem padStartZero_toString {n width : Nat} (some_ : 0 < width) (small : n < 10 ^ width) :
    padStartZero (toString n) width = String.ofList (fixed width n) := by
  rw [← Calendar.fixed_of_toDigits some_ small, padStartZero, Nat.toString_eq_repr, Nat.toList_repr]

/-- The text of a date is the first ten characters of whatever it begins. -/
theorem sliceTo_date (date : Date) (rest : String) : sliceTo (date.text ++ rest) 10 = date.text := by
  have ten : date.text.toList.length = 10 := by
    rw [Date.text, String.toList_ofList]
    simp [layout]
  refine sliceTo_append ((length_units fun c member => ?_).trans ten) rest
  rw [Date.text, String.toList_ofList] at member
  have plain : c.isDigit ∨ c = '-' := by
    simp only [layout, List.mem_append, List.mem_cons] at member
    rcases member with year | rfl | month | rfl | day
    · exact .inl (Calendar.isDigit_of_mem_fixed year)
    · exact .inr rfl
    · exact .inl (Calendar.isDigit_of_mem_fixed month)
    · exact .inr rfl
    · exact .inl (Calendar.isDigit_of_mem_fixed day)
  rcases plain with digit | rfl
  · exact Nat.lt_of_le_of_lt (Char.isDigit_iff_toNat.mp digit).2 (by decide)
  · decide

/-! ## Times -/

/-- A time in ISO 8601 spelling: a date, and the time of day. -/
def IsoTime (text : String) : Prop := ∃ (date : Date) (rest : String), text = date.text ++ ("T" ++ rest)

/-- The instants of the years of four digits. -/
def FourDigitYear (ms : Int) : Prop := -62167219200000 ≤ ms ∧ ms < 253402300800000

theorem fourDigitYear_iff (ms : Int) : FourDigitYear ms ↔
    0 ≤ Calendar.yearOf (ms / 86400000 + 719468) ∧ Calendar.yearOf (ms / 86400000 + 719468) ≤ 9999 := by
  obtain ⟨first, last⟩ := Calendar.yearOf_spec (ms / 86400000 + 719468)
  rw [first, last]
  unfold FourDigitYear
  omega

/-- The time of day as `toISOString` writes it. -/
def timeOfDay (ms : Int) : String :=
  let milli := (ms % 86400000).toNat
  let pad (n width : Nat) := padStartZero (toString n) width
  pad (milli / 3600000) 2 ++ (":" ++ (pad (milli / 60000 % 60) 2 ++ (":" ++
    (pad (milli / 1000 % 60) 2 ++ ("." ++ (pad (milli % 1000) 3 ++ "Z"))))))

/-- The year as `toISOString` writes it. -/
def yearText (year : Int) : String :=
  if year < 0 then "-" ++ padStartZero (toString year.natAbs) 6
  else if year ≤ 9999 then padStartZero (toString year.toNat) 4
  else "+" ++ padStartZero (toString year.toNat) 6

/-- `toISOString` begins with the year, the month and the day. -/
theorem toISOString_eq (ms : Int) :
    let day := ms / 86400000 + 719468
    let inYear := Calendar.dayOfYear (day % 146097).toNat
    toISOString ms = yearText (Calendar.yearOf day) ++
      ("-" ++ (padStartZero (toString (Calendar.monthOf inYear)) 2 ++
        ("-" ++ (padStartZero (toString (Calendar.dayOf inYear)) 2 ++ ("T" ++ timeOfDay ms))))) := by
  unfold toISOString timeOfDay
  simp only [String.append_assoc]
  rfl

/-- In the years of four digits these are a date. -/
theorem isoTime_toISOString {ms : Int} (inYears : FourDigitYear ms) : IsoTime (toISOString ms) := by
  obtain ⟨first, last⟩ := (fourDigitYear_iff ms).mp inYears
  obtain ⟨⟨january, december⟩, one, end_⟩ := Calendar.day_spec (ms / 86400000 + 719468)
  have written := toISOString_eq ms
  simp only at written
  generalize Calendar.yearOf (ms / 86400000 + 719468) = year at *
  generalize Calendar.dayOfYear ((ms / 86400000 + 719468) % 146097).toNat = inYear at *
  obtain ⟨year, rfl⟩ := Int.eq_ofNat_of_zero_le first
  have few := Calendar.daysIn_le year (Calendar.monthOf inYear)
  have four : year < 10 ^ 4 := by omega
  refine ⟨⟨year, Calendar.monthOf inYear, Calendar.dayOf inYear, four, ⟨january, december⟩, one, end_⟩,
    timeOfDay ms, written.trans ?_⟩
  unfold yearText
  rw [if_neg (by omega), if_pos last, Int.toNat_natCast, padStartZero_toString (by decide) four,
    padStartZero_toString (by decide) (by omega), padStartZero_toString (by decide) (by omega)]
  unfold Date.text layout
  simp only [← String.toList_inj, String.toList_append, String.toList_ofList, List.append_assoc,
    List.cons_append]
  rfl

/-- Outside of them the text begins with a sign. -/
theorem signed_toISOString {ms : Int} (outside : ¬ FourDigitYear ms) (date : Date) :
    sliceTo (toISOString ms) 10 ≠ date.text := by
  have written := toISOString_eq ms
  simp only at written
  rw [fourDigitYear_iff] at outside
  generalize Calendar.yearOf (ms / 86400000 + 719468) = year at *
  -- a date begins with a digit
  have digit : ∀ c, date.text.toList.head? = some c → c.isDigit := by
    intro c head
    have some_ : fixed 4 date.year ≠ [] := List.ne_nil_of_length_pos (by simp)
    rw [Date.text, String.toList_ofList, layout, List.head?_append_of_ne_nil _ some_] at head
    exact Calendar.isDigit_of_mem_fixed (List.mem_of_mem_head? head)
  have signed : ∃ c, (toISOString ms).toList.head? = some c ∧ ¬ c.isDigit ∧ c.toNat < 0x10000 := by
    rw [written]
    unfold yearText
    by_cases negative : year < 0
    · rw [if_pos negative]
      exact ⟨'-', by simp, by decide, by decide⟩
    · rw [if_neg negative, if_neg (by omega)]
      exact ⟨'+', by simp, by decide, by decide⟩
  intro same
  obtain ⟨c, head, sign⟩ := signed
  refine sign.1 (digit c ?_)
  rw [← same]
  exact head?_sliceTo head sign.2 9

/-! ## Dates as they are written -/

/-- The text begins with a date as `M/D/YYYY`. -/
def HeadedBy (s : String) (date : Date) : Prop := ∃ month day year rest : List Char,
  s.toList = month ++ '/' :: (day ++ '/' :: (year ++ rest)) ∧
    (∀ c ∈ month ++ day ++ year, isDigit c) ∧
    digitsValue month = date.month ∧ digitsValue day = date.day ∧ digitsValue year = date.year

theorem digitsThenSlash_spec {limit : Nat} {text digits rest : List Char}
    (read : digitsThenSlash limit text = some (digits, rest)) :
    text = digits ++ '/' :: rest ∧ (∀ c ∈ digits, isDigit c) ∧ digits.length ≤ limit := by
  unfold digitsThenSlash at read
  simp only at read
  split at read
  · rename_i behind slash
    split at read
    · rename_i within
      obtain ⟨rfl, rfl⟩ := Prod.mk.inj (Option.some.inj read)
      rw [Bool.and_eq_true, decide_eq_true_iff, decide_eq_true_iff] at within
      refine ⟨?_, fun c member => List.mem_takeWhile_imp member, within.2⟩
      rw [← slash, List.takeWhile_append_dropWhile]
    · cases read
  · cases read

/-- What `mdyParts` reads stands at the head of the text. -/
theorem mdyParts_spec {text month day year : List Char} (read : mdyParts text = some (month, day, year)) :
    ∃ rest, text = month ++ '/' :: (day ++ '/' :: (year ++ rest)) ∧
      (∀ c ∈ month ++ day ++ year, isDigit c) ∧ month.length ≤ 2 ∧ day.length ≤ 2 ∧ year.length = 4 := by
  unfold mdyParts at read
  obtain ⟨⟨m, rest⟩, first, behind⟩ := Option.bind_eq_some_iff.mp read
  obtain ⟨⟨d, rest'⟩, second, last⟩ := Option.bind_eq_some_iff.mp behind
  clear read behind
  obtain ⟨rfl, months, short⟩ := digitsThenSlash_spec first
  obtain ⟨rfl, days, short'⟩ := digitsThenSlash_spec second
  simp only at last
  split at last
  · rename_i whole
    obtain ⟨rfl, same⟩ := Prod.mk.inj (Option.some.inj last)
    obtain ⟨rfl, rfl⟩ := Prod.mk.inj same
    rw [Bool.and_eq_true, Bool.and_eq_true, beq_iff_eq, List.all_eq_true] at whole
    refine ⟨rest'.drop 4, ?_, ?_, short, short', whole.1.1⟩
    · rw [List.take_append_drop]
    · intro c member
      rcases List.mem_append.mp member with member | member
      · rcases List.mem_append.mp member with member | member
        · exact months c member
        · exact days c member
      · exact whole.1.2 c member
  · cases last

theorem digitsValue_lt {digits : List Char} {width : Nat} (all : ∀ c ∈ digits, isDigit c)
    (short : digits.length ≤ width) : digitsValue digits < 10 ^ width := by
  have below := Calendar.ofDigitChars_lt fun c member => (isDigit_eq c) ▸ all c member
  rw [digitsValue_eq]
  exact Nat.lt_of_lt_of_le below (Nat.pow_le_pow_right (by decide) short)

/-- The text of a date read as `M/D/YYYY`. -/
theorem mdyText_eq {text month day year : List Char} (read : mdyParts text = some (month, day, year)) :
    String.ofList year ++ "-" ++ padStartZero (String.ofList month) 2 ++ "-" ++
        padStartZero (String.ofList day) 2 =
      String.ofList (layout (digitsValue year) (digitsValue month) (digitsValue day)) := by
  obtain ⟨rest, -, digits, months, days, years⟩ := mdyParts_spec read
  have each : (∀ c ∈ month, isDigit c) ∧ (∀ c ∈ day, isDigit c) ∧ ∀ c ∈ year, isDigit c := by
    refine ⟨fun c member => digits c ?_, fun c member => digits c ?_, fun c member => digits c ?_⟩ <;>
      simp [member]
  have whole : String.ofList year = String.ofList (fixed 4 (digitsValue year)) := by
    rw [← padStartZero_digits each.2.2 years.le, padStartZero, String.toList_ofList, years]
    rfl
  rw [whole, padStartZero_digits each.1 months, padStartZero_digits each.2.1 days]
  unfold layout
  simp only [← String.toList_inj, String.toList_append, String.toList_ofList, List.append_assoc]
  rfl

/-- What the payload gives for the date, once it can be read, is in the calendar. -/
def DateReal (rt : Runtime) (payload : Json) : Option DateRef → Prop
  | none => True
  | some ref => ∀ s, getAtPath payload (dateSource ref).1 = some (.str s) →
    match (dateSource ref).2 with
    | .mdyHms => ∀ month day year, mdyParts s.toList = some (month, day, year) →
      IsDate (digitsValue year) (digitsValue month) (digitsValue day)
    | .iso8601 => ∀ ms, rt.dateParse s = some ms → FourDigitYear ms

/-- A date is read off a string. -/
theorem string_of_dateText {rt : Runtime} {payload : Json} {receivedAt text : String} {ref : DateRef}
    (read : dateText rt (getAtPath payload) receivedAt (some ref) = .ok text) :
    ∃ s, getAtPath payload (dateSource ref).1 = some (.str s) ∧
      parseDate rt (.str s) (dateSource ref).2 = .ok text := by
  replace read : parseDate rt ((getAtPath payload (dateSource ref).1).getD .null) (dateSource ref).2 =
    .ok text := read
  cases found : getAtPath payload (dateSource ref).1 with
  | none =>
    rw [found] at read
    cases read
  | some v =>
    rw [found, Option.getD_some] at read
    cases v with
    | str s => exact ⟨s, rfl, read⟩
    | _ => cases read

/-- A date that can be read is a calendar date, and the one written, exactly when
what it is read from is in the calendar. -/
theorem date_iff {rt : Runtime} {payload : Json} {receivedAt text : String} {date : Option DateRef}
    (iso : IsoTime receivedAt) (read : dateText rt (getAtPath payload) receivedAt date = .ok text) :
    (∃ d : Date, text = d.text ∧ ∀ ref ∈ date, (dateSource ref).2 = .mdyHms →
      ∃ s, getAtPath payload (dateSource ref).1 = some (.str s) ∧ HeadedBy s d) ↔
    DateReal rt payload date := by
  cases date with
  | none =>
    obtain ⟨d, rest, rfl⟩ := iso
    obtain rfl := Except.ok.inj read
    exact iff_of_true ⟨d, sliceTo_date d _, nofun⟩ trivial
  | some ref =>
    obtain ⟨s, there, parsed⟩ := string_of_dateText read
    have only : ∀ s', getAtPath payload (dateSource ref).1 = some (.str s') ↔ s = s' := by
      intro s'
      rw [there]
      exact ⟨fun same => Json.str.inj (Option.some.inj same), fun same => same ▸ rfl⟩
    unfold DateReal
    simp only [only, forall_eq', Option.mem_some_iff, exists_eq_left']
    unfold parseDate at parsed
    simp only at parsed
    split at parsed
    · cases parsed
    cases format : (dateSource ref).2 with
    | mdyHms =>
      rw [format] at parsed
      simp only at parsed ⊢
      cases parts : mdyParts s.toList with
      | none =>
        rw [parts] at parsed
        cases parsed
      | some found =>
        obtain ⟨month, day, year⟩ := found
        rw [parts] at parsed
        obtain rfl := Except.ok.inj parsed
        obtain ⟨rest, head, digits, months, days, years⟩ := mdyParts_spec parts
        have fits : digitsValue year < 10000 ∧ digitsValue month < 100 ∧ digitsValue day < 100 := by
          refine ⟨digitsValue_lt (fun c member => digits c ?_) years.le,
            digitsValue_lt (fun c member => digits c ?_) months,
            digitsValue_lt (fun c member => digits c ?_) days⟩ <;> simp [member]
        rw [mdyText_eq parts]
        constructor
        · rintro ⟨d, same, -⟩ month' day' year' read'
          obtain ⟨rfl, rest⟩ := Prod.mk.inj (Option.some.inj read')
          obtain ⟨rfl, rfl⟩ := Prod.mk.inj rest
          exact (Calendar.exists_date_iff fits).mp ⟨d, same.symm⟩
        · intro real
          exact ⟨⟨_, _, _, real month day year rfl⟩, rfl, fun _ =>
            ⟨month, day, year, rest, head, digits, rfl, rfl, rfl⟩⟩
    | iso8601 =>
      rw [format] at parsed
      simp only at parsed ⊢
      cases instant : rt.dateParse s with
      | none =>
        rw [instant] at parsed
        cases parsed
      | some ms =>
        rw [instant] at parsed
        obtain rfl := Except.ok.inj parsed
        constructor
        · rintro ⟨d, same, -⟩ ms' again
          obtain rfl := Option.some.inj again
          by_contra outside
          exact signed_toISOString outside d same
        · intro real
          obtain ⟨d, rest, written⟩ := isoTime_toISOString (real ms rfl)
          exact ⟨d, by rw [written, sliceTo_date], fun other => by cases other⟩

/-! ## Amounts beyond the doubles -/

/-- Rounding a quotient of 53 bits, half to even, keeps it at 53 bits up to half a unit. -/
theorem rounded_lt_iff {half floor rest : Nat} (some_ : 0 < half) (below : rest < 2 * half)
    (bits : floor < 2 ^ 53) :
    (if 2 * rest < 2 * half ∨ (2 * rest = 2 * half ∧ floor % 2 = 0) then floor else floor + 1) < 2 ^ 53 ↔
      2 * (floor * half) + rest < 2 ^ 54 * half - half := by
  by_cases last : floor = 2 ^ 53 - 1
  · subst last
    split <;> omega
  · have few : floor ≤ 2 ^ 53 - 2 := by omega
    have product := Nat.mul_le_mul_right half few
    refine iff_of_true ?_ (by omega)
    split <;> omega

/-- A number is a finite double unless it is no nearer to the largest than to `2 ^ 1024`. -/
theorem roundNat_finite_iff (n : Nat) :
    ((∃ k, roundNat n = .integer k) ↔ n < 2 ^ 1024 - 2 ^ 970) ∧
      ∀ k, roundNat n = .integer k → k.toNat ≤ 2 ^ 1024 - 2 ^ 971 := by
  have top : (2 : Nat) ^ 1024 = 2 ^ 54 * 2 ^ 970 := by rw [← pow_add]
  have two : (2 : Nat) ^ 971 = 2 * 2 ^ 970 := by rw [← pow_succ']
  have limit : ((2 : Nat) ^ 256) ^ 4 = 2 ^ 54 * 2 ^ 970 := by rw [← pow_mul, ← pow_add]
  have some_ : 0 < (2 : Nat) ^ 970 := by positivity
  have middle : (2 : Nat) ^ 1023 = 2 ^ 53 * 2 ^ 970 := by rw [← pow_add]
  unfold roundNat
  by_cases small : n < 2 ^ 53
  · rw [if_pos small]
    refine ⟨iff_of_true ⟨n, rfl⟩ (by omega), fun k same => ?_⟩
    obtain rfl := Double.integer.inj same
    rw [Int.toNat_natCast]
    omega
  · rw [if_neg small, limit]
    simp only
    have positive : n ≠ 0 := by omega
    have low := Nat.log2_self_le positive
    have high := @Nat.lt_log2_self n
    have bits : 53 ≤ n.log2 := (Nat.le_log2 positive).mpr (not_lt.mp small)
    obtain ⟨e, log⟩ := Nat.exists_eq_add_of_le (Nat.le_of_succ_le bits)
    have unit : n.log2 - 52 = e := by omega
    rw [unit]
    rw [log, pow_add] at low
    rw [log, Nat.add_right_comm, pow_add] at high
    -- the quotient has 53 bits
    have units : 0 < (2 : Nat) ^ e := by positivity
    have least : 2 ^ 52 ≤ n / 2 ^ e := (Nat.le_div_iff_mul_le units).mpr low
    have most : n / 2 ^ e < 2 ^ 53 := (Nat.div_lt_iff_lt_mul units).mpr high
    have parts := Nat.div_add_mod n (2 ^ e)
    have rest := Nat.mod_lt n units
    rw [Nat.mul_comm] at parts
    generalize n / 2 ^ e = floor at *
    generalize n % 2 ^ e = r at *
    subst parts
    -- where the quotient goes decides, up to a power of two that is the last unit
    rcases Nat.lt_trichotomy e 971 with smaller | rfl | larger
    · have power := Nat.pow_le_pow_right (by decide : 0 < 2) (Nat.le_of_lt_succ smaller)
      have rounds : ∀ rounded, rounded ≤ floor + 1 → rounded * 2 ^ e ≤ 2 ^ 53 * 2 ^ 970 := by
        intro rounded near
        exact Nat.mul_le_mul (near.trans most) power
      have above := Nat.mul_le_mul (Nat.succ_le_of_lt most) power
      rw [Nat.succ_mul] at above
      have within := rounds (if 2 * r < 2 ^ e ∨ 2 * r = 2 ^ e ∧ floor % 2 = 0 then floor else floor + 1)
        (by split <;> omega)
      rw [if_pos (by omega)]
      refine ⟨iff_of_true ⟨_, rfl⟩ (by omega), fun k same => ?_⟩
      obtain rfl := Double.integer.inj same
      rw [Int.toNat_natCast]
      omega
    · rw [two] at rest ⊢
      have rounds := rounded_lt_iff some_ rest most
      generalize (if 2 * r < 2 * 2 ^ 970 ∨ 2 * r = 2 * 2 ^ 970 ∧ floor % 2 = 0 then floor else floor + 1) =
        rounded at *
      have scaled : rounded * (2 * 2 ^ 970) < 2 ^ 54 * 2 ^ 970 ↔ rounded < 2 ^ 53 := by
        have assoc : (2 : Nat) ^ 54 * 2 ^ 970 = 2 ^ 53 * (2 * 2 ^ 970) := by ring
        rw [assoc]
        exact Nat.mul_lt_mul_right (by omega)
      have same : floor * (2 * 2 ^ 970) + r = 2 * (floor * 2 ^ 970) + r := by ring
      rw [same, top]
      by_cases fits : rounded < 2 ^ 53
      · rw [if_pos (scaled.mpr fits)]
        refine ⟨iff_of_true ⟨_, rfl⟩ (rounds.mp fits), fun k equal => ?_⟩
        obtain rfl := Double.integer.inj equal
        have most := Nat.mul_le_mul_right (2 * 2 ^ 970) (Nat.le_pred_of_lt fits)
        rw [Int.toNat_natCast]
        omega
      · rw [if_neg (mt scaled.mp fits)]
        refine ⟨iff_of_false nofun (mt rounds.mpr fits), nofun⟩
    · have power := @Nat.pow_le_pow_right 2 (by decide) (971 + 1) e larger
      rw [pow_add, two, pow_one] at power
      have rounds : ∀ rounded, floor ≤ rounded → 2 ^ 54 * 2 ^ 970 ≤ rounded * 2 ^ e := by
        intro rounded near
        calc (2 : Nat) ^ 54 * 2 ^ 970 = 2 ^ 52 * (2 * 2 ^ 970 * 2) := by ring
          _ ≤ rounded * 2 ^ e := Nat.mul_le_mul (least.trans near) power
      have above := rounds (if 2 * r < 2 ^ e ∨ 2 * r = 2 ^ e ∧ floor % 2 = 0 then floor else floor + 1)
        (by split <;> omega)
      have under := rounds floor (le_refl floor)
      rw [if_neg (by omega)]
      exact ⟨iff_of_false nofun (by omega), nofun⟩

/-- The whole part of an amount, as a double, is a finite number of cents. -/
def Amount.Fits (a : Amount) : Prop :=
  ∃ w : Int, roundNat (digitsValue a.whole) = .integer w ∧ w.toNat * 100 < 2 ^ 1024 - 2 ^ 970

theorem integer_neg_iff (x : Double) : (∃ n, x.neg = .integer n) ↔ ∃ n, x = .integer n := by
  cases x with
  | integer n => exact iff_of_true ⟨-n, rfl⟩ ⟨n, rfl⟩
  | infinity negative => exact iff_of_false nofun nofun

theorem hundredths_lt (a : Amount) : a.hundredths < 100 := by
  have below := digitsValue_lt a.decimalDigits (le_refl a.decimals.length)
  have powers : 10 ^ a.decimals.length * 10 ^ (2 - a.decimals.length) = 100 := by
    rw [← pow_add, Nat.add_sub_cancel' a.short]
    rfl
  unfold Amount.hundredths
  calc digitsValue a.decimals * 10 ^ (2 - a.decimals.length)
      < 10 ^ a.decimals.length * 10 ^ (2 - a.decimals.length) :=
        Nat.mul_lt_mul_of_pos_right below (by positivity)
    _ = 100 := powers

/-- The cents of an amount are an integer when they are finite. -/
theorem amount_iff {v : Json} {a : Amount} {cents : Double} (read : amountText v = some a.text)
    (returns : toCents v = .ok cents) : (∃ n, cents = .integer n) ↔ a.Fits := by
  have few := hundredths_lt a
  rw [toCents_of_amount read] at returns
  obtain rfl := Except.ok.inj returns
  have signless : (∃ n, (if a.negative
      then (((roundNat (digitsValue a.whole)).scale 100).addNat a.hundredths).neg
      else ((roundNat (digitsValue a.whole)).scale 100).addNat a.hundredths) = .integer n) ↔
      ∃ n, ((roundNat (digitsValue a.whole)).scale 100).addNat a.hundredths = .integer n := by
    cases a.negative with
    | true => exact integer_neg_iff _
    | false => exact Iff.rfl
  rw [signless]
  unfold Amount.Fits
  cases whole : roundNat (digitsValue a.whole) with
  | infinity negative =>
    refine iff_of_false nofun ?_
    rintro ⟨w, same, -⟩
    cases same
  | integer w =>
    have scaled : Double.scale 100 (.integer w) = roundNat (w.toNat * 100) := rfl
    obtain ⟨finite, largest⟩ := roundNat_finite_iff (w.toNat * 100)
    constructor
    · rintro ⟨n, sum⟩
      refine ⟨w, rfl, finite.mp ?_⟩
      rw [scaled] at sum
      cases product : roundNat (w.toNat * 100) with
      | integer k => exact ⟨k, rfl⟩
      | infinity negative =>
        rw [product] at sum
        cases sum
    · rintro ⟨w', same, within⟩
      obtain rfl := Double.integer.inj same
      obtain ⟨k, product⟩ := finite.mpr within
      have most := largest k product
      rw [scaled, product]
      refine (roundNat_finite_iff (k.toNat + a.hundredths)).1.mpr ?_
      have two : (2 : Nat) ^ 971 = 2 * 2 ^ 970 := by rw [← pow_succ']
      have top : (2 : Nat) ^ 1024 = 2 ^ 54 * 2 ^ 970 := by rw [← pow_add]
      have large : 2 ^ 7 ≤ (2 : Nat) ^ 970 := @Nat.pow_le_pow_right 2 (by decide) 7 970 (by decide)
      omega

/-! ## Records -/

/-- A record End Close can take; a date read as `M/D/YYYY` is the one written. -/
structure WellFormed (payload : Json) (map : RecordMap) (record : EndCloseRecord) : Prop where
  date : ∃ d : Date, record.date = d.text ∧ ∀ ref ∈ map.date, (dateSource ref).2 = .mdyHms →
    ∃ s, getAtPath payload (dateSource ref).1 = some (.str s) ∧ HeadedBy s d
  externalId : record.externalId ≠ ""
  amount : ∃ n, record.amount = .integer n

section

variable {rt : Runtime} {maskingKey : Bytes} {route : RouteConfig} {payload : Json} {receivedAt : String}

/-- What comes of the payload is a well-formed record, or a refusal that parks it alone. -/
def MapsWell (rt : Runtime) (maskingKey : Bytes) (route : RouteConfig) (payload : Json)
    (receivedAt : String) : Prop :=
  (∃ m, mapEvent rt maskingKey route payload receivedAt = .ok m ∧ WellFormed payload route.map m.record) ∨
    ∃ message, mapEvent rt maskingKey route payload receivedAt = .error (.mapping message)

/-- What the payload has to give, once id, amount and date can be read. -/
structure Sound (rt : Runtime) (maskingKey : Bytes) (map : RecordMap) (payload : Json) : Prop where
  named : readValue (resolve rt maskingKey payload) map.externalId.ref ≠ some (.str "")
  counted : ∀ a : Amount, amountText ((readValue (resolve rt maskingKey payload) map.amount.ref).getD .null) =
    some a.text → a.Fits
  dated : DateReal rt payload map.date

/-- The id that is mapped is empty when the value is the empty string. -/
theorem externalId_iff {text : String}
    (named : route.map.externalIdOf (resolve rt maskingKey payload) = .ok text) :
    text ≠ "" ↔ readValue (resolve rt maskingKey payload) route.map.externalId.ref ≠ some (.str "") := by
  unfold RecordMap.externalIdOf at named
  cases read : resolve rt maskingKey payload route.map.externalId.ref with
  | error e =>
    rw [read] at named
    cases named
  | ok value =>
    rw [read] at named
    replace named : externalIdText route.map.externalId.ref value = .ok text := named
    rw [readValue_of_ok read]
    unfold externalIdText at named
    split at named
    · obtain rfl := Except.ok.inj named
      simp
    · rename_i n
      obtain rfl := Except.ok.inj named
      refine iff_of_true (fun empty => ?_) nofun
      have valid := n.valid
      rw [empty] at valid
      cases valid
    · cases named

/-- The amount that is mapped is a number of cents when the amount read fits. -/
theorem amountOf_iff {cents : Double}
    (counted : route.map.amountOf (resolve rt maskingKey payload) = .ok cents) :
    (∃ n, cents = .integer n) ↔ ∀ a : Amount,
      amountText ((readValue (resolve rt maskingKey payload) route.map.amount.ref).getD .null) =
        some a.text → a.Fits := by
  unfold RecordMap.amountOf at counted
  cases read : resolve rt maskingKey payload route.map.amount.ref with
  | error e =>
    rw [read] at counted
    cases counted
  | ok value =>
    rw [read] at counted
    replace counted : toCents (value.getD .null) = .ok cents := counted
    rw [readValue_of_ok read]
    obtain ⟨a, written⟩ := toCents_returns_iff.mp ⟨cents, counted⟩
    constructor
    · intro whole b also
      exact (amount_iff also counted).mp whole
    · intro fits
      exact (amount_iff written counted).mpr (fits a written)

/-- A mapped record is well formed when the payload is sound. -/
theorem wellFormed_iff (iso : IsoTime receivedAt) {record : EndCloseRecord} {pending : List PendingEnrichment}
    (maps : MapsTo rt (resolve rt maskingKey payload) (getAtPath payload) route receivedAt record pending) :
    WellFormed payload route.map record ↔ Sound rt maskingKey route.map payload := by
  have id := externalId_iff maps.externalId
  have amount := amountOf_iff maps.amount
  have date := date_iff iso maps.date
  constructor
  · intro formed
    exact ⟨id.mp formed.externalId, amount.mp formed.amount, date.mp formed.date⟩
  · intro sound
    exact ⟨date.mpr sound.dated, id.mpr sound.named, amount.mpr sound.counted⟩

/-- `mapEvent` makes a well-formed record or refuses with a `MappingError` exactly for
the payloads of which it hashes no inherited function and whose id, amount and date,
if they can all be read, are sound. -/
theorem maps_well_iff (iso : IsoTime receivedAt) : MapsWell rt maskingKey route payload receivedAt ↔
    ¬ ReachesHashedFunction rt maskingKey route payload receivedAt ∧
      ((∃ id, route.map.externalIdOf (resolve rt maskingKey payload) = .ok id) →
        (∃ cents, route.map.amountOf (resolve rt maskingKey payload) = .ok cents) →
        (∃ day, dateText rt (getAtPath payload) receivedAt route.map.date = .ok day) →
        Sound rt maskingKey route.map payload) := by
  by_cases reaches : ReachesHashedFunction rt maskingKey route payload receivedAt
  · refine iff_of_false ?_ fun both => both.1 reaches
    have throws := mapEvent_of_reaches reaches
    rintro (⟨m, returns, -⟩ | ⟨message, refused⟩)
    · cases throws.symm.trans returns
    · cases Except.error.inj (throws.symm.trans refused)
  · rw [and_iff_right reaches]
    rcases mapEventWith_cases rt (resolve rt maskingKey payload) (getAtPath payload) (leafPaths payload "")
      route receivedAt with ⟨record, pending, report, used, maps, returns, -⟩ | ⟨e, failure, throws⟩
    · rw [← wellFormed_iff iso maps]
      constructor
      · rintro (⟨m, returned, formed⟩ | ⟨message, refused⟩) - - -
        · obtain rfl := Except.ok.inj (returns.symm.trans returned)
          exact formed
        · cases returns.symm.trans refused
      · intro formed
        exact .inl ⟨_, returns, formed ⟨_, maps.externalId⟩ ⟨_, maps.amount⟩ ⟨_, maps.date⟩⟩
    · rcases mapEvent_error throws with ⟨message, rfl⟩ | reached
      · refine iff_of_true (.inr ⟨message, throws⟩) ?_
        -- the stage that fails is one of the three that are asked for
        rintro ⟨id, named⟩ ⟨cents, counted⟩ ⟨day, dated⟩
        cases failure with
        | externalId fails => cases fails.symm.trans named
        | amount _ fails => cases fails.symm.trans counted
        | date _ _ fails => cases fails.symm.trans dated
        | readLater _ _ _ _ refused =>
          cases ((resolve_error_iff rt maskingKey payload _ _).mp refused).2
      · exact absurd reached reaches

end

theorem maps_well_iff_plain :
    MapsWell (.knowing []) [] (plainRoute "payments") (plainPayload "txn_1") "2026-07-03T14:25:00Z" ↔
      ¬ ReachesHashedFunction (.knowing []) [] (plainRoute "payments") (plainPayload "txn_1")
          "2026-07-03T14:25:00Z" ∧
        ((∃ id, (plainRoute "payments").map.externalIdOf (resolve (.knowing []) [] (plainPayload "txn_1")) =
            .ok id) →
          (∃ cents, (plainRoute "payments").map.amountOf (resolve (.knowing []) [] (plainPayload "txn_1")) =
            .ok cents) →
          (∃ day, dateText (.knowing []) (getAtPath (plainPayload "txn_1")) "2026-07-03T14:25:00Z"
            (plainRoute "payments").map.date = .ok day) →
          Sound (.knowing []) [] (plainRoute "payments").map (plainPayload "txn_1")) :=
  maps_well_iff ⟨⟨2026, 7, 3, by decide⟩, "14:25:00Z", by decide⟩

/-- A route that dates its records by a field as `M/D/YYYY`. -/
def datedRoute : RouteConfig :=
  { plainRoute "payments" with
    map := { (plainRoute "payments").map with date := some (.object "date" .mdyHms) } }

/-- A payload of one cent with an id and a date. -/
def datedPayload (date : String) : Json :=
  .obj [("id", .str "txn_1"), ("amount", .str "0.01"), ("date", .str date)]

/-- The thirteenth month is mapped, and is no date. -/
theorem thirteenth_month_mapped : datedRoute.schemaValid ∧ ∃ m,
    mapEvent (.knowing []) [] datedRoute (datedPayload "13/45/2024 00:00:00") "2026-07-03T14:25:00Z" = .ok m ∧
      m.record.date = "2024-13-45" ∧ ∀ d : Date, m.record.date ≠ d.text := by
  refine ⟨by decide, _, rfl, rfl, fun d same => ?_⟩
  have written : "2024-13-45" = String.ofList (layout 2024 13 45) := by decide
  have valid := (Calendar.exists_date_iff (by decide)).mp ⟨d, same.symm.trans written⟩
  exact absurd valid (by decide)

end EndCloseRelay

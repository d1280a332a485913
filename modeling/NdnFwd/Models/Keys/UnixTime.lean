import Mathlib.Tactic.Ring
import NdnFwd.Core.Calendar

/-!
# The date of a certificate

`format_unix_secs` turns seconds since 1970 into a date by divisions alone. It numbers the days
from the first of March of the year 0, divides them into eras of four hundred years, and reads
year, month and day off the day of the era. Every operation that could overflow is checked here,
and `none` is the panic.
-/

namespace NdnFwd.UnixTime

section Arithmetic

/-- A sum or a product of `u64`. -/
def u64 (n : Nat) : Option Nat := if n < 2 ^ 64 then some n else none

/-- A difference of `u64`. -/
def sub (a b : Nat) : Option Nat := if b ≤ a then some (a - b) else none

/-- A result of `i64` arithmetic. -/
def i64 (x : Int) : Option Int := if -2 ^ 63 ≤ x ∧ x < 2 ^ 63 then some x else none

/-- `as i64`. -/
def asI64 (n : Nat) : Int := if n < 2 ^ 63 then n else n - 2 ^ 64

/-- `as u64`. -/
def asU64 (x : Int) : Nat := (x % 2 ^ 64).toNat

end Arithmetic

section Civil

/-- `era`. -/
def eraOf (z : Int) : Option Int := do
  let n ← if 0 ≤ z then some z else i64 (z - 146096)
  some (n.tdiv 146097)

/-- `doe`, the day of the era. -/
def doeOf (z era : Int) : Option Nat := do
  let start ← i64 (era * 146097)
  let day ← i64 (z - start)
  some (asU64 day)

/-- `yoe`, the year of the era. -/
def yoeOf (doe : Nat) : Option Nat := do
  let a ← sub doe (doe / 1460)
  let b ← u64 (a + doe / 36524)
  let c ← sub b (doe / 146096)
  some (c / 365)

/-- `y`. -/
def yOf (yoe : Nat) (era : Int) : Option Int := do
  let years ← i64 (era * 400)
  i64 (asI64 yoe + years)

/-- `doy`, the day of the year. -/
def doyOf (doe yoe : Nat) : Option Nat := do
  let a ← u64 (365 * yoe)
  let b ← u64 (a + yoe / 4)
  let c ← sub b (yoe / 100)
  sub doe c

/-- `mp`, the month from March on. -/
def mpOf (doy : Nat) : Option Nat := do
  let a ← u64 (5 * doy)
  let b ← u64 (a + 2)
  some (b / 153)

/-- `day`. -/
def dayOf (doy mp : Nat) : Option Nat := do
  let a ← u64 (153 * mp)
  let b ← u64 (a + 2)
  let c ← sub doy (b / 5)
  u64 (c + 1)

/-- `month`. -/
def monthOf (mp : Nat) : Option Nat := if mp < 10 then u64 (mp + 3) else sub mp 9

/-- `year`. -/
def yearOf (y : Int) (month : Nat) : Option Int := if month ≤ 2 then i64 (y + 1) else some y

/-- The numbers that are printed. -/
structure Civil where
  year : Int
  month : Nat
  day : Nat
  hour : Nat
  minute : Nat
  second : Nat
  deriving DecidableEq, Repr

/-- The computation of `format_unix_secs`. -/
def civilOf (secs : Nat) : Option Civil := do
  let sInDay := secs % 86400
  let z ← i64 (asI64 (secs / 86400) + 719468)
  let era ← eraOf z
  let doe ← doeOf z era
  let yoe ← yoeOf doe
  let y ← yOf yoe era
  let doy ← doyOf doe yoe
  let mp ← mpOf doy
  let day ← dayOf doy mp
  let month ← monthOf mp
  let year ← yearOf y month
  some ⟨year, month, day, sInDay / 3600, sInDay % 3600 / 60, sInDay % 60⟩

/-- A number with zeros before it, up to a width. -/
def pad (width n : Nat) : String :=
  String.ofList (List.replicate (width - (toString n).length) '0') ++ toString n

/-- `year:04`. The sign counts. -/
def padYear (year : Int) : String :=
  if year < 0 then "-" ++ pad 3 year.natAbs else pad 4 year.natAbs

/-- What `format!` prints. -/
def Civil.text (c : Civil) : String :=
  padYear c.year ++ "-" ++ pad 2 c.month ++ "-" ++ pad 2 c.day ++ "T" ++ pad 2 c.hour ++ ":" ++
    pad 2 c.minute ++ ":" ++ pad 2 c.second ++ "Z"

/-- `format_unix_secs`. -/
def formatUnixSecs (secs : UInt64) : Option String := (civilOf secs.toNat).map Civil.text

/-- `format_ns`. -/
def formatNs (ns : UInt64) : Option String :=
  if ns.toNat = 2 ^ 64 - 1 then some "never" else formatUnixSecs (ns / 1000000000)

end Civil

section Steps

variable {z n doe yoe era doy mp c q k : Nat}

private theorem u64_eq (h : n < 2 ^ 64) : u64 n = some n := if_pos h

private theorem sub_eq {a b : Nat} (h : b ≤ a) : sub a b = some (a - b) := if_pos h

private theorem i64_eq {x : Int} (h : 0 ≤ x) (hlt : x < 2 ^ 63) : i64 x = some x :=
  if_pos ⟨by omega, hlt⟩

private theorem asI64_eq (h : n < 2 ^ 63) : asI64 n = n := if_pos h

private theorem eraOf_eq (z : Nat) : eraOf z = some ((z / 146097 : Nat) : Int) := by
  rw [eraOf, if_pos (Int.natCast_nonneg z)]
  rfl

private theorem doeOf_eq (h : z < 2 ^ 63) :
    doeOf z ((z / 146097 : Nat) : Int) = some (z % 146097) := by
  have hstart : ((z / 146097 : Nat) : Int) * 146097 ≤ z := by omega
  simp only [doeOf, Option.bind_eq_bind]
  rw [i64_eq (by omega) (by omega), Option.bind_some, i64_eq (by omega) (by omega),
    Option.bind_some, asU64]
  refine congrArg some ?_
  omega

/-- The last day of an era counts for a century of its own, and is taken off again. -/
theorem century_eq {r : Nat} (hdoe : doe = 36524 * c + r)
    (hr : r < 36524 ∧ c ≤ 3 ∨ doe = 146096 ∧ c = 3) : doe / 36524 = c + doe / 146096 := by
  rcases hr with ⟨hr, hc⟩ | ⟨rfl, rfl⟩
  · have hsmall : doe / 146096 = 0 := Nat.div_eq_of_lt (by omega)
    rw [hsmall, hdoe]
    omega
  · rfl

/-- What is taken off too much leaves a day of the same year. -/
theorem exists_day_of_year (hc : c ≤ 3) (hq : q ≤ 24) (hk : k ≤ 3)
    (hdoy : doy < 365 ∨ doy = 365 ∧ k = 3 ∧ (q < 24 ∨ c = 3)) :
    ∃ w u, (24 * c + q + 365 * k + doy) / 1460 = w ∧ doy = u + w ∧ u ≤ 364 := by
  have hover : (24 * c + q + 365 * k + doy) / 1460 ≤ doy ∧
      doy ≤ 364 + (24 * c + q + 365 * k + doy) / 1460 := by omega
  obtain ⟨u, hu⟩ := Nat.exists_eq_add_of_le' hover.1
  refine ⟨_, u, rfl, hu, ?_⟩
  generalize (24 * c + q + 365 * k + doy) / 1460 = w at hover hu
  omega

/-- The formula takes off the leap days before, and one too many in a year that has come as far as
its leap day may be. -/
theorem yoeOf_eq (hdoe : doe = 36524 * c + 1461 * q + 365 * k + doy) (hc : c ≤ 3) (hq : q ≤ 24)
    (hk : k ≤ 3) (hdoy : doy < 365 ∨ doy = 365 ∧ k = 3 ∧ (q < 24 ∨ c = 3)) :
    yoeOf doe = some (100 * c + 4 * q + k) := by
  have hcentury : doe / 36524 = c + doe / 146096 :=
    century_eq (r := 1461 * q + 365 * k + doy) (by omega) (by omega)
  have hone : doe / 146096 ≤ 1 := Nat.div_le_of_le_mul (by omega)
  obtain ⟨w, u, hw, hu, hle⟩ := exists_day_of_year hc hq hk hdoy
  have hlong : doe / 1460 = 25 * c + q + w := by
    rw [← hw, ← Nat.mul_add_div (by decide : 0 < 1460), hdoe]
    congr 1
    omega
  have hfours : 25 * c + q + w ≤ doe := by omega
  have htake : doe - (25 * c + q + w) = 36499 * c + 1460 * q + 365 * k + u := by
    apply Nat.sub_eq_of_eq_add
    rw [hdoe, hu]
    ring
  simp only [yoeOf, Option.bind_eq_bind]
  rw [hlong, hcentury, sub_eq hfours, Option.bind_some, htake]
  generalize doe / 146096 = x at hone
  have hgive : 36499 * c + 1460 * q + 365 * k + u + (c + x) =
      365 * (100 * c + 4 * q + k) + u + x := by
    ring
  rw [hgive, u64_eq (by omega), Option.bind_some, sub_eq (Nat.le_add_left _ _), Option.bind_some,
    Nat.add_sub_cancel, Nat.mul_add_div (by decide), Nat.div_eq_of_lt (Nat.lt_succ_of_le hle),
    Nat.add_zero]

private theorem yOf_eq (h : yoe < 400) (hera : era < 2 ^ 50) :
    yOf yoe era = some ((yoe + 400 * era : Nat) : Int) := by
  simp only [yOf, Option.bind_eq_bind]
  rw [i64_eq (by omega) (by omega), Option.bind_some, asI64_eq (by omega),
    i64_eq (by omega) (by omega)]
  refine congrArg some ?_
  omega

private theorem doyOf_eq (h : yoe < 400) (hdoe : Calendar.marchStart yoe + doy = doe) :
    doyOf doe yoe = some doy := by
  unfold Calendar.marchStart at hdoe
  simp only [doyOf, Option.bind_eq_bind]
  rw [u64_eq (by omega), Option.bind_some, u64_eq (by omega), Option.bind_some,
    sub_eq (by omega), Option.bind_some, sub_eq (by omega)]
  refine congrArg some ?_
  omega

private theorem mpOf_eq (h : doy ≤ 365) : mpOf doy = some ((5 * doy + 2) / 153) := by
  simp only [mpOf, Option.bind_eq_bind]
  rw [u64_eq (by omega), Option.bind_some, u64_eq (by omega), Option.bind_some]

private theorem dayOf_eq (h : doy ≤ 365) (hmp : mp ≤ 11) (hstart : Calendar.monthStart mp ≤ doy) :
    dayOf doy mp = some (doy - Calendar.monthStart mp + 1) := by
  unfold Calendar.monthStart at *
  simp only [dayOf, Option.bind_eq_bind]
  rw [u64_eq (by omega), Option.bind_some, u64_eq (by omega), Option.bind_some,
    sub_eq hstart, Option.bind_some, u64_eq (by omega)]

private theorem monthOf_eq (h : mp ≤ 11) : monthOf mp = some (Calendar.monthOf mp) := by
  rw [monthOf, Calendar.monthOf]
  split_ifs
  · exact u64_eq (by omega)
  · exact sub_eq (by omega)

private theorem yearOf_eq {y m : Nat} (h : y < 2 ^ 62) :
    yearOf y m = some ((Calendar.yearOf y m : Nat) : Int) := by
  rw [yearOf, Calendar.yearOf]
  split_ifs
  · exact i64_eq (by omega) (by omega)
  · rfl

end Steps

/-- The date of a day that is counted from the first of March of the year 0. -/
theorem civilOf_eq {secs z era yoe doy mp : Nat} (h : secs < 2 ^ 64)
    (hz : z = secs / 86400 + 719468) (hera : era = z / 146097)
    (hyoe : yoeOf (z % 146097) = some yoe) (hlt : yoe < 400)
    (hdoy : Calendar.marchStart yoe + doy = z % 146097) (hle : doy ≤ 365)
    (hmp : mp = (5 * doy + 2) / 153) :
    civilOf secs = some ⟨(Calendar.yearOf (yoe + 400 * era) (Calendar.monthOf mp) : Nat),
      Calendar.monthOf mp, doy - Calendar.monthStart mp + 1, secs % 86400 / 3600,
      secs % 86400 % 3600 / 60, secs % 86400 % 60⟩ := by
  obtain ⟨hmonth, hstart, -⟩ := Calendar.month_of_day hle hmp
  have hsmall : secs / 86400 < 2 ^ 48 := by omega
  have hdays : asI64 (secs / 86400) + 719468 = (z : Int) := by
    rw [asI64_eq (by omega), hz]
    rfl
  simp only [civilOf, Option.bind_eq_bind]
  rw [hdays, i64_eq (by omega) (by omega), Option.bind_some, eraOf_eq, Option.bind_some,
    doeOf_eq (by omega), Option.bind_some, hyoe, Option.bind_some, ← hera,
    yOf_eq hlt (by omega), Option.bind_some, doyOf_eq hlt hdoy, Option.bind_some, mpOf_eq hle,
    ← hmp, Option.bind_some, dayOf_eq hle hmonth hstart, Option.bind_some, monthOf_eq hmonth,
    Option.bind_some, yearOf_eq (by omega), Option.bind_some]

/-- The numbers are those of a date and a time of day, and count the seconds. -/
theorem civilOf_spec {secs : Nat} (h : secs < 2 ^ 64) :
    ∃ y m d hour minute second : Nat, civilOf secs = some ⟨y, m, d, hour, minute, second⟩ ∧
      Calendar.IsDate y m d ∧ hour < 24 ∧ minute < 60 ∧ second < 60 ∧
        Calendar.dayNumber y m d * 86400 + hour * 3600 + minute * 60 + second = secs := by
  obtain ⟨z, hz⟩ : ∃ z, z = secs / 86400 + 719468 := ⟨_, rfl⟩
  obtain ⟨c, q, k, doy, hdoe, hc, hq, hk, hdoy⟩ :=
    Calendar.exists_year_of_era (Nat.mod_lt z (by decide : 0 < 146097))
  have hyoe := yoeOf_eq hdoe hc hq hk hdoy
  have hstart := Calendar.marchStart_of_era hc hq hk
  have hleap := Calendar.lt_of_era (c := c) hq hdoy
  obtain ⟨yoe, hsum⟩ : ∃ yoe, yoe = 100 * c + 4 * q + k := ⟨_, rfl⟩
  rw [← hsum] at hyoe hstart hleap
  have hlt : yoe < 400 := by omega
  have hle : doy ≤ 365 := by omega
  clear hsum hc hq hk hdoy
  have hday : Calendar.marchStart yoe + doy = z % 146097 := by rw [hstart, hdoe]
  have hmarch : Calendar.marchStart (yoe + 400 * (z / 146097)) + doy = z := by
    rw [Calendar.marchStart_era, Nat.add_right_comm, hday, Nat.mod_add_div]
  rw [← Calendar.leapDay_era _ (z / 146097), Nat.add_right_comm] at hleap
  obtain ⟨hdate, hnumber⟩ := Calendar.date_of_march hleap rfl
    (by rw [hmarch, hz]; exact Nat.le_add_left _ _)
  rw [hmarch, hz] at hnumber
  have hdays := Nat.add_right_cancel hnumber
  refine ⟨_, _, _, _, _, _, civilOf_eq h hz rfl hyoe hlt hday hle rfl, hdate, ?_, ?_, ?_, ?_⟩
  · omega
  · omega
  · omega
  · rw [← hz] at hdays
    rw [hdays]
    omega

section Text

variable {ds es cs rs : List Char} {c : Char} {width n k : Nat}

/-- The digits of a number, with zeros before them only up to a width. -/
structure Numeral (width : Nat) (ds : List Char) (n : Nat) : Prop where
  isDigit : ∀ c ∈ ds, c.isDigit = true
  value : Nat.ofDigitChars 10 ds 0 = n
  width_le : width ≤ ds.length
  tight : width < ds.length → 10 ^ (ds.length - 1) ≤ n

/-- A text shows a date and a time of day: it has the numerals of their six numbers, and the
separators between them. -/
def Shows (text : String) (y m d hour minute second : Nat) : Prop :=
  ∃ ys ms ds hs mins ss : List Char,
    text.toList = ys ++ '-' :: (ms ++ '-' :: (ds ++ 'T' :: (hs ++ ':' :: (mins ++ ':' ::
      (ss ++ ['Z']))))) ∧
    Numeral 4 ys y ∧ Numeral 2 ms m ∧ Numeral 2 ds d ∧ Numeral 2 hs hour ∧
    Numeral 2 mins minute ∧ Numeral 2 ss second

/-- Padding adds zeros only where the number is too short. -/
theorem numeral_pad (hwidth : 0 < width) (n : Nat) : Numeral width (pad width n).toList n := by
  have hlen : (toString n).length = (Nat.toDigits 10 n).length := by
    rw [Nat.toString_eq_ofList_toDigits, String.length_ofList]
  have hlist : (pad width n).toList =
      List.replicate (width - (Nat.toDigits 10 n).length) '0' ++ Nat.toDigits 10 n := by
    rw [pad, hlen, String.toList_append, String.toList_ofList, Nat.toString_eq_ofList_toDigits,
      String.toList_ofList]
  have hall : (pad width n).toList.length = max width (Nat.toDigits 10 n).length := by
    rw [hlist, List.length_append, List.length_replicate]
    omega
  refine ⟨fun c hc => ?_, ?_, ?_, fun hlt => ?_⟩
  · rw [hlist, List.mem_append] at hc
    rcases hc with hc | hc
    · rw [List.eq_of_mem_replicate hc]
      rfl
    · exact Nat.isDigit_of_mem_toDigits (by decide) (by decide) hc
  · rw [hlist, Nat.ofDigitChars_append, Nat.ofDigitChars_replicate_zero, Nat.mul_zero,
      Nat.ofDigitChars_ten_toDigits]
  · rw [hall]
    exact Nat.le_max_left _ _
  · -- without padding, the leading digit is not zero
    rw [hall] at hlt ⊢
    have hmax : max width (Nat.toDigits 10 n).length = (Nat.toDigits 10 n).length := by omega
    rw [hmax]
    by_contra hsmall
    have hle := (Nat.length_toDigits_le_iff (by decide) (by omega)).mpr (Nat.lt_of_not_le hsmall)
    omega

/-- What is printed shows the numbers. -/
theorem shows_text (y m d hour minute second : Nat) :
    Shows (Civil.text ⟨y, m, d, hour, minute, second⟩) y m d hour minute second := by
  have hyear : padYear y = pad 4 y := if_neg (Int.not_lt.mpr (Int.natCast_nonneg y))
  refine ⟨_, _, _, _, _, _, ?_, numeral_pad (by decide) y, numeral_pad (by decide) m,
    numeral_pad (by decide) d, numeral_pad (by decide) hour, numeral_pad (by decide) minute,
    numeral_pad (by decide) second⟩
  rw [Civil.text, hyear]
  simp

private theorem span_digits (hds : ∀ x ∈ ds, x.isDigit = true) (hes : ∀ x ∈ es, x.isDigit = true)
    (hc : c.isDigit = false) (h : ds ++ c :: cs = es ++ c :: rs) : ds = es ∧ cs = rs := by
  induction ds generalizing es with
  | nil =>
    cases es with
    | nil => exact ⟨rfl, (List.cons.inj h).2⟩
    | cons e es =>
      have he := hes e (List.mem_cons_self ..)
      rw [← (List.cons.inj h).1, hc] at he
      cases he
  | cons d ds ih =>
    cases es with
    | nil =>
      have hd := hds d (List.mem_cons_self ..)
      rw [(List.cons.inj h).1, hc] at hd
      cases hd
    | cons e es =>
      obtain ⟨rfl, hrest⟩ := List.cons.inj h
      obtain ⟨rfl, hcs⟩ := ih (List.forall_mem_cons.mp hds).2 (List.forall_mem_cons.mp hes).2 hrest
      exact ⟨rfl, hcs⟩

/-- A numeral followed by a separator has one value. -/
theorem Numeral.unique (h : Numeral width ds n) (h' : Numeral width es k) (hc : c.isDigit = false)
    (he : ds ++ c :: cs = es ++ c :: rs) : n = k ∧ cs = rs := by
  obtain ⟨rfl, hcs⟩ := span_digits h.isDigit h'.isDigit hc he
  exact ⟨h.value.symm.trans h'.value, hcs⟩

/-- A text shows one date and one time of day at most. -/
theorem Shows.unique {text : String} {y m d hour minute second y' m' d' hour' minute' second' : Nat}
    (h : Shows text y m d hour minute second) (h' : Shows text y' m' d' hour' minute' second') :
    y = y' ∧ m = m' ∧ d = d' ∧ hour = hour' ∧ minute = minute' ∧ second = second' := by
  obtain ⟨ys, ms, ds, hs, mins, ss, htext, hy, hm, hd, hh, hmin, hsec⟩ := h
  obtain ⟨ys', ms', ds', hs', mins', ss', htext', hy', hm', hd', hh', hmin', hsec'⟩ := h'
  rw [htext] at htext'
  obtain ⟨rfl, hrest⟩ := hy.unique hy' (by decide) htext'
  obtain ⟨rfl, hrest⟩ := hm.unique hm' (by decide) hrest
  obtain ⟨rfl, hrest⟩ := hd.unique hd' (by decide) hrest
  obtain ⟨rfl, hrest⟩ := hh.unique hh' (by decide) hrest
  obtain ⟨rfl, hrest⟩ := hmin.unique hmin' (by decide) hrest
  obtain ⟨rfl, -⟩ := hsec.unique hsec' (by decide) hrest
  exact ⟨rfl, rfl, rfl, rfl, rfl, rfl⟩

end Text

-- The leap day of a year divisible by four hundred.
example : formatUnixSecs 951782400 = some "2000-02-29T00:00:00Z" := by decide +kernel

/-- No time stamp makes `format_ns` panic. -/
theorem formatNs_isSome (ns : UInt64) : (formatNs ns).isSome = true := by
  rw [formatNs]
  split_ifs
  · rfl
  · obtain ⟨y, m, d, hour, minute, second, hcivil, -⟩ := civilOf_spec (ns / 1000000000).toNat_lt
    rw [formatUnixSecs, hcivil]
    rfl

/-- For every number of seconds, nothing overflows, and the text that is printed shows the date and
the time of day that many seconds after the beginning of 1970. -/
theorem formatUnixSecs_correct (secs : UInt64) : ∃ (text : String)
    (y m d hour minute second : Nat), formatUnixSecs secs = some text ∧
      Shows text y m d hour minute second ∧
      Calendar.IsDate y m d ∧ hour < 24 ∧ minute < 60 ∧ second < 60 ∧
        Calendar.dayNumber y m d * 86400 + hour * 3600 + minute * 60 + second = secs.toNat := by
  obtain ⟨y, m, d, hour, minute, second, hcivil, hspec⟩ := civilOf_spec secs.toNat_lt
  have htext : formatUnixSecs secs = some (Civil.text ⟨y, m, d, hour, minute, second⟩) := by
    rw [formatUnixSecs, hcivil]
    rfl
  exact ⟨_, y, m, d, hour, minute, second, htext, shows_text .., hspec⟩

end NdnFwd.UnixTime

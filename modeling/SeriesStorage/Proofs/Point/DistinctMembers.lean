import Mathlib.Algebra.Ring.Nat
import Mathlib.Data.Nat.Log
import SeriesStorage.Proofs.Point.Buckets
import SeriesStorage.Proofs.Point.StoredPoints
import SeriesStorage.Proofs.Point.WholeTimes

/-!
# Different points have different members

A member leaves out what the text of its key shares with the text of the bucket.  In a bucket it
still tells the timestamp as a double (`member_inj`): texts of one length leave out equally much, and
of two lengths, which a bucket has only if it reaches over a power of ten, the longer one shares
nothing with the bucket.

So points that differ never take each other's place, if their timestamps differ as doubles.
-/

namespace SeriesStorage

open Binary64 (unitsOfCode unitsPerOne fixedSteps)

/-! ## Texts of numbers -/

/-- The first digit of a number. -/
theorem head?_toDigits {n e : Nat} (low : 10 ^ e ≤ n) (high : n < 10 ^ (e + 1)) :
    (Nat.toDigits 10 n).head? = some (n / 10 ^ e).digitChar := by
  induction e generalizing n with
  | zero =>
    have digit : n < 10 := high
    rw [Nat.toDigits_of_lt_base digit, Nat.pow_zero, Nat.div_one]
    rfl
  | succ e ih =>
    rw [Nat.pow_succ] at low high
    have one : 0 < 10 ^ e := Nat.pow_pos (by decide)
    rw [Nat.toDigits_of_base_le (by decide) (by omega),
      List.head?_append_of_ne_nil _ Nat.toDigits_ne_nil, ih, Nat.div_div_eq_div_mul, Nat.pow_succ,
      Nat.mul_comm]
    · rwa [Nat.le_div_iff_mul_le (by decide)]
    · rwa [Nat.div_lt_iff_lt_mul (by decide)]

theorem digitChar_inj : ∀ a < 10, ∀ b < 10, a.digitChar = b.digitChar → a = b := by decide

/-- A number of more digits than a power of ten has is at least that power. -/
theorem length_toDigits_lt_iff {m n : Nat} :
    (Nat.toDigits 10 m).length < (Nat.toDigits 10 n).length ↔
      ∃ e, 0 < e ∧ m < 10 ^ e ∧ 10 ^ e ≤ n := by
  constructor
  · intro less
    have some : 0 < (Nat.toDigits 10 m).length := Nat.length_toDigits_pos
    refine ⟨_, some, (Nat.length_toDigits_le_iff (by decide) some).mp (Nat.le_refl _), ?_⟩
    exact Nat.le_of_not_lt fun small =>
      absurd ((Nat.length_toDigits_le_iff (by decide) some).mpr small) (Nat.not_le.mpr less)
  · rintro ⟨e, some, small, large⟩
    refine Nat.lt_of_le_of_lt ((Nat.length_toDigits_le_iff (by decide) some).mpr small) ?_
    exact Nat.lt_of_not_le fun short =>
      absurd ((Nat.length_toDigits_le_iff (by decide) some).mp short) (Nat.not_lt.mpr large)

theorem take_sharedLength (text other : List Char) :
    text.take (sharedLength text other) = other.take (sharedLength text other) := by
  induction text generalizing other with
  | nil => cases other <;> rfl
  | cons a rest ih =>
    cases other with
    | nil => rfl
    | cons b others =>
      unfold sharedLength
      split
      · next same => rw [List.take_succ_cons, List.take_succ_cons, ih, same]
      · rfl

theorem sharedLength_le (text other : List Char) : sharedLength text other ≤ text.length := by
  induction text generalizing other with
  | nil => cases other <;> exact Nat.le_refl 0
  | cons a rest ih =>
    cases other with
    | nil => exact Nat.zero_le _
    | cons b others =>
      unfold sharedLength
      split
      · exact Nat.succ_le_succ (ih others)
      · exact Nat.zero_le _

/-- Texts that begin differently share nothing. -/
theorem sharedLength_eq_zero {text other : List Char} (h : text.head? ≠ other.head?) :
    sharedLength text other = 0 := by
  cases text with
  | nil => cases other <;> rfl
  | cons a rest =>
    cases other with
    | nil => rfl
    | cons b others =>
      unfold sharedLength
      rw [if_neg fun same => h (congrArg some same)]

/-- Texts of one length that leave the same behind what they share with another text are equal. -/
theorem eq_of_drop_sharedLength {text text' other : List Char} (size : text.length = text'.length)
    (h : text.drop (sharedLength text other) = text'.drop (sharedLength text' other)) :
    text = text' := by
  have shared := sharedLength_le text other
  have shared' := sharedLength_le text' other
  have lengths := congrArg List.length h
  rw [List.length_drop, List.length_drop] at lengths
  have same : sharedLength text other = sharedLength text' other := by omega
  rw [← List.take_append_drop (sharedLength text other) text, h, take_sharedLength, same,
    ← take_sharedLength, List.take_append_drop]

/-! ## Texts of keys -/

theorem maxPadding_lt_quarter : 4 * unitsOfCode maxPadding.code < unitsPerOne := by decide +kernel

/-- With six decimals a key still has the whole part of its timestamp. -/
theorem IsKeyOf.fixedSteps_div {time : UInt64} {key : Binary64} (h : IsKeyOf time key) {k : Nat}
    (whole : unitsOfCode (Binary64.ofUInt64 time).code = k * unitsPerOne) :
    fixedSteps 6 key.code / 1000000 = k := by
  have low := Binary64.unitsOfCode_mono h.lower
  have high := Nat.le_trans (Binary64.unitsOfCode_mono h.upper)
    (unitsOfCode_paddedKey_max_le time whole)
  have quarter := maxPadding_lt_quarter
  have one := Binary64.unitsPerOne_pos
  rw [whole] at low
  have scale : Nat.pow 10 6 = 1000000 := rfl
  unfold fixedSteps
  rw [scale]
  refine Nat.div_eq_of_lt_le (Nat.le_of_not_lt fun under => ?_) (Nat.lt_of_not_le fun beyond => ?_)
  · have below := (roundHalfEven_le_iff _ _ one).mp (Nat.le_sub_one_of_lt under)
    have middle : (2 * (k * 1000000 - 1) + 1) * unitsPerOne + unitsPerOne =
        2000000 * (k * unitsPerOne) := by
      rw [← Nat.succ_mul, ← Nat.mul_assoc]
      congr 1
      omega
    split at below <;> omega
  · have above := mt (roundHalfEven_le_iff _ ((k + 1) * 1000000 - 1) one).mpr
      (Nat.not_le.mpr (Nat.lt_of_lt_of_le (by omega) beyond))
    have middle : (2 * ((k + 1) * 1000000 - 1) + 1) * unitsPerOne =
        2000000 * (k * unitsPerOne) + 1999999 * unitsPerOne := by
      rw [← Nat.mul_assoc, ← Nat.add_mul]
      congr 1
      omega
    split at above <;> omega

theorem length_padded {width n : Nat} (pos : 0 < width) (fits : n < 10 ^ width) :
    (Binary64.padded width n).length = width := by
  have short := (Nat.length_toDigits_le_iff (b := 10) (by decide) pos).mpr fits
  unfold Binary64.padded
  rw [List.length_append, List.length_replicate]
  omega

/-- The text of a key of a timestamp: the timestamp as a double, and six decimals. -/
theorem IsKeyOf.toFixedChars {time : UInt64} {key : Binary64} (h : IsKeyOf time key) :
    key.toFixedChars 6 = Nat.toDigits 10 (wholeOf time) ++
      '.' :: Binary64.padded 6 (fixedSteps 6 key.code % 1000000) := by
  have whole := h.fixedSteps_div (unitsOfCode_eq_whole time)
  have finite := h.finite
  have number := h.isNaN_eq_false
  have bounded : key.isInfinite = false := decide_eq_false (Nat.ne_of_lt finite)
  simp only [Binary64.toFixedChars, number, bounded, h.notNegative, Bool.false_eq_true, if_false]
  show Nat.toDigits 10 (fixedSteps 6 key.code / 1000000) ++ _ = _
  rw [whole]

/-- No number but 0 begins with the digit 0. -/
theorem head?_toDigits_ne_zero {n : Nat} (pos : 0 < n) :
    (Nat.toDigits 10 n).head? ≠ some '0' := by
  have low := Nat.pow_log_le_self 10 (Nat.ne_of_gt pos)
  have high := Nat.lt_pow_succ_log_self (b := 10) (by decide) n
  rw [head?_toDigits low high]
  intro same
  have first : 1 ≤ n / 10 ^ Nat.log 10 n := (Nat.one_le_div_iff (Nat.pow_pos (by decide))).mpr low
  have digit : n / 10 ^ Nat.log 10 n < 10 :=
    Nat.div_lt_of_lt_mul (by rwa [Nat.pow_succ] at high)
  have none := digitChar_inj _ digit 0 (by decide) (Option.some.inj same)
  omega

/-- A number from a power of ten on begins with another digit than a smaller one that is 0 or at
least half of the power, if it is below twice the power: it begins with 1, the other with a digit
from 5 on. -/
theorem head?_toDigits_ne {m b e : Nat} (large : 10 ^ (e + 1) ≤ m) (below : b < 10 ^ (e + 1))
    (near : b = 0 ∨ 5 * 10 ^ e ≤ b ∧ m < 2 * 10 ^ (e + 1)) :
    (Nat.toDigits 10 m).head? ≠ (Nat.toDigits 10 b).head? := by
  have one : 0 < 10 ^ e := Nat.pow_pos (by decide)
  have power : 10 ^ (e + 1) = 10 * 10 ^ e := by rw [Nat.pow_succ, Nat.mul_comm]
  have power' : 10 ^ (e + 1 + 1) = 100 * 10 ^ e := by rw [Nat.pow_succ, power]; omega
  rcases near with rfl | ⟨half, small⟩
  · exact head?_toDigits_ne_zero (by omega)
  · rw [head?_toDigits large (by omega), head?_toDigits (n := b) (e := e) (by omega) below]
    intro same
    have leading : m / 10 ^ (e + 1) = 1 := by
      rw [Nat.div_eq_iff (Nat.pow_pos (by decide))]
      omega
    have five : 5 ≤ b / 10 ^ e := (Nat.le_div_iff_mul_le one).mpr (by omega)
    have digit : b / 10 ^ e < 10 := Nat.div_lt_of_lt_mul (by omega)
    rw [leading] at same
    have := digitChar_inj 1 (by decide) _ digit (Option.some.inj same)
    omega

/-- Where timestamps of a bucket as doubles reach over a power of ten, so does the bucket. -/
theorem power_in_bucket {time later : UInt64} (bucket : bucketOf time = bucketOf later) {e : Nat}
    (small : wholeOf time < 10 ^ (e + 1)) (large : 10 ^ (e + 1) ≤ wholeOf later) :
    (bucketOf later).toNat < 10 ^ (e + 1) ∧ ((bucketOf later).toNat = 0 ∨
      5 * 10 ^ e ≤ (bucketOf later).toNat ∧ wholeOf later < 2 * 10 ^ (e + 1)) := by
  have first := bucketOf_eq time
  have second := bucketOf_eq later
  rw [bucket] at first
  have one : 0 < 10 ^ e := Nat.pow_pos (by decide)
  have power : 10 ^ (e + 1) = 10 * 10 ^ e := by rw [Nat.pow_succ, Nat.mul_comm]
  by_cases exact : time.toNat ≤ 0x20000000000000 ∧ later.toNat ≤ 0x20000000000000
  · rw [wholeOf_of_le exact.1] at small
    rw [wholeOf_of_le exact.2] at large ⊢
    omega
  · -- the bucket lies so high that only few powers of ten are left, none of which ends a bucket
    have near := wholeOf_near time
    have near' := wholeOf_near later
    have word := later.toNat_lt
    have least : 15 < e + 1 := (Nat.pow_lt_pow_iff_right (by decide : 1 < 10)).mp (by omega)
    have most : e + 1 < 20 := (Nat.pow_lt_pow_iff_right (by decide : 1 < 10)).mp (by omega)
    obtain rfl | rfl | rfl | rfl : e = 15 ∨ e = 16 ∨ e = 17 ∨ e = 18 := by omega
    all_goals omega

/-- Within a bucket a timestamp that as a double has more digits than another begins with another
digit than the bucket. -/
theorem head?_ne_bucket {time later : UInt64} (bucket : bucketOf time = bucketOf later)
    (longer : (Nat.toDigits 10 (wholeOf time)).length <
      (Nat.toDigits 10 (wholeOf later)).length) :
    (Nat.toDigits 10 (wholeOf later)).head? ≠
      (Nat.toDigits 10 (bucketOf later).toNat).head? := by
  obtain ⟨_ | e, positive, small, large⟩ := length_toDigits_lt_iff.mp longer
  · exact absurd positive (Nat.lt_irrefl 0)
  obtain ⟨below, near⟩ := power_in_bucket bucket small large
  exact head?_toDigits_ne large below near

/-- Within a bucket a text that is kept up to what it shares with the bucket does not come from a
timestamp with more digits: a text of more digits would be kept as a whole. -/
theorem not_longer_of_drop_eq {time time' : UInt64} {decimals decimals' : List Char}
    (bucket : bucketOf time = bucketOf time') (size : decimals.length = decimals'.length)
    (same : (Nat.toDigits 10 (wholeOf time) ++ '.' :: decimals).drop (sharedLength
          (Nat.toDigits 10 (wholeOf time) ++ '.' :: decimals)
          (Nat.toDigits 10 (bucketOf time').toNat)) =
        (Nat.toDigits 10 (wholeOf time') ++ '.' :: decimals').drop (sharedLength
          (Nat.toDigits 10 (wholeOf time') ++ '.' :: decimals')
          (Nat.toDigits 10 (bucketOf time').toNat))) :
    ¬ (Nat.toDigits 10 (wholeOf time)).length < (Nat.toDigits 10 (wholeOf time')).length := by
  intro longer
  have apart := head?_ne_bucket bucket longer
  have begins : (Nat.toDigits 10 (wholeOf time') ++ '.' :: decimals').head? =
      (Nat.toDigits 10 (wholeOf time')).head? :=
    List.head?_append_of_ne_nil _ Nat.toDigits_ne_nil
  rw [← begins] at apart
  rw [sharedLength_eq_zero apart, List.drop_zero] at same
  have sizes := congrArg List.length same
  simp only [List.length_drop, List.length_append, List.length_cons, size] at sizes
  omega

/-- Within a bucket the text that a member keeps tells the whole text of the key. -/
theorem toFixedChars_of_scoreSuffix {time time' : UInt64} {score score' : Binary64}
    (key : IsKeyOf time score) (key' : IsKeyOf time' score')
    (bucket : bucketOf time = bucketOf time')
    (same : scoreSuffix (bucketOf time) score = scoreSuffix (bucketOf time') score') :
    score.toFixedChars 6 = score'.toFixedChars 6 := by
  have six : ∀ n, (Binary64.padded 6 (n % 1000000)).length = 6 := fun _ =>
    length_padded (by decide) (by omega)
  have short := (six (fixedSteps 6 score.code)).trans (six (fixedSteps 6 score'.code)).symm
  unfold scoreSuffix at same
  dsimp only at same
  rw [key.toFixedChars, key'.toFixedChars, bucket] at same
  rw [key.toFixedChars, key'.toFixedChars]
  have notMore := not_longer_of_drop_eq bucket short same
  have notLess := not_longer_of_drop_eq bucket.symm short.symm (by rw [bucket]; exact same.symm)
  refine eq_of_drop_sharedLength ?_ same
  rw [List.length_append, List.length_append, List.length_cons, List.length_cons, short]
  omega

/-- The text of a key tells the timestamp as a double. -/
theorem wholeOf_eq_of_toFixedChars {time time' : UInt64} {score score' : Binary64}
    (key : IsKeyOf time score) (key' : IsKeyOf time' score')
    (same : score.toFixedChars 6 = score'.toFixedChars 6) : wholeOf time = wholeOf time' := by
  have point : ∀ rest : List Char, ∀ c ∈ ('.' :: rest).head?, c.isDigit = false := by
    rintro rest c first
    rw [← Option.some.inj first]
    decide
  have digits := congrArg (List.takeWhile Char.isDigit) same
  rw [key.toFixedChars, key'.toFixedChars, takeWhile_toDigits _ (point _),
    takeWhile_toDigits _ (point _)] at digits
  have numbers := congrArg (digits? 10) digits
  rw [digits?_toDigits, digits?_toDigits] at numbers
  exact Option.some.inj numbers

/-! ## Members -/

/-- A member tells the value, but for the payload of a NaN, and what it keeps of the score. -/
theorem member_parts {time time' : UInt64} {score score' value value' : Binary64}
    (same : (encodeScored time score value).member = (encodeScored time' score' value').member) :
    value.canonical = value'.canonical ∧
      scoreSuffix (bucketOf time) score = scoreSuffix (bucketOf time') score' := by
  have values : value.toChars = value'.toChars := by
    rw [← memberValue_encodeScored time score value, same, memberValue_encodeScored]
  have suffixes := String.ofList_inj.mp same
  rw [values] at suffixes
  have parsed := congrArg Binary64.parse values
  rw [Binary64.parse_toChars, Binary64.parse_toChars] at parsed
  exact ⟨Except.ok.inj parsed, (List.cons.inj (List.append_cancel_left suffixes)).2⟩

/-- **Members of a bucket tell points apart**, but for what their timestamps lose as doubles and for
the payloads of NaNs. -/
theorem member_inj {time time' : UInt64} {score score' value value' : Binary64}
    (key : IsKeyOf time score) (key' : IsKeyOf time' score')
    (bucket : bucketOf time = bucketOf time')
    (same : (encodeScored time score value).member = (encodeScored time' score' value').member) :
    Binary64.ofUInt64 time = .ofUInt64 time' ∧ value.canonical = value'.canonical := by
  obtain ⟨values, suffixes⟩ := member_parts same
  have texts := toFixedChars_of_scoreSuffix key key' bucket suffixes
  exact ⟨ofUInt64_eq_of_whole (wholeOf_eq_of_toFixedChars key key' texts), values⟩

end SeriesStorage

import SeriesStorage.Proofs.Point.PaddedKey

/-!
# Timestamps as doubles

As a double a timestamp is a whole number (`wholeOf`): itself up to 2⁵³, and beyond that a number
between the multiples of 2048 around it (`wholeOf_near`), for these have doubles of their own.
-/

namespace SeriesStorage

open Binary64 (unitsOfCode unitsPerOne nearestCode infinityCode binade)

/-- The whole number that a timestamp is as a double. -/
def wholeOf (time : UInt64) : Nat := unitsOfCode (Binary64.ofUInt64 time).code / unitsPerOne

theorem unitsOfCode_eq_whole (time : UInt64) :
    unitsOfCode (Binary64.ofUInt64 time).code = wholeOf time * unitsPerOne :=
  (Nat.div_mul_cancel (Binary64.unitsPerOne_dvd_ofUInt64 time)).symm

theorem wholeOf_of_le {time : UInt64} (exact : time.toNat ≤ 0x20000000000000) :
    wholeOf time = time.toNat := by
  unfold wholeOf
  rw [Binary64.unitsOfCode_ofUInt64 exact, Nat.mul_div_cancel _ Binary64.unitsPerOne_pos]

namespace Binary64

theorem le_of_unitsOfCode_le {c c' : Nat} (h : unitsOfCode c ≤ unitsOfCode c') : c ≤ c' := by
  refine Nat.le_of_not_lt fun more => ?_
  have := Nat.lt_of_lt_of_le (unitsOfCode_lt_succ c') (unitsOfCode_mono more)
  omega

theorem unitsOfCode_inj {c c' : Nat} (h : unitsOfCode c = unitsOfCode c') : c = c' :=
  Nat.le_antisymm (le_of_unitsOfCode_le (Nat.le_of_eq h)) (le_of_unitsOfCode_le (Nat.le_of_eq h.symm))

/-- Codes that are some binades apart stand for values that are as many powers of two apart. -/
theorem unitsOfCode_add_binades {c : Nat} (normal : binade ≤ c) (n : Nat) :
    unitsOfCode (c + n * binade) = unitsOfCode c * Nat.pow 2 n := by
  obtain ⟨m, s, rfl, small, step⟩ := exists_significand c
  have large : binade ≤ m := by
    rcases step with rfl | large
    · omega
    · exact large
  rw [Nat.add_assoc, ← Nat.add_mul, unitsOfCode_add m s (by omega) (Or.inr large),
    unitsOfCode_add m (s + n) (by omega) (Or.inr large), Nat.mul_assoc]
  exact congrArg (m * ·) (Nat.pow_add 2 s n)

/-- Multiples of 2048 have codes up to 2⁶⁴. -/
theorem exists_code_of_multiple (n : Nat) (h : n ≤ 0x20000000000000) :
    ∃ c, c < infinityCode ∧ unitsOfCode c = n * 2048 * unitsPerOne := by
  rcases Nat.eq_zero_or_pos n with rfl | some
  · exact ⟨0, by decide, by rw [Nat.zero_mul]; rfl⟩
  obtain ⟨c, _, units⟩ := exists_code_of_le n h
  have one : binade < unitsPerOne := by decide +kernel
  have low : unitsPerOne ≤ unitsOfCode c := by
    rw [units]
    exact Nat.le_mul_of_pos_left _ some
  have normal : binade ≤ c := by
    refine Nat.le_of_not_lt fun small => ?_
    have least : unitsOfCode c = c := if_pos small
    omega
  have top : c ≤ codeBeyondWords := by
    refine le_of_unitsOfCode_le ?_
    rw [units, unitsOfCode_codeBeyondWords]
    exact Nat.mul_le_mul_right _ (Nat.le_trans h (by decide))
  refine ⟨c + 11 * binade, ?_, ?_⟩
  · have : codeBeyondWords + 11 * binade < infinityCode := by decide
    omega
  · have scaled := unitsOfCode_add_binades normal 11
    rw [units, show Nat.pow 2 11 = 2048 from rfl] at scaled
    exact scaled.trans (Nat.mul_right_comm n unitsPerOne 2048)

end Binary64

/-- A whole number that has a code is on one side of the timestamp and of its double. -/
theorem le_wholeOf {n : Nat} {time : UInt64} {c : Nat} (finite : c < infinityCode)
    (code : unitsOfCode c = n * unitsPerOne) (below : n ≤ time.toNat) : n ≤ wholeOf time := by
  have low : c ≤ (Binary64.ofUInt64 time).code := by
    rw [Binary64.code_ofUInt64]
    refine Binary64.le_nearestCode finite ?_
    rw [code]
    exact Nat.mul_le_mul_right _ below
  have units := Binary64.unitsOfCode_mono low
  rw [code, unitsOfCode_eq_whole] at units
  exact Nat.le_of_mul_le_mul_right units Binary64.unitsPerOne_pos

theorem wholeOf_le {n : Nat} {time : UInt64} {c : Nat} (finite : c < infinityCode)
    (code : unitsOfCode c = n * unitsPerOne) (above : time.toNat ≤ n) : wholeOf time ≤ n := by
  have high : (Binary64.ofUInt64 time).code ≤ c := by
    rw [Binary64.code_ofUInt64, ← Binary64.nearestCode_unitsOfCode finite, code]
    exact Binary64.nearestCode_mono 1 (by decide) (Nat.mul_le_mul_right _ above)
  have units := Binary64.unitsOfCode_mono high
  rw [code, unitsOfCode_eq_whole] at units
  exact Nat.le_of_mul_le_mul_right units Binary64.unitsPerOne_pos

/-- The double of a timestamp lies between the multiples of 2048 around it. -/
theorem wholeOf_near (time : UInt64) :
    time.toNat / 2048 * 2048 ≤ wholeOf time ∧
      wholeOf time ≤ time.toNat / 2048 * 2048 + 2048 := by
  have word := time.toNat_lt
  obtain ⟨c, finite, units⟩ := Binary64.exists_code_of_multiple (time.toNat / 2048) (by omega)
  obtain ⟨c', finite', units'⟩ :=
    Binary64.exists_code_of_multiple (time.toNat / 2048 + 1) (by omega)
  have above : wholeOf time ≤ time.toNat / 2048 * 2048 + 2048 := by
    rw [← Nat.succ_mul]
    exact wholeOf_le finite' units' (by omega)
  exact ⟨le_wholeOf finite units (Nat.div_mul_le_self _ _), above⟩

/-- The whole number tells the double. -/
theorem ofUInt64_eq_of_whole {time time' : UInt64} (h : wholeOf time = wholeOf time') :
    Binary64.ofUInt64 time = .ofUInt64 time' := by
  have units : unitsOfCode (Binary64.ofUInt64 time).code =
      unitsOfCode (Binary64.ofUInt64 time').code := by
    rw [unitsOfCode_eq_whole, unitsOfCode_eq_whole, h]
  rw [← Binary64.ofCode_negative_code (.ofUInt64 time), Binary64.unitsOfCode_inj units,
    Binary64.negative_ofUInt64, ← Binary64.negative_ofUInt64 time',
    Binary64.ofCode_negative_code]

end SeriesStorage

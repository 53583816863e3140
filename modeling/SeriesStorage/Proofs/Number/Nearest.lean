import SeriesStorage.Number.Binary64

/-!
# The code nearest to a quotient

One equivalence says all about `nearestCode`: it stays at or below a finite code exactly if the
quotient stays below the midpoint to the next code, or on it where the code is even.

    nearestCode num den ≤ c ↔ BelowMidpoint c num den           (nearestCode_le_iff)

So rounding is monotone (`nearestCode_mono`), keeps every value that has a code
(`nearestCode_unitsOfCode`), and finds the code of every quotient between two midpoints
(`nearestCode_eq`).
-/

namespace SeriesStorage

/-! ## Rounding a quotient -/

theorem roundHalfEven_le_iff (num m : Nat) {den : Nat} (hden : 0 < den) :
    roundHalfEven num den ≤ m ↔
      if m % 2 = 0 then 2 * num ≤ (2 * m + 1) * den else 2 * num < (2 * m + 1) * den := by
  have split := Nat.div_add_mod num den
  have small := Nat.mod_lt num hden
  have wide : (2 * m + 1) * den = 2 * (den * m) + den := by
    rw [Nat.add_mul, Nat.one_mul, Nat.mul_assoc, Nat.mul_comm m den]
  rw [wide]
  unfold roundHalfEven
  dsimp only
  rcases Nat.lt_trichotomy (num / den) m with low | rfl | high
  · have room : den * (num / den) + den ≤ den * m := by
      rw [← Nat.mul_succ]
      exact Nat.mul_le_mul_left den low
    split <;> split <;> (try split) <;> omega
  · split <;> split <;> (try split) <;> omega
  · have room : den * m + den ≤ den * (num / den) := by
      rw [← Nat.mul_succ]
      exact Nat.mul_le_mul_left den high
    split <;> split <;> (try split) <;> omega

namespace Binary64

/-! ## Values of codes -/

/-- A significand of at most 54 bits at an exponent step.  Below the normal range the step is 0. -/
theorem unitsOfCode_add (m s : Nat) (hm : m ≤ 2 * binade) (hs : s = 0 ∨ binade ≤ m) :
    unitsOfCode (m + s * binade) = m * Nat.pow 2 s := by
  have hb : 0 < binade := by decide
  rcases Nat.lt_or_ge m binade with low | high
  · obtain rfl : s = 0 := by omega
    simp [unitsOfCode, low]
  · have notSmall : ¬ m + s * binade < binade := by omega
    rcases Nat.lt_or_eq_of_le hm with below | rfl
    · have hq : (m + s * binade) / binade = s + 1 := by
        rw [Nat.add_mul_div_right _ _ hb]
        have : m / binade = 1 := Nat.div_eq_of_lt_le (by omega) (by omega)
        omega
      have hr : (m + s * binade) % binade = m - binade := by
        rw [Nat.add_mul_mod_self_right, Nat.mod_eq_sub_mod high, Nat.mod_eq_of_lt (by omega)]
      simp only [unitsOfCode, notSmall, if_false, hq, hr]
      rw [Nat.add_sub_cancel, Nat.add_sub_of_le high]
    · have hq : (2 * binade + s * binade) / binade = s + 2 := by
        rw [← Nat.add_mul, Nat.mul_div_cancel _ hb, Nat.add_comm]
      have hr : (2 * binade + s * binade) % binade = 0 := by
        rw [← Nat.add_mul, Nat.mul_mod_left]
      simp only [unitsOfCode, notSmall, if_false, hq, hr]
      show (binade + 0) * Nat.pow 2 (s + 1) = 2 * binade * Nat.pow 2 s
      rw [show Nat.pow 2 (s + 1) = Nat.pow 2 s * 2 from rfl, Nat.add_zero, Nat.mul_comm 2 binade,
        Nat.mul_assoc, Nat.mul_comm 2 (Nat.pow 2 s)]

/-- Every code is a significand at an exponent step. -/
theorem exists_significand (c : Nat) :
    ∃ m s, c = m + s * binade ∧ m < 2 * binade ∧ (s = 0 ∨ binade ≤ m) := by
  have hb : 0 < binade := by decide
  have small := Nat.mod_lt c hb
  have split := Nat.div_add_mod c binade
  rcases Nat.lt_or_ge c binade with low | high
  · exact ⟨c, 0, by omega, by omega, Or.inl rfl⟩
  · obtain ⟨k, hk⟩ : ∃ k, c / binade = k + 1 :=
      ⟨c / binade - 1, by have := Nat.div_pos high hb; omega⟩
    refine ⟨binade + c % binade, k, ?_, by omega, Or.inr (by omega)⟩
    rw [hk, Nat.mul_succ, Nat.mul_comm] at split
    omega

theorem unitsOfCode_lt_succ (c : Nat) : unitsOfCode c < unitsOfCode (c + 1) := by
  obtain ⟨m, s, rfl, hm, hs⟩ := exists_significand c
  have hpow : 0 < Nat.pow 2 s := Nat.pow_pos (by decide)
  rw [show m + s * binade + 1 = m + 1 + s * binade by omega,
    unitsOfCode_add m s (by omega) hs, unitsOfCode_add (m + 1) s (by omega) (by omega)]
  exact Nat.mul_lt_mul_of_pos_right (Nat.lt_succ_self m) hpow

theorem unitsOfCode_mono {a b : Nat} (h : a ≤ b) : unitsOfCode a ≤ unitsOfCode b := by
  induction h with
  | refl => exact Nat.le_refl _
  | step _ ih => exact Nat.le_trans ih (Nat.le_of_lt (unitsOfCode_lt_succ _))

/-! ## The nearest code -/

/-- The quotient lies below the midpoint between a code and the next one; on it, if the code is
even. -/
def BelowMidpoint (c num den : Nat) : Prop :=
  if c % 2 = 0 then 2 * num ≤ (unitsOfCode c + unitsOfCode (c + 1)) * den
  else 2 * num < (unitsOfCode c + unitsOfCode (c + 1)) * den

theorem belowMidpoint_add (m s num den : Nat) (hm : m < 2 * binade) (hs : s = 0 ∨ binade ≤ m) :
    BelowMidpoint (m + s * binade) num den ↔
      if m % 2 = 0 then 2 * num ≤ (2 * m + 1) * (den * Nat.pow 2 s)
      else 2 * num < (2 * m + 1) * (den * Nat.pow 2 s) := by
  have parity : (m + s * binade) % 2 = m % 2 := by
    rw [show binade = 2 * 0x8000000000000 by decide, Nat.mul_left_comm, Nat.add_mul_mod_self_left]
  have values : (unitsOfCode (m + s * binade) + unitsOfCode (m + s * binade + 1)) * den =
      (2 * m + 1) * (den * Nat.pow 2 s) := by
    rw [show m + s * binade + 1 = m + 1 + s * binade by omega,
      unitsOfCode_add m s (by omega) hs, unitsOfCode_add (m + 1) s (by omega) (by omega),
      ← Nat.add_mul, show m + (m + 1) = 2 * m + 1 by omega, Nat.mul_assoc,
      Nat.mul_comm den]
  unfold BelowMidpoint
  rw [parity, values]

/-- The exponent step of a quotient leaves it fewer than 54 bits, and no fewer than 53 unless it is
the lowest step. -/
theorem step_bounds (num : Nat) {den : Nat} (hden : 0 < den) :
    num < 2 * binade * (den * Nat.pow 2 (Nat.log2 (num / den) - 52)) ∧
      (Nat.log2 (num / den) - 52 = 0 ∨
        binade * (den * Nat.pow 2 (Nat.log2 (num / den) - 52)) ≤ num) := by
  generalize hstep : Nat.log2 (num / den) - 52 = step
  have scale (k : Nat) : Nat.pow 2 (52 + k) * den = binade * (den * Nat.pow 2 k) := by
    rw [show Nat.pow 2 (52 + k) = binade * Nat.pow 2 k from Nat.pow_add 2 52 k, Nat.mul_assoc,
      Nat.mul_comm den]
  constructor
  · have below : num / den < Nat.pow 2 (52 + (step + 1)) :=
      Nat.lt_of_lt_of_le Nat.lt_log2_self (Nat.pow_le_pow_right (by decide) (by omega))
    have := (Nat.div_lt_iff_lt_mul hden).mp below
    rw [scale, show Nat.pow 2 (step + 1) = Nat.pow 2 step * 2 from rfl] at this
    rw [Nat.mul_comm 2 binade, Nat.mul_assoc]
    rwa [← Nat.mul_assoc den, Nat.mul_comm _ 2] at this
  · rcases Nat.eq_zero_or_pos step with zero | pos
    · exact Or.inl zero
    · right
      have nonzero : num / den ≠ 0 := by
        intro h
        rw [h] at hstep
        simp at hstep
        omega
      have above : Nat.pow 2 (52 + step) ≤ num / den := by
        have := Nat.log2_self_le nonzero
        rwa [show Nat.log2 (num / den) = 52 + step by omega] at this
      have := (Nat.le_div_iff_mul_le hden).mp above
      rwa [scale] at this

/-- **Rounding against a code.**  What is nearest stays at or below `c` exactly if the quotient does
not pass the midpoint above `c`. -/
theorem nearestCode_le_iff (num c : Nat) {den : Nat} (hden : 0 < den) (hc : c < infinityCode) :
    nearestCode num den ≤ c ↔ BelowMidpoint c num den := by
  obtain ⟨m, s, rfl, hm, hs⟩ := exists_significand c
  obtain ⟨below, above⟩ := step_bounds num hden
  have hmin : nearestCode num den ≤ m + s * binade ↔
      roundHalfEven num (den * Nat.pow 2 (Nat.log2 (num / den) - 52)) +
        (Nat.log2 (num / den) - 52) * binade ≤ m + s * binade := by
    unfold nearestCode
    dsimp only
    omega
  rw [hmin, belowMidpoint_add m s num den hm hs]
  generalize Nat.log2 (num / den) - 52 = step at *
  have hD : 0 < den * Nat.pow 2 step := Nat.mul_pos hden (Nat.pow_pos (by decide))
  have hS : 0 < den * Nat.pow 2 s := Nat.mul_pos hden (Nat.pow_pos (by decide))
  have most : roundHalfEven num (den * Nat.pow 2 step) ≤ 2 * binade := by
    rw [roundHalfEven_le_iff _ _ hD, if_pos (by decide), Nat.add_mul, Nat.mul_assoc 2]
    omega
  -- the steps of the quotient and of the code decide, unless they are the same
  rcases Nat.lt_trichotomy step s with lower | rfl | higher
  · have coarser : 2 * (den * Nat.pow 2 step) ≤ den * Nat.pow 2 s := by
      rw [Nat.mul_left_comm, ← show Nat.pow 2 (step + 1) = 2 * Nat.pow 2 step from
        Nat.mul_comm _ _]
      exact Nat.mul_le_mul_left _ (Nat.pow_le_pow_right (by decide) lower)
    have codes : (step + 2) * binade ≤ m + s * binade := by
      have := Nat.mul_le_mul_right binade (show step + 1 ≤ s from lower)
      rw [Nat.add_mul] at this ⊢
      omega
    have values : num < m * (den * Nat.pow 2 s) := by
      have h1 := Nat.mul_le_mul_left binade coarser
      have h2 := Nat.mul_le_mul_right (den * Nat.pow 2 s) (show binade ≤ m by omega)
      rw [← Nat.mul_assoc, Nat.mul_comm binade 2] at h1
      omega
    rw [Nat.add_mul] at codes
    rw [Nat.add_mul (2 * m), Nat.mul_assoc 2 m]
    refine iff_of_true (by omega) ?_
    split <;> omega
  · rw [Nat.add_le_add_iff_right, roundHalfEven_le_iff _ _ hD]
  · have coarser : 2 * (den * Nat.pow 2 s) ≤ den * Nat.pow 2 step := by
      rw [Nat.mul_left_comm, ← show Nat.pow 2 (s + 1) = 2 * Nat.pow 2 s from Nat.mul_comm _ _]
      exact Nat.mul_le_mul_left _ (Nat.pow_le_pow_right (by decide) higher)
    have reach : binade * (den * Nat.pow 2 step) ≤ num := by omega
    have least : binade ≤ roundHalfEven num (den * Nat.pow 2 step) := by
      refine Nat.le_of_not_lt fun low => ?_
      have := (roundHalfEven_le_iff num (binade - 1) hD).mp (by omega)
      rw [if_neg (by decide)] at this
      have : (2 * (binade - 1) + 1) * (den * Nat.pow 2 step) ≤
          2 * binade * (den * Nat.pow 2 step) := Nat.mul_le_mul_right _ (by decide)
      rw [Nat.mul_assoc 2] at this
      omega
    have codes : m + s * binade < binade + step * binade := by
      have := Nat.mul_le_mul_right binade (show s + 1 ≤ step from higher)
      rw [Nat.add_mul] at this
      omega
    have values : (m + 1) * (den * Nat.pow 2 s) ≤ num := by
      have h1 := Nat.mul_le_mul_left binade coarser
      have h2 := Nat.mul_le_mul_right (den * Nat.pow 2 s) (show m + 1 ≤ 2 * binade from hm)
      rw [Nat.mul_left_comm, ← Nat.mul_assoc 2] at h1
      omega
    rw [Nat.add_mul m] at values
    rw [Nat.add_mul (2 * m), Nat.mul_assoc 2 m]
    refine iff_of_false (by omega) ?_
    split <;> omega

theorem nearestCode_le_infinityCode (num den : Nat) : nearestCode num den ≤ infinityCode :=
  Nat.min_le_right _ _

theorem BelowMidpoint.mono {c num num' den : Nat} (h : num ≤ num')
    (hc : BelowMidpoint c num' den) : BelowMidpoint c num den := by
  unfold BelowMidpoint at *
  split at hc <;> simp only [*, if_true, if_false] <;> omega

theorem nearestCode_mono {num num' : Nat} (den : Nat) (hden : 0 < den) (h : num ≤ num') :
    nearestCode num den ≤ nearestCode num' den := by
  rcases Nat.lt_or_ge (nearestCode num' den) infinityCode with finite | infinite
  · have := (nearestCode_le_iff num' _ hden finite).mp (Nat.le_refl _)
    exact (nearestCode_le_iff num _ hden finite).mpr (this.mono h)
  · exact Nat.le_trans (nearestCode_le_infinityCode num den) infinite

/-- What lies between the midpoints on both sides of a code is rounded to it. -/
theorem nearestCode_eq {num c den : Nat} (hden : 0 < den) (hc : c < infinityCode)
    (above : c = 0 ∨ ¬ BelowMidpoint (c - 1) num den) (below : BelowMidpoint c num den) :
    nearestCode num den = c := by
  apply Nat.le_antisymm ((nearestCode_le_iff num c hden hc).mpr below)
  rcases above with rfl | above
  · exact Nat.zero_le _
  · rw [← nearestCode_le_iff num (c - 1) hden (by omega)] at above
    omega

theorem nearestCode_unitsOfCode {c : Nat} (hc : c < infinityCode) :
    nearestCode (unitsOfCode c) 1 = c := by
  have next := unitsOfCode_lt_succ c
  refine nearestCode_eq (by decide) hc ?_ ?_
  · rcases Nat.eq_zero_or_pos c with zero | pos
    · exact Or.inl zero
    · right
      have last := unitsOfCode_lt_succ (c - 1)
      rw [Nat.sub_add_cancel pos] at last
      unfold BelowMidpoint
      rw [Nat.sub_add_cancel pos]
      split <;> omega
  · unfold BelowMidpoint
    split <;> omega

theorem le_nearestCode {c num : Nat} (hc : c < infinityCode) (h : unitsOfCode c ≤ num) :
    c ≤ nearestCode num 1 := by
  rw [← nearestCode_unitsOfCode hc]
  exact nearestCode_mono 1 (by decide) h

end Binary64

end SeriesStorage

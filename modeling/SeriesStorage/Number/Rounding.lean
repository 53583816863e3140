/-!
# Rounding a quotient

`roundHalfEven num den` is the natural number nearest to `num / den`, a half going to the even
neighbour.  It is at most half a unit away (`roundHalfEven_upper`, `roundHalfEven_lower`) and keeps
what is already whole (`roundHalfEven_mul_self`).
-/

namespace SeriesStorage

/-- The natural number nearest to `num / den`; a half goes to the even neighbour. -/
def roundHalfEven (num den : Nat) : Nat :=
  let rest := 2 * (num % den)
  if rest < den then num / den
  else if den < rest then num / den + 1
  else num / den + num / den % 2

/-! ## Lemmas -/

theorem roundHalfEven_upper (num : Nat) {den : Nat} (h : 0 < den) :
    2 * (roundHalfEven num den * den) ≤ 2 * num + den := by
  have split := Nat.div_add_mod num den
  have swap : num / den * den = den * (num / den) := Nat.mul_comm _ _
  unfold roundHalfEven
  have parity : num / den % 2 = 0 ∨ num / den % 2 = 1 := by omega
  have small := Nat.mod_lt num h
  dsimp only
  split
  · omega
  · split
    · rw [Nat.add_mul]
      omega
    · rcases parity with even | odd
      · rw [even, Nat.add_zero]
        omega
      · rw [odd, Nat.add_mul]
        omega

theorem roundHalfEven_lower (num : Nat) {den : Nat} (h : 0 < den) :
    2 * num ≤ 2 * (roundHalfEven num den * den) + den := by
  have split := Nat.div_add_mod num den
  have swap : num / den * den = den * (num / den) := Nat.mul_comm _ _
  unfold roundHalfEven
  have parity : num / den % 2 = 0 ∨ num / den % 2 = 1 := by omega
  have small := Nat.mod_lt num h
  dsimp only
  split
  · omega
  · split
    · rw [Nat.add_mul]
      omega
    · rcases parity with even | odd
      · rw [even, Nat.add_zero]
        omega
      · rw [odd, Nat.add_mul]
        omega

theorem roundHalfEven_mul_self (n : Nat) {den : Nat} (h : 0 < den) :
    roundHalfEven (n * den) den = n := by
  simp [roundHalfEven, Nat.mul_mod_left, Nat.mul_div_cancel n h, h]

end SeriesStorage

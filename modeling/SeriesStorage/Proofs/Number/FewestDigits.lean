import Mathlib.Algebra.Ring.Nat
import SeriesStorage.Proofs.Number.ShortestText

/-!
# The shortest decimal has the fewest digits

No decimal that has a finite number other than zero as nearest has fewer digits than the decimal of
its shortest text (`length_shortest_le`).

* `decimalCode digits exponent`: the code nearest to a decimal; it rises with the decimal
  (`decimalCode_mono`).
* `not_roundsTo_of_coarser`: no grid coarser than that of the shortest decimal has a point that
  rounds to the number.
* `length_shortest_le`: a decimal of fewer digits would lie on a coarser grid, or so far below the
  shortest one that a power of ten, on a coarser grid as well, lies between the two.
-/

namespace SeriesStorage

namespace Binary64

/-! ## Rounding decimals -/

/-- A smaller quotient is rounded to a code that is not larger. -/
theorem nearestCode_mono_quotient {num den num' den' : Nat} (hden : 0 < den) (hden' : 0 < den')
    (h : num * den' ≤ num' * den) : nearestCode num den ≤ nearestCode num' den' := by
  rcases Nat.lt_or_ge (nearestCode num' den') infinityCode with finite | infinite
  · have below := (nearestCode_le_iff num' _ hden' finite).mp (Nat.le_refl _)
    refine (nearestCode_le_iff num _ hden finite).mpr ?_
    unfold BelowMidpoint at *
    generalize unitsOfCode (nearestCode num' den') + unitsOfCode (nearestCode num' den' + 1) = twice
      at *
    have swap : twice * den' * den = twice * den * den' := Nat.mul_right_comm _ _ _
    have doubled : 2 * num * den' ≤ 2 * num' * den := by
      rw [Nat.mul_assoc, Nat.mul_assoc]
      exact Nat.mul_le_mul_left 2 h
    split
    · next even =>
      rw [if_pos even] at below
      have := Nat.mul_le_mul_right den below
      exact Nat.le_of_mul_le_mul_right (show 2 * num * den' ≤ twice * den * den' by omega) hden'
    · next odd =>
      rw [if_neg odd] at below
      have := Nat.mul_lt_mul_of_pos_right below hden
      exact Nat.lt_of_mul_lt_mul_right (show 2 * num * den' < twice * den * den' by omega)
  · exact Nat.le_trans (nearestCode_le_infinityCode num den) infinite

/-- The code nearest to `digits * 10 ^ exponent`. -/
def decimalCode (digits : Nat) (exponent : Int) : Nat :=
  nearestCode (digits * Nat.pow 10 exponent.toNat * unitsPerOne) (Nat.pow 10 (-exponent).toNat)

/-- **Rounding keeps the order of decimals.**  They are compared at the lower of their exponents. -/
theorem decimalCode_mono {d d' : Nat} {e e' : Int}
    (h : d * Nat.pow 10 (e - e').toNat ≤ d' * Nat.pow 10 (e' - e).toNat) :
    decimalCode d e ≤ decimalCode d' e' := by
  refine nearestCode_mono_quotient (Nat.pow_pos (by decide)) (Nat.pow_pos (by decide)) ?_
  -- both cross products are the compared numbers, times one power of ten and the unit
  obtain ⟨common, low⟩ : ∃ common, e.toNat + (-e').toNat = (e - e').toNat + common :=
    ⟨e.toNat + (-e').toNat - (e - e').toNat, by omega⟩
  have high : e'.toNat + (-e).toNat = (e' - e).toNat + common := by omega
  have cross (n a b c : Nat) (sum : a + b = c + common) :
      n * Nat.pow 10 a * unitsPerOne * Nat.pow 10 b =
        n * Nat.pow 10 c * (Nat.pow 10 common * unitsPerOne) := by
    calc n * Nat.pow 10 a * unitsPerOne * Nat.pow 10 b
        = n * (Nat.pow 10 a * Nat.pow 10 b) * unitsPerOne := by
          rw [Nat.mul_right_comm, Nat.mul_assoc n]
      _ = n * (Nat.pow 10 c * Nat.pow 10 common) * unitsPerOne := by
          simp only [Nat.pow_eq]
          rw [← Nat.pow_add, ← Nat.pow_add, sum]
      _ = n * Nat.pow 10 c * (Nat.pow 10 common * unitsPerOne) := by
          simp only [Nat.mul_assoc]
  rw [cross d _ _ _ low, cross d' _ _ _ high]
  exact Nat.mul_le_mul_right _ h

/-- A zero at the end of the digits counts as much as one in the exponent. -/
theorem decimalCode_shift (d zeros : Nat) (e : Int) :
    decimalCode (d * Nat.pow 10 zeros) e = decimalCode d (e + zeros) := by
  have up : (e + zeros - e).toNat = zeros := by omega
  have down : (e - (e + zeros)).toNat = 0 := by omega
  apply Nat.le_antisymm
  · apply decimalCode_mono
    rw [up, down]
    exact Nat.le_of_eq (Nat.mul_one _)
  · apply decimalCode_mono
    rw [up, down]
    exact Nat.le_of_eq (Nat.mul_one _).symm

theorem decimalCode_zero (e : Int) : decimalCode 0 e = 0 := by
  unfold decimalCode
  rw [Nat.zero_mul, Nat.zero_mul]
  simp [nearestCode, roundHalfEven]

/-- A decimal read as a finite number other than zero has the code of the number as nearest. -/
theorem decimalCode_of_ofDecimal {negative : Bool} {digits : Nat} {exponent : Int} {x : Binary64}
    (read : ofDecimal negative digits exponent = x) (pos : x.code ≠ 0)
    (finite : x.code < infinityCode) : decimalCode digits exponent = x.code := by
  subst read
  have small : infinityCode < 0x8000000000000000 := by decide
  unfold ofDecimal at pos finite ⊢
  split at pos
  · exact absurd (code_ofCode negative (by decide)) pos
  · next nonzero =>
    rw [if_neg nonzero] at finite ⊢
    split at pos
    · next huge =>
      rw [if_pos huge, code_ofCode negative small] at finite
      exact absurd finite (Nat.lt_irrefl _)
    · next moderate =>
      rw [if_neg moderate] at finite ⊢
      split at pos
      · exact absurd (code_ofCode negative (by decide)) pos
      · next visible =>
        rw [if_neg visible]
        have bound (num den : Nat) : (ofUnits negative num den).code = nearestCode num den :=
          code_ofCode negative (Nat.lt_of_le_of_lt (nearestCode_le_infinityCode num den) small)
        unfold decimalCode
        split
        · rw [bound, show (-exponent).toNat = 0 by omega]
        · rw [bound, show exponent.toNat = 0 by omega, show Nat.pow 10 0 = 1 from rfl, Nat.mul_one]

/-! ## Points on grids -/

/-- The point `d` of the grid `10 ^ place`, as a decimal. -/
theorem decimalCode_grid (d place : Nat) :
    decimalCode d ((place : Int) - finestPlace) =
      nearestCode (d * Nat.pow 10 place * unitsPerOne) binaryScale := by
  have shifted := decimalCode_shift d place (-(finestPlace : Int))
  rw [show -(finestPlace : Int) + place = place - finestPlace by omega] at shifted
  rw [← shifted]
  unfold decimalCode binaryScale
  rw [show (-(finestPlace : Int)).toNat = 0 by omega, Int.neg_neg, Int.toNat_natCast]
  simp only [Nat.pow_eq, Nat.pow_zero, Nat.mul_one]

/-- The points of a grid that round to a code are the decimals that have it as nearest code. -/
theorem roundsTo_grid_iff {code d place : Nat} (pos : 0 < code) (finite : code < infinityCode) :
    roundsTo code (d * (decimalScale * Nat.pow 10 place)) = true ↔
      decimalCode d ((place : Int) - finestPlace) = code := by
  have doubled : d * (decimalScale * Nat.pow 10 place) =
      2 * (d * Nat.pow 10 place * unitsPerOne) := by
    rw [decimalScale_eq, Nat.mul_assoc 2, Nat.mul_left_comm d 2, Nat.mul_comm unitsPerOne,
      Nat.mul_assoc]
  rw [decimalCode_grid, doubled]
  constructor
  · intro rounds
    exact nearestCode_of_roundsTo rounds pos finite binaryScale_pos Nat.one_pos (Nat.mul_one _)
      (Nat.mul_one _)
  · intro near
    have below := (nearestCode_le_iff _ code binaryScale_pos finite).mp (Nat.le_of_eq near)
    have above : ¬ BelowMidpoint (code - 1) (d * Nat.pow 10 place * unitsPerOne) binaryScale := by
      rw [← nearestCode_le_iff _ _ binaryScale_pos (by omega)]
      omega
    unfold BelowMidpoint at below above
    rw [Nat.sub_add_cancel pos] at above
    unfold roundsTo
    dsimp only
    split
    · next even =>
      rw [if_pos even] at below
      rw [if_neg (by omega)] at above
      simp only [Bool.and_eq_true, decide_eq_true_eq]
      omega
    · next odd =>
      rw [if_neg odd] at below
      rw [if_pos (by omega)] at above
      simp only [Bool.and_eq_true, decide_eq_true_eq]
      omega

/-- The numbers that round to a code form an interval. -/
theorem roundsTo_between {code low x high : Nat} (lower : roundsTo code low = true)
    (upper : roundsTo code high = true) (hlow : low ≤ x) (hhigh : x ≤ high) :
    roundsTo code x = true := by
  unfold roundsTo at *
  by_cases even : code % 2 = 0
  · simp only [if_pos even, Bool.and_eq_true, decide_eq_true_eq] at *
    omega
  · simp only [if_neg even, Bool.and_eq_true, decide_eq_true_eq] at *
    omega

/-- The value of a code rounds to it. -/
theorem roundsTo_value {code : Nat} (pos : 0 < code) :
    roundsTo code (2 * unitsOfCode code * binaryScale) = true := by
  have scale := binaryScale_pos
  have := roundsTo_below pos (Nat.one_pos) scale
  rwa [Nat.div_one, Nat.mul_one] at this

/-- A grid with a point that rounds to a code is found to have one: the neighbour of the value on
the side of the point lies between the two. -/
theorem gridPoint?_ne_none {code place d : Nat} (pos : 0 < code)
    (rounds : roundsTo code (d * (decimalScale * Nat.pow 10 place)) = true) :
    gridPoint? code place ≠ none := by
  have value := roundsTo_value pos
  have hstep : 0 < decimalScale * Nat.pow 10 place :=
    Nat.mul_pos decimalScale_pos (Nat.pow_pos (by decide))
  unfold gridPoint?
  dsimp only
  generalize decimalScale * Nat.pow 10 place = step at *
  generalize 2 * unitsOfCode code * binaryScale = V at *
  have below := Nat.div_mul_le_self V step
  have above : V < V / step * step + step := Nat.lt_div_mul_add hstep
  have neighbour : roundsTo code (V / step * step) = true ∨
      roundsTo code (V / step * step + step) = true := by
    rcases Nat.lt_or_ge (V / step) d with right | left
    · have := Nat.mul_le_mul_right step right
      rw [Nat.succ_mul] at this
      exact Or.inr (roundsTo_between value rounds (Nat.le_of_lt above) this)
    · exact Or.inl (roundsTo_between rounds value (Nat.mul_le_mul_right step left) below)
  split
  · exact Option.some_ne_none _
  · next other =>
    have upper : roundsTo code (V / step * step + step) = true := by
      rcases neighbour with lower | upper
      · rw [lower, Bool.true_and, Bool.or_eq_true, not_or] at other
        simpa using other.1
      · exact upper
    rw [if_pos upper]
    exact Option.some_ne_none _

/-- Between the grid that is found and the one the search began with no grid has a point. -/
theorem gridPoint?_eq_none_of_coarser {code start place : Nat}
    (coarser : (coarsest code start).2 < place) (within : place ≤ start) :
    gridPoint? code place = none := by
  induction start with
  | zero => omega
  | succ start ih =>
    cases found : gridPoint? code (start + 1) with
    | some d =>
      simp only [coarsest, found] at coarser
      omega
    | none =>
      simp only [coarsest, found] at coarser
      rcases Nat.lt_or_eq_of_le within with inside | rfl
      · exact ih coarser (by omega)
      · exact found

/-- On the grid that the search begins with, and on coarser ones, already the first point is too
large. -/
theorem place_lt_startPlace {code d place : Nat} (pos : 0 < code)
    (rounds : roundsTo code (d * (decimalScale * Nat.pow 10 place)) = true) :
    place < startPlace code := by
  have nonzero : d ≠ 0 := by
    rintro rfl
    rw [Nat.zero_mul] at rounds
    exact not_roundsTo_zero pos rounds
  have high : d * (decimalScale * Nat.pow 10 place) ≤
      (unitsOfCode code + unitsOfCode (code + 1)) * binaryScale := by
    unfold roundsTo at rounds
    dsimp only at rounds
    split at rounds <;> simp only [Bool.and_eq_true, decide_eq_true_eq] at rounds <;> omega
  have first : Nat.pow 10 place ≤
      (unitsOfCode code + unitsOfCode (code + 1)) * binaryScale / decimalScale := by
    rw [Nat.le_div_iff_mul_le decimalScale_pos, Nat.mul_comm]
    exact Nat.le_trans (Nat.le_mul_of_pos_left _ (Nat.pos_of_ne_zero nonzero)) high
  unfold startPlace
  generalize (unitsOfCode code + unitsOfCode (code + 1)) * binaryScale / decimalScale = most at *
  have digits : most < 10 ^ (Nat.toDigits 10 most).length :=
    (Nat.length_toDigits_le_iff (by decide) Nat.length_toDigits_pos).mp (Nat.le_refl _)
  exact (Nat.pow_lt_pow_iff_right (by decide)).mp (Nat.lt_of_le_of_lt first digits)

/-- **No coarser grid than that of the shortest decimal has a point that rounds to the number.** -/
theorem not_roundsTo_of_coarser {code d place : Nat} (pos : 0 < code)
    (coarser : (shortest code).2 < place) :
    roundsTo code (d * (decimalScale * Nat.pow 10 place)) ≠ true := by
  intro rounds
  refine gridPoint?_ne_none pos rounds ?_
  exact gridPoint?_eq_none_of_coarser coarser (Nat.le_of_lt (place_lt_startPlace pos rounds))

/-! ## Counting digits -/

/-- **A decimal that has the number as nearest has no fewer digits than the shortest one.** -/
theorem length_shortest_le {code d k : Nat} {e : Int} (finite : code < infinityCode)
    (pos : 0 < code) (near : decimalCode d e = code) (few : d < 10 ^ k) :
    (Nat.toDigits 10 (shortest code).1).length ≤ k := by
  have rounds := (roundsTo_grid_iff pos finite).mp (roundsTo_shortest pos)
  have coarser := @not_roundsTo_of_coarser code
  generalize shortest code = found at *
  obtain ⟨digits, place⟩ := found
  dsimp only at *
  have kpos : 0 < k := by
    refine Nat.pos_of_ne_zero fun zero => ?_
    subst zero
    obtain rfl : d = 0 := by omega
    rw [decimalCode_zero] at near
    omega
  rw [Nat.length_toDigits_le_iff (by decide) kpos]
  refine Nat.lt_of_not_le fun long => ?_
  rcases Int.lt_or_le ((place : Int) - finestPlace) e with high | low
  · -- the decimal lies on a coarser grid itself
    obtain ⟨higher, rfl⟩ : ∃ higher : Nat, e = (higher : Int) - finestPlace :=
      ⟨(e + finestPlace).toNat, by omega⟩
    exact coarser pos (by omega) ((roundsTo_grid_iff pos finite).mpr near)
  · -- the decimal is less than a power of ten on the grid of the shortest, which is no more than it
    have power : decimalCode (10 ^ k) ((place : Int) - finestPlace) = code := by
      apply Nat.le_antisymm
      · refine Nat.le_trans (decimalCode_mono ?_) (Nat.le_of_eq rounds)
        exact Nat.mul_le_mul_right _ long
      · refine Nat.le_trans (Nat.le_of_eq near.symm) (decimalCode_mono ?_)
        rw [show (e - ((place : Int) - finestPlace)).toNat = 0 by omega]
        exact Nat.le_trans (Nat.le_of_eq (Nat.mul_one d))
          (Nat.le_trans (Nat.le_of_lt few) (Nat.le_mul_of_pos_right _ (Nat.pow_pos (by decide))))
    have single := decimalCode_shift 1 k ((place : Int) - finestPlace)
    rw [Nat.one_mul, show ((place : Int) - finestPlace + k) =
      ((place + k : Nat) : Int) - finestPlace by omega] at single
    exact coarser pos (show place < place + k by omega)
      ((roundsTo_grid_iff pos finite).mpr (single.symm.trans power))

end Binary64

end SeriesStorage

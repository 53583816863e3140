import SeriesStorage.Point.Key
import SeriesStorage.Proofs.Number.Nearest

/-!
# Padded keys and windows

A key of a timestamp lies between the timestamp as a double and that double plus 0.1
(`IsKeyOf`); padded timestamps do (`isKeyOf_paddedKey`).  Such a key gives back the timestamp that
the double itself gives back (`IsKeyOf.keyTime_eq`), which is the timestamp up to 2⁵³
(`keyTime_ofUInt64`), and no window whose bounds enclose that time misses the key
(`IsKeyOf.between`).
-/

namespace SeriesStorage

namespace Binary64

/-! ## Doubles of words -/

theorem unitsPerOne_pos : 0 < unitsPerOne := by decide +kernel

/-- The exponent is a variable, as elaboration does not unfold powers with so large a literal. -/
theorem unitsPerOne_eq {k : Nat} (h : k = 1074) : unitsPerOne = Nat.pow 2 k := by
  subst h
  decide +kernel

theorem negative_ofUnits (sign : Bool) (num den : Nat) :
    (ofUnits sign num den).negative = sign := by
  apply negative_ofCode
  have := nearestCode_le_infinityCode num den
  unfold infinityCode at this
  omega

theorem code_ofUnits (sign : Bool) (num den : Nat) :
    (ofUnits sign num den).code = nearestCode num den := by
  apply code_ofCode
  have := nearestCode_le_infinityCode num den
  unfold infinityCode at this
  omega

@[simp] theorem negative_ofUInt64 (n : UInt64) : (ofUInt64 n).negative = false :=
  negative_ofUnits false _ _

theorem code_ofUInt64 (n : UInt64) :
    (ofUInt64 n).code = nearestCode (n.toNat * unitsPerOne) 1 :=
  code_ofUnits false _ _

theorem code_ofUInt64_mono {m n : UInt64} (h : m ≤ n) : (ofUInt64 m).code ≤ (ofUInt64 n).code := by
  rw [code_ofUInt64, code_ofUInt64]
  exact nearestCode_mono 1 (by decide) (Nat.mul_le_mul_right _ (UInt64.le_iff_toNat_le.mp h))

/-- The code of 2⁶⁴. -/
def codeBeyondWords : Nat := binade + 1086 * binade

theorem unitsOfCode_codeBeyondWords :
    unitsOfCode codeBeyondWords = 0x10000000000000000 * unitsPerOne := by
  rw [codeBeyondWords, unitsOfCode_add _ _ (by decide) (Or.inr (by decide))]
  decide +kernel

theorem code_ofUInt64_le (n : UInt64) : (ofUInt64 n).code ≤ codeBeyondWords := by
  rw [code_ofUInt64, ← nearestCode_unitsOfCode (show codeBeyondWords < infinityCode by decide),
    unitsOfCode_codeBeyondWords]
  exact nearestCode_mono 1 (by decide) (Nat.mul_le_mul_right _ (Nat.le_of_lt n.toNat_lt))

theorem code_ofUInt64_lt (n : UInt64) : (ofUInt64 n).code < infinityCode :=
  Nat.lt_of_le_of_lt (code_ofUInt64_le n) (by decide)

/-- Up to 2⁵³ every whole number has a code. -/
theorem exists_code_of_le (n : Nat) (h : n ≤ 0x20000000000000) :
    ∃ c, c < infinityCode ∧ unitsOfCode c = n * unitsPerOne := by
  rcases Nat.eq_zero_or_pos n with rfl | pos
  · exact ⟨0, by decide, by rw [Nat.zero_mul]; rfl⟩
  rcases Nat.eq_or_lt_of_le h with rfl | small
  · refine ⟨binade + 1075 * binade, by decide, ?_⟩
    rw [unitsOfCode_add _ _ (by decide) (Or.inr (by decide))]
    decide +kernel
  · have hk : n.log2 ≤ 52 := by
      have := (Nat.log2_lt (by omega)).mpr (show n < 2 ^ 53 from small)
      omega
    -- the significand is `n` shifted up to 53 bits
    have low : binade ≤ n * Nat.pow 2 (52 - n.log2) := by
      have := Nat.mul_le_mul_right (Nat.pow 2 (52 - n.log2)) (Nat.log2_self_le (by omega : n ≠ 0))
      rwa [show (2 ^ n.log2) * Nat.pow 2 (52 - n.log2) = binade by
        show Nat.pow 2 n.log2 * Nat.pow 2 (52 - n.log2) = Nat.pow 2 52
        rw [show 52 = n.log2 + (52 - n.log2) by omega]
        rw [Nat.add_sub_cancel_left]
        exact (Nat.pow_add 2 _ _).symm] at this
    have high : n * Nat.pow 2 (52 - n.log2) < 2 * binade := by
      have := Nat.mul_lt_mul_of_pos_right (Nat.lt_log2_self (n := n))
        (Nat.pow_pos (n := 52 - n.log2) (show 0 < 2 by decide))
      rwa [show (2 ^ (n.log2 + 1)) * (2 ^ (52 - n.log2)) = 2 * binade by
        rw [← Nat.pow_add, show n.log2 + 1 + (52 - n.log2) = 53 by omega]
        rfl] at this
    refine ⟨n * Nat.pow 2 (52 - n.log2) + (1022 + n.log2) * binade, ?_, ?_⟩
    · have := Nat.mul_le_mul_right binade (show 1022 + n.log2 ≤ 1074 by omega)
      have : 1074 * binade + 2 * binade < infinityCode := by decide
      omega
    · have split : unitsPerOne = Nat.pow 2 (52 - n.log2) * Nat.pow 2 (1022 + n.log2) := by
        rw [unitsPerOne_eq (show 52 - n.log2 + (1022 + n.log2) = 1074 by omega)]
        exact Nat.pow_add 2 _ _
      rw [unitsOfCode_add _ _ (by omega) (Or.inr low), Nat.mul_assoc, split]

theorem unitsOfCode_ofUInt64 {n : UInt64} (h : n.toNat ≤ 0x20000000000000) :
    unitsOfCode (ofUInt64 n).code = n.toNat * unitsPerOne := by
  obtain ⟨c, hc, hunits⟩ := exists_code_of_le n.toNat h
  rw [code_ofUInt64, ← hunits, nearestCode_unitsOfCode hc]

/-- From 2⁵³ on every double is a whole number. -/
theorem unitsPerOne_dvd_unitsOfCode {c : Nat} (h : 1076 * binade ≤ c) :
    unitsPerOne ∣ unitsOfCode c := by
  obtain ⟨m, s, rfl, hm, hs⟩ := exists_significand c
  have hstep : 1074 ≤ s := by
    refine Nat.le_of_not_lt fun low => ?_
    have := Nat.mul_le_mul_right binade (show s ≤ 1073 by omega)
    omega
  obtain ⟨k, hk⟩ : ∃ k, k = 1074 := ⟨1074, rfl⟩
  rw [unitsOfCode_add m s (by omega) hs, unitsPerOne_eq hk]
  exact Nat.dvd_mul_left_of_dvd (Nat.pow_dvd_pow 2 (by omega)) m

theorem unitsPerOne_dvd_ofUInt64 (n : UInt64) : unitsPerOne ∣ unitsOfCode (ofUInt64 n).code := by
  rcases Nat.le_total n.toNat 0x20000000000000 with small | large
  · rw [unitsOfCode_ofUInt64 small]
    exact Nat.dvd_mul_left _ _
  · apply unitsPerOne_dvd_unitsOfCode
    have hunits : unitsOfCode (1076 * binade) = 0x20000000000000 * unitsPerOne := by
      rw [show 1076 * binade = binade + 1075 * binade by decide,
        unitsOfCode_add _ _ (by decide) (Or.inr (by decide))]
      decide +kernel
    rw [← nearestCode_unitsOfCode (show 1076 * binade < infinityCode by decide), hunits,
      code_ofUInt64]
    exact nearestCode_mono 1 (by decide) (Nat.mul_le_mul_right _ large)

/-- The sum of two finite numbers that are not negative. -/
theorem add_eq_ofUnits {x y : Binary64} (hx : x.negative = false) (hy : y.negative = false)
    (fx : x.code < infinityCode) (fy : y.code < infinityCode) :
    x + y = ofUnits false (unitsOfCode x.code + unitsOfCode y.code) 1 := by
  have nx : x.isNaN = false := by simp [isNaN]; omega
  have ny : y.isNaN = false := by simp [isNaN]; omega
  have ix : x.isInfinite = false := by simp [isInfinite]; omega
  have iy : y.isInfinite = false := by simp [isInfinite]; omega
  have sum : x.units + y.units = ((unitsOfCode x.code + unitsOfCode y.code : Nat) : Int) := by
    simp [units, hx, hy]
  show add x y = _
  unfold add
  simp only [nx, ny, ix, iy, Bool.or_self, Bool.false_eq_true, if_false, sum, hx, hy,
    Bool.and_self]
  split
  · next h =>
    have hz : unitsOfCode x.code + unitsOfCode y.code = 0 := by omega
    rw [hz, ofUnits, show (0 : Nat) = unitsOfCode 0 from rfl,
      nearestCode_unitsOfCode (by decide)]
    rfl
  · rw [show decide (((unitsOfCode x.code + unitsOfCode y.code : Nat) : Int) < 0) = false by
      simp; omega, Int.natAbs_natCast]

end Binary64

open Binary64 (unitsOfCode unitsPerOne nearestCode infinityCode codeBeyondWords)

/-! ## Keys of a timestamp -/

/-- A key lies between a timestamp as a double and that double plus 0.1. -/
structure IsKeyOf (time : UInt64) (key : Binary64) : Prop where
  notNegative : key.negative = false
  lower : (Binary64.ofUInt64 time).code ≤ key.code
  upper : key.code ≤ (paddedKey time maxPadding).code

theorem maxPadding_lt_half : 2 * unitsOfCode maxPadding.code < unitsPerOne := by decide +kernel

theorem paddedKey_eq (time : UInt64) {padding : Binary64} (sign : padding.negative = false)
    (finite : padding.code < infinityCode) :
    paddedKey time padding =
      .ofUnits false (unitsOfCode (Binary64.ofUInt64 time).code + unitsOfCode padding.code) 1 :=
  Binary64.add_eq_ofUnits (by simp) sign (Binary64.code_ofUInt64_lt time) finite

theorem code_paddedKey (time : UInt64) {padding : Binary64} (sign : padding.negative = false)
    (finite : padding.code < infinityCode) :
    (paddedKey time padding).code =
      nearestCode (unitsOfCode (Binary64.ofUInt64 time).code + unitsOfCode padding.code) 1 := by
  rw [paddedKey_eq time sign finite, Binary64.code_ofUnits]

theorem code_paddedKey_max (time : UInt64) :
    (paddedKey time maxPadding).code =
      nearestCode (unitsOfCode (Binary64.ofUInt64 time).code + unitsOfCode maxPadding.code) 1 :=
  code_paddedKey time (by decide) (by decide)

/-- A drawn padding gives a key of the timestamp. -/
theorem isKeyOf_paddedKey (time : UInt64) (padding : Padding) :
    IsKeyOf time (paddedKey time padding.value) := by
  have below := padding.belowMax
  have finite : padding.value.code < infinityCode := Nat.lt_trans below (by decide)
  have hcode := code_paddedKey time padding.notNegative finite
  refine ⟨?_, ?_, ?_⟩
  · rw [paddedKey_eq time padding.notNegative finite, Binary64.negative_ofUnits]
  · rw [hcode]
    exact Binary64.le_nearestCode (Binary64.code_ofUInt64_lt time) (Nat.le_add_right _ _)
  · rw [hcode, code_paddedKey_max]
    exact Binary64.nearestCode_mono 1 (by decide)
      (Nat.add_le_add_left (Binary64.unitsOfCode_mono (Nat.le_of_lt below)) _)

theorem code_paddedKey_max_lt (time : UInt64) :
    (paddedKey time maxPadding).code < infinityCode := by
  have room : unitsOfCode codeBeyondWords + unitsOfCode maxPadding.code ≤
      unitsOfCode (codeBeyondWords + 1) := by decide +kernel
  have small := Binary64.unitsOfCode_mono (Binary64.code_ofUInt64_le time)
  have next : nearestCode (unitsOfCode (codeBeyondWords + 1)) 1 = codeBeyondWords + 1 :=
    Binary64.nearestCode_unitsOfCode (by decide)
  have := Binary64.nearestCode_mono 1 (by decide) (show
    unitsOfCode (Binary64.ofUInt64 time).code + unitsOfCode maxPadding.code ≤
      unitsOfCode (codeBeyondWords + 1) by omega)
  rw [next] at this
  rw [code_paddedKey_max]
  exact Nat.lt_of_le_of_lt this (by decide)

/-- The largest key of a timestamp is off by less than twice the largest padding. -/
theorem unitsOfCode_paddedKey_max_le (time : UInt64) {k : Nat}
    (whole : unitsOfCode (Binary64.ofUInt64 time).code = k * unitsPerOne) :
    unitsOfCode (paddedKey time maxPadding).code ≤
      k * unitsPerOne + 2 * unitsOfCode maxPadding.code := by
  have finite := code_paddedKey_max_lt time
  rw [code_paddedKey_max] at *
  generalize hb : nearestCode (unitsOfCode (Binary64.ofUInt64 time).code +
    unitsOfCode maxPadding.code) 1 = b at *
  refine Nat.le_of_not_lt fun far => ?_
  have beyond : (Binary64.ofUInt64 time).code < b := by
    refine Nat.lt_of_not_le fun low => ?_
    have := Binary64.unitsOfCode_mono low
    omega
  -- the sum lies below the midpoint under `b`, since both neighbours lie that high
  have last := Binary64.unitsOfCode_mono (show (Binary64.ofUInt64 time).code ≤ b - 1 by omega)
  have below : Binary64.BelowMidpoint (b - 1)
      (unitsOfCode (Binary64.ofUInt64 time).code + unitsOfCode maxPadding.code) 1 := by
    unfold Binary64.BelowMidpoint
    rw [Nat.sub_add_cancel (by omega)]
    split <;> omega
  have := (Binary64.nearestCode_le_iff _ (b - 1) (by decide) (by omega)).mpr below
  omega

/-- The largest key of a timestamp does not reach the next whole number. -/
theorem unitsOfCode_paddedKey_max_lt (time : UInt64) {k : Nat}
    (whole : unitsOfCode (Binary64.ofUInt64 time).code = k * unitsPerOne) :
    unitsOfCode (paddedKey time maxPadding).code < (k + 1) * unitsPerOne := by
  have near := unitsOfCode_paddedKey_max_le time whole
  have half := maxPadding_lt_half
  rw [Nat.add_mul]
  omega

namespace IsKeyOf

variable {time : UInt64} {key : Binary64}

theorem finite (h : IsKeyOf time key) : key.code < infinityCode :=
  Nat.lt_of_le_of_lt h.upper (code_paddedKey_max_lt time)

theorem isNaN_eq_false (h : IsKeyOf time key) : key.isNaN = false := by
  have := h.finite
  simp [Binary64.isNaN]
  omega

/-- The whole part of a key is that of the timestamp as a double. -/
theorem whole_eq (h : IsKeyOf time key) :
    unitsOfCode key.code / unitsPerOne =
      unitsOfCode (Binary64.ofUInt64 time).code / unitsPerOne := by
  obtain ⟨k, hk⟩ := Binary64.unitsPerOne_dvd_ofUInt64 time
  rw [Nat.mul_comm] at hk
  have low := Binary64.unitsOfCode_mono h.lower
  have high := Binary64.unitsOfCode_mono h.upper
  have top := unitsOfCode_paddedKey_max_lt time hk
  rw [hk] at low ⊢
  rw [Nat.mul_div_cancel _ Binary64.unitsPerOne_pos]
  exact Nat.div_eq_of_lt_le low (by omega)

/-- **Padding is cut off.**  A key gives back what the timestamp as a double gives back. -/
theorem keyTime_eq (h : IsKeyOf time key) : keyTime key = keyTime (.ofUInt64 time) := by
  have bare : (Binary64.ofUInt64 time).isNaN = false := by
    have := Binary64.code_ofUInt64_lt time
    simp [Binary64.isNaN]
    omega
  simp only [keyTime, Binary64.toUInt64, h.isNaN_eq_false, bare, h.notNegative,
    Binary64.negative_ofUInt64, Bool.or_self, Bool.false_eq_true, if_false, h.whole_eq]

end IsKeyOf

theorem keyTime_toNat {key : Binary64} (sign : key.negative = false) (number : key.isNaN = false) :
    (keyTime key).toNat = min (unitsOfCode key.code / unitsPerOne) 0xffffffffffffffff := by
  simp only [keyTime, Binary64.toUInt64, sign, number, Bool.or_self, Bool.false_eq_true, if_false]
  rw [UInt64.toNat_ofNat_of_lt']
  exact Nat.lt_of_le_of_lt (Nat.min_le_right _ _) (by decide)

/-- Up to 2⁵³ a timestamp is its own key. -/
theorem keyTime_ofUInt64 {time : UInt64} (h : time.toNat ≤ 0x20000000000000) :
    keyTime (.ofUInt64 time) = time := by
  have finite := Binary64.code_ofUInt64_lt time
  apply UInt64.toNat_inj.mp
  rw [keyTime_toNat (by simp) (by simp [Binary64.isNaN]; omega), Binary64.unitsOfCode_ofUInt64 h,
    Nat.mul_div_cancel _ Binary64.unitsPerOne_pos]
  omega

/-! ## Windows -/

theorem totalLe_iff_code_le {x y : Binary64} (hx : x.negative = false) (hy : y.negative = false) :
    x.totalLe y = true ↔ x.code ≤ y.code := by
  simp [Binary64.totalLe, Binary64.totalRank, hx, hy]

namespace Window

theorem contains_iff (window : Window) (key : Binary64) :
    window.contains key = true ↔ window.first ≤ keyTime key ∧ keyTime key ≤ window.last := by
  simp [contains]

end Window

/-- A timestamp whose double gives back a time up to `last` has a double up to that of `last`. -/
theorem code_ofUInt64_le_of_keyTime_le {time last : UInt64}
    (h : keyTime (.ofUInt64 time) ≤ last) :
    (Binary64.ofUInt64 time).code ≤ (Binary64.ofUInt64 last).code := by
  have finite := Binary64.code_ofUInt64_lt time
  rcases Nat.le_total time.toNat last.toNat with le | gt
  · exact Binary64.code_ofUInt64_mono (UInt64.le_iff_toNat_le.mpr le)
  · obtain ⟨k, hk⟩ := Binary64.unitsPerOne_dvd_ofUInt64 time
    rw [UInt64.le_iff_toNat_le, keyTime_toNat (by simp) (by simp [Binary64.isNaN]; omega), hk,
      Nat.mul_div_cancel_left _ Binary64.unitsPerOne_pos] at h
    by_cases saturated : 0xffffffffffffffff ≤ k
    · have := time.toNat_lt
      exact Binary64.code_ofUInt64_mono (UInt64.le_iff_toNat_le.mpr (by omega))
    · rw [Binary64.code_ofUInt64 last]
      apply Binary64.le_nearestCode finite
      rw [hk, Nat.mul_comm]
      exact Nat.mul_le_mul_right _ (by omega)

/-- **Windows miss no key.**  A key whose time lies in a window lies between the window's bounds. -/
theorem IsKeyOf.between {time : UInt64} {key : Binary64} (h : IsKeyOf time key) {window : Window}
    (inside : window.contains key = true) :
    window.lowerKey.totalLe key = true ∧ key.totalLe window.upperKey = true := by
  have finite := h.finite
  rw [Window.contains_iff] at inside
  obtain ⟨first, last⟩ := inside
  have upperSign : window.upperKey.negative = false := by
    show (paddedKey window.last maxPadding).negative = false
    rw [paddedKey_eq _ (by decide) (by decide), Binary64.negative_ofUnits]
  have lowerSign : window.lowerKey.negative = false := Binary64.negative_ofUInt64 _
  rw [totalLe_iff_code_le lowerSign h.notNegative, totalLe_iff_code_le h.notNegative upperSign]
  constructor
  · show (Binary64.ofUInt64 window.first).code ≤ key.code
    rw [UInt64.le_iff_toNat_le, keyTime_toNat h.notNegative h.isNaN_eq_false] at first
    rw [Binary64.code_ofUInt64, ← Binary64.nearestCode_unitsOfCode finite]
    apply Binary64.nearestCode_mono 1 (by decide)
    exact (Nat.le_div_iff_mul_le Binary64.unitsPerOne_pos).mp (by omega)
  · show key.code ≤ (paddedKey window.last maxPadding).code
    rw [h.keyTime_eq] at last
    refine Nat.le_trans h.upper ?_
    rw [code_paddedKey_max, code_paddedKey_max]
    apply Binary64.nearestCode_mono 1 (by decide)
    exact Nat.add_le_add_right
      (Binary64.unitsOfCode_mono (code_ofUInt64_le_of_keyTime_le last)) _

/-- Keys of later times are larger: time does not decrease along the total order. -/
theorem keyTime_mono {x y : Binary64} (hx : x.negative = false) (hy : y.negative = false)
    (nx : x.isNaN = false) (ny : y.isNaN = false) (h : x.totalLe y = true) :
    keyTime x ≤ keyTime y := by
  rw [totalLe_iff_code_le hx hy] at h
  rw [UInt64.le_iff_toNat_le, keyTime_toNat hx nx, keyTime_toNat hy ny]
  have := Nat.div_le_div_right (c := unitsPerOne) (Binary64.unitsOfCode_mono h)
  omega

/-- What is sorted by keys is sorted by time. -/
theorem pairwise_keyTime_mergeSort {α : Type} (key : α → Binary64) {as : List α}
    (keys : ∀ a ∈ as, ∃ time, IsKeyOf time (key a)) :
    (as.mergeSort fun a b => (key a).totalLe (key b)).Pairwise
      fun a b => keyTime (key a) ≤ keyTime (key b) := by
  have ordered : (as.mergeSort fun a b => (key a).totalLe (key b)).Pairwise
      fun a b => (key a).totalLe (key b) := by
    apply List.pairwise_mergeSort
    · intro a b c
      simp only [Binary64.totalLe, decide_eq_true_eq]
      omega
    · intro a b
      simp only [Binary64.totalLe, Bool.or_eq_true, decide_eq_true_eq]
      omega
  refine ordered.imp_of_mem fun {a b} ha hb hle => ?_
  obtain ⟨_, ka⟩ := keys a (List.mem_mergeSort.mp ha)
  obtain ⟨_, kb⟩ := keys b (List.mem_mergeSort.mp hb)
  exact keyTime_mono ka.notNegative kb.notNegative ka.isNaN_eq_false kb.isNaN_eq_false hle

end SeriesStorage

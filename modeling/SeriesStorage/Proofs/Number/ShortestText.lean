import Mathlib.Data.List.TakeWhile
import SeriesStorage.Number.Literal
import SeriesStorage.Number.Shortest
import SeriesStorage.Proofs.Number.Digits
import SeriesStorage.Proofs.Number.Nearest

/-!
# The shortest text is read back

Reading the text of a double gives the double back, or for any NaN the one NaN that texts can name
(`parse_toChars`).  The decimal of the text lies between the midpoints to the neighbours
(`roundsTo_shortest`), since already the finest grid has such a point (`gridPoint?_finest`).  The
digits of a whole number are read as the double nearest to it (`parse_natText`).
-/

namespace SeriesStorage

namespace Binary64

/-! ## Points that round to a code -/

theorem binaryScale_pos : 0 < binaryScale := by decide +kernel

theorem decimalScale_pos : 0 < decimalScale := by decide +kernel

theorem decimalScale_eq : decimalScale = 2 * unitsPerOne := by decide +kernel

theorem decimalScale_le : decimalScale ≤ binaryScale := by decide +kernel

theorem roundsTo_of_gridPoint? {code place d : Nat} (h : gridPoint? code place = some d) :
    roundsTo code (d * (decimalScale * Nat.pow 10 place)) = true := by
  unfold gridPoint? at h
  dsimp only at h
  split at h
  · next found =>
    obtain rfl := Option.some.inj h
    exact (Bool.and_eq_true_iff.mp found).1
  · split at h
    · next found =>
      obtain rfl := Option.some.inj h
      rwa [Nat.succ_mul]
    · cases h

/-- On a grid that is fine enough the point right below a number rounds to it. -/
theorem roundsTo_below {code step : Nat} (pos : 0 < code) (hstep : 0 < step)
    (fine : step ≤ binaryScale) :
    roundsTo code (2 * unitsOfCode code * binaryScale / step * step) = true := by
  have below := Nat.div_mul_le_self (2 * unitsOfCode code * binaryScale) step
  have near : 2 * unitsOfCode code * binaryScale <
      2 * unitsOfCode code * binaryScale / step * step + step := by
    have := Nat.div_add_mod (2 * unitsOfCode code * binaryScale) step
    have := Nat.mod_lt (2 * unitsOfCode code * binaryScale) hstep
    rw [Nat.mul_comm _ step]
    omega
  have lower : (unitsOfCode (code - 1) + unitsOfCode code) * binaryScale + binaryScale ≤
      2 * unitsOfCode code * binaryScale := by
    have := unitsOfCode_lt_succ (code - 1)
    rw [Nat.sub_add_cancel pos] at this
    rw [← Nat.succ_mul]
    exact Nat.mul_le_mul_right _ (by omega)
  have upper : 2 * unitsOfCode code * binaryScale + binaryScale ≤
      (unitsOfCode code + unitsOfCode (code + 1)) * binaryScale := by
    have := unitsOfCode_lt_succ code
    rw [← Nat.succ_mul]
    exact Nat.mul_le_mul_right _ (by omega)
  have scale := binaryScale_pos
  unfold roundsTo
  dsimp only
  split <;> simp only [Bool.and_eq_true, decide_eq_true_eq] <;> omega

/-- The finest grid has a point that rounds to a number. -/
theorem gridPoint?_finest {code : Nat} (pos : 0 < code) : ∃ d, gridPoint? code 0 = some d := by
  have finest : decimalScale * Nat.pow 10 0 = decimalScale := by
    rw [show Nat.pow 10 0 = 1 from rfl, Nat.mul_one]
  have inside := roundsTo_below pos decimalScale_pos decimalScale_le
  rw [← finest] at inside
  unfold gridPoint?
  dsimp only
  generalize decimalScale * Nat.pow 10 0 = step at inside ⊢
  generalize 2 * unitsOfCode code * binaryScale = value at inside ⊢
  split
  · exact ⟨_, rfl⟩
  · next other =>
    rw [inside, Bool.true_and, Bool.or_eq_true, not_or] at other
    rw [if_pos (by simpa using other.1)]
    exact ⟨_, rfl⟩

theorem roundsTo_coarsest {code : Nat} (pos : 0 < code) (place : Nat) :
    roundsTo code ((coarsest code place).1 * (decimalScale * Nat.pow 10 (coarsest code place).2)) =
      true := by
  induction place with
  | zero =>
    obtain ⟨d, hd⟩ := gridPoint?_finest pos
    simp only [coarsest, hd, Option.getD_some]
    exact roundsTo_of_gridPoint? hd
  | succ place ih =>
    cases found : gridPoint? code (place + 1) with
    | some d =>
      simp only [coarsest, found]
      exact roundsTo_of_gridPoint? found
    | none =>
      simp only [coarsest, found]
      exact ih

/-- **The shortest decimal rounds to its number.** -/
theorem roundsTo_shortest {code : Nat} (pos : 0 < code) :
    roundsTo code ((shortest code).1 * (decimalScale * Nat.pow 10 (shortest code).2)) = true :=
  roundsTo_coarsest pos _

/-- No code but that of zero is nearest to zero. -/
theorem not_roundsTo_zero {code : Nat} (pos : 0 < code) : roundsTo code 0 ≠ true := by
  have low : 0 < (unitsOfCode (code - 1) + unitsOfCode code) * binaryScale := by
    have := unitsOfCode_lt_succ (code - 1)
    rw [Nat.sub_add_cancel pos] at this
    exact Nat.mul_pos (by omega) binaryScale_pos
  intro rounds
  unfold roundsTo at rounds
  dsimp only at rounds
  split at rounds <;> simp only [Bool.and_eq_true, decide_eq_true_eq] at rounds <;> omega

theorem shortest_ne_zero {code : Nat} (pos : 0 < code) : (shortest code).1 ≠ 0 := by
  intro zero
  have rounds := roundsTo_shortest pos
  rw [zero, Nat.zero_mul] at rounds
  exact not_roundsTo_zero pos rounds

/-- A quotient that rounds to a code on the common scale has it as nearest code. -/
theorem nearestCode_of_roundsTo {code x num den scale : Nat} (rounds : roundsTo code x = true)
    (pos : 0 < code) (finite : code < infinityCode) (hden : 0 < den) (hscale : 0 < scale)
    (hnum : 2 * num * scale = x) (hunit : den * scale = binaryScale) :
    nearestCode num den = code := by
  subst hnum
  have widen : ∀ a, a * den * scale = a * binaryScale := fun a => by rw [Nat.mul_assoc, hunit]
  have parity : code % 2 = 0 ↔ (code - 1) % 2 ≠ 0 := by omega
  unfold roundsTo at rounds
  dsimp only at rounds
  refine nearestCode_eq hden finite (Or.inr ?_) ?_
  · unfold BelowMidpoint
    rw [Nat.sub_add_cancel pos]
    split at rounds <;> simp only [Bool.and_eq_true, decide_eq_true_eq, ← widen] at rounds
    · next even =>
      rw [if_neg (parity.mp even)]
      have := Nat.le_of_mul_le_mul_right rounds.1 hscale
      omega
    · next odd =>
      rw [if_pos (by omega)]
      have := Nat.lt_of_mul_lt_mul_right rounds.1
      omega
  · unfold BelowMidpoint
    split at rounds <;> simp only [Bool.and_eq_true, decide_eq_true_eq, ← widen] at rounds
    · next even =>
      rw [if_pos even]
      exact Nat.le_of_mul_le_mul_right rounds.2 hscale
    · next odd =>
      rw [if_neg odd]
      exact Nat.lt_of_mul_lt_mul_right rounds.2

/-! ## Reading positional texts -/

theorem decimal?_whole {whole : List Char} (hw : ∀ c ∈ whole, c.isDigit = true)
    (some_digit : whole ≠ []) : decimal? whole = some (Nat.ofDigitChars 10 whole 0, 0) := by
  have digits : whole.takeWhile Char.isDigit = whole :=
    List.takeWhile_eq_self_iff.mpr hw
  have rest : whole.dropWhile Char.isDigit = [] :=
    List.dropWhile_eq_nil_iff.mpr hw
  simp [decimal?, digits, rest, some_digit]

theorem decimal?_point {whole fraction : List Char} (hw : ∀ c ∈ whole, c.isDigit = true)
    (hf : ∀ c ∈ fraction, c.isDigit = true) (some_digit : whole ≠ []) :
    decimal? (whole ++ '.' :: fraction) =
      some (Nat.ofDigitChars 10 (whole ++ fraction) 0, -(fraction.length : Int)) := by
  have point : Char.isDigit '.' = false := by decide
  have digits : (whole ++ '.' :: fraction).takeWhile Char.isDigit = whole := by
    rw [List.takeWhile_append_of_pos hw]
    simp [point]
  have rest : (whole ++ '.' :: fraction).dropWhile Char.isDigit = '.' :: fraction := by
    rw [List.dropWhile_append_of_pos hw]
    simp [point]
  have digits' : fraction.takeWhile Char.isDigit = fraction :=
    List.takeWhile_eq_self_iff.mpr hf
  have rest' : fraction.dropWhile Char.isDigit = [] :=
    List.dropWhile_eq_nil_iff.mpr hf
  simp [decimal?, digits, rest, digits', rest', some_digit]

/-- A decimal on a coarse grid is read as a whole number. -/
theorem decimal?_positional_whole (digits : Nat) {place : Nat} (coarse : finestPlace ≤ place) :
    decimal? (positional digits place) =
      some (digits * Nat.pow 10 (place - finestPlace), 0) := by
  unfold positional
  dsimp only
  rw [if_pos coarse, decimal?_whole]
  · rw [Nat.ofDigitChars_append, Nat.ofDigitChars_ten_toDigits, Nat.ofDigitChars_replicate_zero,
      Nat.mul_comm]
    rfl
  · intro c hc
    rcases List.mem_append.mp hc with digit | zero
    · exact isDigit_of_mem digit
    · rw [(List.mem_replicate.mp zero).2]
      rfl
  · simp [Nat.toDigits_ne_nil]

/-- A decimal on a fine grid is read with its digits behind the point. -/
theorem decimal?_positional_point (digits : Nat) {place : Nat} (fine : place < finestPlace) :
    decimal? (positional digits place) = some (digits, -((finestPlace - place : Nat) : Int)) := by
  unfold positional
  dsimp only
  rw [if_neg (by omega)]
  have digit : ∀ c ∈ Nat.toDigits 10 digits, c.isDigit = true := fun c => isDigit_of_mem
  split
  · next inside =>
    rw [decimal?_point (fun c hc => digit c (List.mem_of_mem_take hc))
      (fun c hc => digit c (List.mem_of_mem_drop hc)), List.take_append_drop,
      Nat.ofDigitChars_ten_toDigits]
    · simp only [List.length_drop]
      congr 2
      omega
    · intro empty
      have := congrArg List.length empty
      rw [List.length_take] at this
      simp only [List.length_nil] at this
      omega
  · next outside =>
    rw [show '0' :: '.' ::
        (List.replicate (finestPlace - place - (Nat.toDigits 10 digits).length) '0' ++
          Nat.toDigits 10 digits) = ['0'] ++ '.' :: _ from rfl, decimal?_point]
    · rw [Nat.ofDigitChars_append, Nat.ofDigitChars_append, Nat.ofDigitChars_replicate_zero,
        show Nat.ofDigitChars 10 ['0'] 0 = 0 from rfl, Nat.mul_zero, Nat.ofDigitChars_ten_toDigits]
      simp only [List.length_append, List.length_replicate]
      congr 2
      omega
    · intro c hc
      rw [List.mem_singleton.mp hc]
      rfl
    · intro c hc
      rcases List.mem_append.mp hc with zero | inside
      · rw [(List.mem_replicate.mp zero).2]
        rfl
      · exact digit c inside
    · exact List.cons_ne_nil _ _

/-! ## Reading texts -/

/-- **The decimal of the shortest text has its number as nearest.** -/
theorem unsigned?_positional {code : Nat} (negative : Bool) (pos : 0 < code)
    (finite : code < infinityCode) :
    unsigned? negative (positional (shortest code).1 (shortest code).2) =
      some (ofCode negative code) := by
  have rounds := roundsTo_shortest pos
  have nonzero := shortest_ne_zero pos
  generalize shortest code = found at *
  obtain ⟨digits, place⟩ := found
  dsimp only at *
  unfold unsigned?
  rcases Nat.lt_or_ge place finestPlace with fine | coarse
  · have near : nearestCode (digits * unitsPerOne) (Nat.pow 10 (finestPlace - place)) = code := by
      refine nearestCode_of_roundsTo rounds pos finite (Nat.pow_pos (by decide))
        (Nat.pow_pos (n := place) (show 0 < 10 by decide)) ?_ ?_
      · rw [decimalScale_eq, Nat.mul_left_comm 2 digits, Nat.mul_assoc digits]
        rfl
      · unfold binaryScale
        generalize finestPlace = finest at fine ⊢
        simp only [Nat.pow_eq]
        rw [← Nat.pow_add, Nat.sub_add_cancel (Nat.le_of_lt fine)]
    have bound : finestPlace = 324 := rfl
    rw [decimal?_positional_point digits fine]
    dsimp only
    unfold ofDecimal
    rw [if_neg nonzero, if_neg (by omega), if_neg (by omega), if_neg (by omega)]
    unfold ofUnits
    rw [Int.neg_neg, Int.toNat_natCast, near]
  · have near : nearestCode (digits * Nat.pow 10 (place - finestPlace) * unitsPerOne) 1 = code := by
      refine nearestCode_of_roundsTo rounds pos finite Nat.one_pos binaryScale_pos ?_
        (Nat.one_mul _)
      have split : Nat.pow 10 place = Nat.pow 10 (place - finestPlace) * binaryScale := by
        unfold binaryScale
        generalize finestPlace = finest at coarse ⊢
        simp only [Nat.pow_eq]
        rw [← Nat.pow_add, Nat.sub_add_cancel coarse]
      rw [split, decimalScale_eq]
      generalize Nat.pow 10 (place - finestPlace) = power
      generalize unitsPerOne = unit
      generalize binaryScale = scale
      simp only [Nat.mul_assoc, Nat.mul_left_comm, Nat.mul_comm]
    rw [decimal?_positional_whole digits coarse]
    dsimp only
    have nonzero' : digits * Nat.pow 10 (place - finestPlace) ≠ 0 :=
      Nat.mul_ne_zero nonzero (Nat.pow_pos (by decide)).ne'
    unfold ofDecimal
    rw [if_neg nonzero', if_neg (by omega), if_neg (by omega), if_pos (by omega)]
    unfold ofUnits
    rw [show Nat.pow 10 (0 : Int).toNat = 1 from rfl, Nat.mul_one, near]

/-- A text with a sign in front is none without its sign. -/
theorem unsigned?_sign {c : Char} (h : c = '-' ∨ c = '+') (sign : Bool) (rest : List Char) :
    unsigned? sign (c :: rest) = none := by
  have digits : decimal? (c :: rest) = none := by rcases h with rfl | rfl <;> rfl
  have letter : c.toLower = c ∧ c ≠ 'i' ∧ c ≠ 'n' := by rcases h with rfl | rfl <;> decide
  simp [unsigned?, digits, letter]

/-- The NaN that texts can name stands for all of them. -/
def canonical (x : Binary64) : Binary64 := if x.isNaN then nan else x

theorem canonical_canonical (x : Binary64) : x.canonical.canonical = x.canonical := by
  unfold canonical
  cases number : x.isNaN with
  | true => rfl
  | false => simp [number]

/-- **Numbers are read back from their texts.** -/
theorem parse_toChars (x : Binary64) : parse x.toChars = .ok x.canonical := by
  unfold toChars canonical
  cases number : x.isNaN with
  | true => rfl
  | false =>
    have same := ofCode_negative_code x
    have magnitude : ∀ sign, unsigned? sign
        (if x.isInfinite then ['i', 'n', 'f']
          else if x.code = 0 then ['0']
          else positional (shortest x.code).1 (shortest x.code).2) = some (ofCode sign x.code) := by
      intro sign
      have small : x.code ≤ infinityCode := by simpa [isNaN] using number
      split
      · next infinite =>
        rw [show x.code = infinityCode by simpa [isInfinite] using infinite]
        cases sign <;> rfl
      · next other =>
        have finite : x.code < infinityCode :=
          Nat.lt_of_le_of_ne small (by simpa [isInfinite] using other)
        split
        · next zero =>
          rw [zero]
          cases sign <;> rfl
        · next nonzero => exact unsigned?_positional sign (Nat.pos_of_ne_zero nonzero) finite
    generalize (if x.isInfinite then ['i', 'n', 'f']
      else if x.code = 0 then ['0']
      else positional (shortest x.code).1 (shortest x.code).2) = text at magnitude
    dsimp only
    simp only [Bool.false_eq_true, if_false]
    cases sign : x.negative with
    | true =>
      rw [sign] at same
      simp only [parse, if_true, magnitude, same]
    | false =>
      rw [sign] at same
      simp only [Bool.false_eq_true, if_false]
      have read := magnitude false
      unfold parse
      split
      · rw [unsigned?_sign (Or.inl rfl)] at read
        cases read
      · rw [unsigned?_sign (Or.inr rfl)] at read
        cases read
      · simp only [read, same]

/-- A whole number is read as the number nearest to it. -/
theorem parse_natText (n : Nat) : parse (toString n).toList = .ok (ofNat n) := by
  have digits : decimal? (Nat.toDigits 10 n) = some (n, 0) := by
    rw [decimal?_whole (fun c => isDigit_of_mem) Nat.toDigits_ne_nil, Nat.ofDigitChars_ten_toDigits]
  have whole : ofDecimal false n 0 = ofNat n := by
    unfold ofDecimal
    split
    · next zero =>
      have code : nearestCode 0 1 = 0 := nearestCode_unitsOfCode (c := 0) (by decide)
      rw [zero, ofNat, ofUnits, Nat.zero_mul, code]
    · rw [if_neg (by decide), if_neg (by omega), if_pos (by decide),
        show Nat.pow 10 (0 : Int).toNat = 1 from rfl, Nat.mul_one]
      rfl
  rw [toList_natText]
  unfold parse
  split
  · next rest sign => exact absurd sign (toDigits_ne_cons (by decide) rest)
  · next rest sign => exact absurd sign (toDigits_ne_cons (by decide) rest)
  · simp only [unsigned?, digits, whole]

/-! ## Characters of texts -/

theorem mem_positional {digits place : Nat} {c : Char} (h : c ∈ positional digits place) :
    c.isDigit = true ∨ c = '.' := by
  have digit : ∀ {c}, c ∈ Nat.toDigits 10 digits → c.isDigit = true := isDigit_of_mem
  have zero : ∀ {n c}, c ∈ List.replicate n '0' → c.isDigit = true := fun m => by
    rw [(List.mem_replicate.mp m).2]
    rfl
  unfold positional at h
  dsimp only at h
  split at h
  · exact Or.inl ((List.mem_append.mp h).elim digit zero)
  · split at h
    · rcases List.mem_append.mp h with whole | rest
      · exact Or.inl (digit (List.mem_of_mem_take whole))
      · rcases List.mem_cons.mp rest with point | fraction
        · exact Or.inr point
        · exact Or.inl (digit (List.mem_of_mem_drop fraction))
    · rcases List.mem_cons.mp h with rfl | rest
      · exact Or.inl rfl
      · rcases List.mem_cons.mp rest with point | fraction
        · exact Or.inr point
        · exact Or.inl ((List.mem_append.mp fraction).elim zero digit)

/-- No text of a number has a colon. -/
theorem colon_not_mem_toChars (x : Binary64) : ':' ∉ x.toChars := by
  have magnitude : ':' ∉ (if x.isInfinite then ['i', 'n', 'f']
      else if x.code = 0 then ['0']
      else positional (shortest x.code).1 (shortest x.code).2) := by
    split
    · decide
    · split
      · decide
      · intro h
        rcases mem_positional h with digit | point
        · cases digit
        · cases point
  unfold toChars
  dsimp only
  split
  · decide
  · split
    · rw [List.mem_cons, not_or]
      exact ⟨by decide, magnitude⟩
    · exact magnitude

end Binary64

end SeriesStorage

import SeriesStorage.Proofs.Point.StoredPoints

/-!
# The search for a free place

The search for a place of a point tries the drawn paddings and then scans the scores from the
timestamp up to the timestamp plus 0.1, which is a loop that ends when a comparison of doubles fails
(`Placement`, `Scan`).  It does end, with the answer of `uniquePoint` (`placement_iff`), since every
step raises the code of the score by one (`scan_firstFree`).

A scan that refuses the point has tried all scores from its first one to the limit
(`Scan.complete`).  Between 2⁴⁹ and 2⁵⁰ the timestamp plus 0.1 is the timestamp plus an eighth, and
from 2⁵⁰ on it is the timestamp itself, so that the scan tries nothing; then the drawn keys are the
timestamp themselves.  `uniquePoint_search` says what the whole search answers.
-/

namespace SeriesStorage

namespace Binary64

theorem code_lt_of_valueLt {x y : Binary64} (hx : x.negative = false) (hy : y.negative = false)
    (h : x.valueLt y = true) : x.code < y.code := by
  have ranks := of_decide_eq_true (Bool.and_eq_true_iff.mp h).2
  simp only [totalRank, hx, hy, Bool.false_eq_true, if_false] at ranks
  omega

/-- Finite numbers that are not negative compare as their codes. -/
theorem valueLt_of_code_lt {x y : Binary64} (hx : x.negative = false) (hy : y.negative = false)
    (finite : y.code < infinityCode) (h : x.code < y.code) : x.valueLt y = true := by
  have nx : x.isNaN = false := decide_eq_false (by omega)
  have ny : y.isNaN = false := decide_eq_false (by omega)
  have bits : x.bits ≠ y.bits := by
    intro same
    rw [show x = y from congrArg mk same] at h
    exact Nat.lt_irrefl _ h
  have apart : x.valueEq y = false := by
    simp [valueEq, bits]
    omega
  simpa [valueLt, nx, ny, apart, totalRank, hx, hy] using h

/-- What stands above a number that is not negative is not negative either. -/
theorem negative_of_totalLe {x y : Binary64} (hx : x.negative = false) (h : x.totalLe y = true) :
    y.negative = false := by
  cases sign : y.negative with
  | false => rfl
  | true =>
    simp [totalLe, totalRank, hx, sign] at h
    omega

theorem eq_of_code_eq {x y : Binary64} (hx : x.negative = false) (hy : y.negative = false)
    (h : x.code = y.code) : x = y :=
  totalRank_injective (by simp [totalRank, hx, hy, h])

end Binary64

theorem negative_paddedKey_max (time : UInt64) : (paddedKey time maxPadding).negative = false := by
  rw [paddedKey_eq time (by decide) (by decide), Binary64.negative_ofUnits]

theorem code_ofUInt64_le_max (time : UInt64) :
    (Binary64.ofUInt64 time).code ≤ (paddedKey time maxPadding).code :=
  have lowest := isKeyOf_paddedKey time .zero
  Nat.le_trans lowest.lower lowest.upper

namespace Remote

/-! ## Scans -/

/-- The scan of the scores of a timestamp from a score on: below the timestamp plus 0.1 it stops at
a free place and otherwise steps to the next score, and there it refuses the point. -/
inductive Scan (taken : Taken) (time : UInt64) (value : Binary64) :
    Binary64 → Except Error StoredPoint → Prop
  | found {score : Binary64} (below : score.valueLt (paddedKey time maxPadding) = true)
      (free : isFree taken (encodeScored time score value) = true) :
      Scan taken time value score (.ok (encodeScored time score value))
  | next {score : Binary64} {answer : Except Error StoredPoint}
      (below : score.valueLt (paddedKey time maxPadding) = true)
      (occupied : isFree taken (encodeScored time score value) = false)
      (rest : Scan taken time value score.next answer) : Scan taken time value score answer
  | ended {score : Binary64} (beyond : score.valueLt (paddedKey time maxPadding) = false) :
      Scan taken time value score (.error (.keySpaceExhausted time))

section
variable {taken : Taken} {time : UInt64} {value : Binary64}

/-- A scan has at most one answer. -/
theorem Scan.unique {score : Binary64} {a b : Except Error StoredPoint}
    (ha : Scan taken time value score a) (hb : Scan taken time value score b) : a = b := by
  induction ha with
  | found below free =>
    cases hb with
    | found => rfl
    | next _ occupied => rw [free] at occupied; cases occupied
    | ended beyond => rw [below] at beyond; cases beyond
  | next below occupied _ ih =>
    cases hb with
    | found _ free => rw [free] at occupied; cases occupied
    | next _ _ rest => exact ih rest
    | ended beyond => rw [below] at beyond; cases beyond
  | ended beyond =>
    cases hb with
    | found below => rw [below] at beyond; cases beyond
    | next below => rw [below] at beyond; cases beyond
    | ended => rfl

theorem mem_of_isFree_eq_false {p : StoredPoint} (h : isFree taken p = false) :
    placeOf p ∈ taken := by
  refine not_not.mp fun free => ?_
  rw [isFree_iff.mpr free] at h
  cases h

/-- **A scan that refuses the point has tried all scores** from the first one to the limit. -/
theorem Scan.complete {score : Binary64} {answer : Except Error StoredPoint}
    (scan : Scan taken time value score answer) (sign : score.negative = false) {e : Error}
    (refused : answer = .error e) :
    e = .keySpaceExhausted time ∧ ∀ s : Binary64, score.totalLe s = true →
      s.valueLt (paddedKey time maxPadding) = true →
        placeOf (encodeScored time s value) ∈ taken := by
  have limit := negative_paddedKey_max time
  have finite := code_paddedKey_max_lt time
  induction scan with
  | found => cases refused
  | @next score _ below occupied _ ih =>
    have low := Binary64.code_lt_of_valueLt sign limit below
    obtain ⟨nextSign, nextCode⟩ := code_next sign (by omega)
    obtain ⟨rfl, later⟩ := ih nextSign refused
    refine ⟨rfl, fun s hs inside => ?_⟩
    have sSign := Binary64.negative_of_totalLe sign hs
    have codes := (totalLe_iff_code_le sign sSign).mp hs
    -- the score is the one that the scan is at, or lies behind it
    rcases Nat.eq_or_lt_of_le codes with same | behind
    · rw [← Binary64.eq_of_code_eq sign sSign same]
      exact mem_of_isFree_eq_false occupied
    · exact later s ((totalLe_iff_code_le nextSign sSign).mpr (by omega)) inside
  | @ended score beyond =>
    refine ⟨(Except.error.inj refused).symm, fun s hs inside => ?_⟩
    have sSign := Binary64.negative_of_totalLe sign hs
    have codes := (totalLe_iff_code_le sign sSign).mp hs
    have := Binary64.code_lt_of_valueLt sSign limit inside
    rw [Binary64.valueLt_of_code_lt sign limit finite (by omega)] at beyond
    cases beyond

/-- A scan ends, as it comes to the limit by steps of one code. -/
theorem scan_firstFree {n : Nat} {score : Binary64} (sign : score.negative = false)
    (steps : score.code + n = (paddedKey time maxPadding).code) :
    Scan taken time value score
      (match firstFree taken time value n score with
        | some p => .ok p
        | none => .error (.keySpaceExhausted time)) := by
  have limit := negative_paddedKey_max time
  have finite := code_paddedKey_max_lt time
  induction n generalizing score with
  | zero =>
    refine .ended (Bool.eq_false_iff.mpr fun below => ?_)
    have := Binary64.code_lt_of_valueLt sign limit below
    omega
  | succ n ih =>
    have below := Binary64.valueLt_of_code_lt sign limit finite (by omega)
    obtain ⟨nextSign, nextCode⟩ := code_next sign (by omega)
    unfold firstFree
    dsimp only
    cases free : isFree taken (encodeScored time score value) with
    | true => exact .found below free
    | false => exact .next below free (ih nextSign (by omega))

/-! ## The whole search -/

/-- The search from an attempt on: as long as attempts are left it tries the drawn padding, and then
it scans the scores from the timestamp on. -/
inductive Placement (taken : Taken) (draw : Nat → Padding) (time : UInt64) (value : Binary64) :
    Nat → Except Error StoredPoint → Prop
  | drawn {k : Nat} (left : k < paddingAttempts)
      (free : isFree taken (encode time value (draw k).value) = true) :
      Placement taken draw time value k (.ok (encode time value (draw k).value))
  | again {k : Nat} {answer : Except Error StoredPoint} (left : k < paddingAttempts)
      (occupied : isFree taken (encode time value (draw k).value) = false)
      (rest : Placement taken draw time value (k + 1) answer) :
      Placement taken draw time value k answer
  | scanned {answer : Except Error StoredPoint}
      (scan : Scan taken time value (.ofUInt64 time) answer) :
      Placement taken draw time value paddingAttempts answer

variable {draw : Nat → Padding}

/-- A search has at most one answer. -/
theorem Placement.unique {k : Nat} {a b : Except Error StoredPoint}
    (ha : Placement taken draw time value k a) (hb : Placement taken draw time value k b) :
    a = b := by
  induction ha with
  | drawn left free =>
    cases hb with
    | drawn => rfl
    | again _ occupied => rw [free] at occupied; cases occupied
    | scanned => exact absurd left (Nat.lt_irrefl _)
  | again left occupied _ ih =>
    cases hb with
    | drawn _ free => rw [free] at occupied; cases occupied
    | again _ _ rest => exact ih rest
    | scanned => exact absurd left (Nat.lt_irrefl _)
  | scanned scan =>
    cases hb with
    | drawn left => exact absurd left (Nat.lt_irrefl _)
    | again left => exact absurd left (Nat.lt_irrefl _)
    | scanned scan' => exact scan.unique scan'

/-- A search tries the attempts that are left and scans if none of them gives a free place. -/
theorem placement_find? {answer : Except Error StoredPoint}
    (scan : Scan taken time value (.ofUInt64 time) answer) (n : Nat) {k : Nat}
    (left : k + n = paddingAttempts) :
    Placement taken draw time value k
      (match ((List.range' k n).map fun k => encode time value (draw k).value).find?
          (isFree taken) with
        | some p => .ok p
        | none => answer) := by
  induction n generalizing k with
  | zero =>
    obtain rfl : k = paddingAttempts := left
    exact .scanned scan
  | succ n ih =>
    rw [List.range'_succ, List.map_cons]
    cases free : isFree taken (encode time value (draw k).value) with
    | true =>
      rw [List.find?_cons_of_pos free]
      exact .drawn (by omega) free
    | false =>
      rw [List.find?_cons_of_neg (by rw [free]; exact Bool.false_ne_true)]
      exact .again (by omega) free (ih (by omega))

/-- **The search ends, with one answer.** -/
theorem placement_iff {answer : Except Error StoredPoint} :
    Placement taken draw time value 0 answer ↔ answer = uniquePoint taken draw time value := by
  have above := code_ofUInt64_le_max time
  have scan := @scan_firstFree taken time value (scoreCount time) (.ofUInt64 time)
    (Binary64.negative_ofUInt64 time) (by unfold scoreCount; omega)
  have search := @placement_find? taken time value draw _ scan paddingAttempts 0 (Nat.zero_add _)
  rw [← List.range_eq_range'] at search
  have same : Placement taken draw time value 0 (uniquePoint taken draw time value) := by
    unfold uniquePoint
    dsimp only
    generalize firstFree taken time value (scoreCount time) (.ofUInt64 time) = free at search ⊢
    generalize List.find? _ _ = drawn at search ⊢
    cases drawn <;> cases free <;> exact search
  constructor
  · exact fun other => other.unique same
  · rintro rfl
    exact same

/-- A place that the search refuses to find is none of a drawn padding. -/
theorem Placement.occupied {k : Nat} {answer : Except Error StoredPoint}
    (search : Placement taken draw time value k answer) {e : Error} (refused : answer = .error e) :
    (∀ i, k ≤ i → i < paddingAttempts → isFree taken (encode time value (draw i).value) = false) ∧
      Scan taken time value (.ofUInt64 time) (.error e) := by
  induction search with
  | drawn => cases refused
  | @again k _ left occupied _ ih =>
    obtain ⟨later, scan⟩ := ih refused
    refine ⟨fun i hk hi => ?_, scan⟩
    rcases Nat.eq_or_lt_of_le hk with rfl | behind
    · exact occupied
    · exact later i behind hi
  | scanned scan =>
    refine ⟨fun i hk hi => absurd (Nat.lt_of_le_of_lt hk hi) (Nat.lt_irrefl _), ?_⟩
    rw [← refused]
    exact scan

end

/-- **The search for a free place** ends with one answer.  A point that it answers with has the
bucket of the timestamp, a place that is free, and a score from the timestamp up to the timestamp
plus 0.1.  It refuses a point only if the timestamp itself and every score below the timestamp plus
0.1 give places that are taken.  Scores are compared in the total order, in which −0, which is no
score of any timestamp, lies below all of them. -/
theorem uniquePoint_search (taken : Taken) (draw : Nat → Padding) (time : UInt64)
    (value : Binary64) :
    (∀ answer, Placement taken draw time value 0 answer ↔
        answer = uniquePoint taken draw time value) ∧
      (∀ p, uniquePoint taken draw time value = .ok p →
        p.bucket = bucketOf time ∧ placeOf p ∉ taken ∧ p = encodeScored time p.score value ∧
          (Binary64.ofUInt64 time).totalLe p.score = true ∧
          p.score.totalLe (paddedKey time maxPadding) = true) ∧
      (∀ e, uniquePoint taken draw time value = .error e →
        e = .keySpaceExhausted time ∧
          placeOf (encodeScored time (.ofUInt64 time) value) ∈ taken ∧
          ∀ score : Binary64, (Binary64.ofUInt64 time).totalLe score = true →
            score.valueLt (paddedKey time maxPadding) = true →
            placeOf (encodeScored time score value) ∈ taken) := by
  have start := Binary64.negative_ofUInt64 time
  have limit := negative_paddedKey_max time
  refine ⟨fun answer => placement_iff, fun p answered => ?_, fun e refused => ?_⟩
  · obtain ⟨q, found, ⟨score, key, rfl⟩, free⟩ | refused := uniquePoint_spec taken draw time value
    · obtain rfl := Except.ok.inj (found.symm.trans answered)
      exact ⟨rfl, free, rfl, (totalLe_iff_code_le start key.notNegative).mpr key.lower,
        (totalLe_iff_code_le key.notNegative limit).mpr key.upper⟩
    · rw [refused] at answered
      cases answered
  · have search : Placement taken draw time value 0 _ := placement_iff.mpr rfl
    obtain ⟨occupied, scan⟩ := search.occupied refused
    obtain ⟨rfl, tried⟩ := scan.complete start rfl
    refine ⟨rfl, ?_, tried⟩
    rcases Nat.eq_or_lt_of_le (code_ofUInt64_le_max time) with same | room
    · -- the scan tries nothing, and the first padding drawn has been rounded away
      have key := isKeyOf_paddedKey time (draw 0)
      have codes : (paddedKey time (draw 0).value).code = (Binary64.ofUInt64 time).code :=
        Nat.le_antisymm (Nat.le_trans key.upper (Nat.le_of_eq same.symm)) key.lower
      have drawn := occupied 0 (Nat.le_refl _) (by decide)
      unfold encode at drawn
      rw [Binary64.eq_of_code_eq key.notNegative start codes] at drawn
      exact mem_of_isFree_eq_false drawn
    · exact tried _ ((totalLe_iff_code_le start start).mpr (Nat.le_refl _))
        (Binary64.valueLt_of_code_lt start limit (code_paddedKey_max_lt time) room)

/-- A timestamp with two scores: a second point of a value is stored under the second one, and a
third is refused. -/
theorem uniquePoint_search_two_scores :
    let time : UInt64 := 0x1000000000001
    let first := encodeScored time (.ofUInt64 time) .zero
    let second := encodeScored time (Binary64.ofUInt64 time).next .zero
    uniquePoint [placeOf first] (fun _ => .zero) time .zero = .ok second ∧
      placeOf second ∉ [placeOf first] ∧
      uniquePoint [placeOf first, placeOf second] (fun _ => .zero) time .zero =
        .error (.keySpaceExhausted time) ∧
      placeOf second ∈ [placeOf first, placeOf second] := by
  intro time first second
  have found : uniquePoint [placeOf first] (fun _ => .zero) time .zero = .ok second := by
    decide +kernel
  have refused : uniquePoint [placeOf first, placeOf second] (fun _ => .zero) time .zero =
      .error (.keySpaceExhausted time) := by decide +kernel
  refine ⟨found, ?_, refused, ?_⟩
  · exact ((uniquePoint_search [placeOf first] (fun _ => .zero) time .zero).2.1 second found).2.1
  · exact ((uniquePoint_search [placeOf first, placeOf second] (fun _ => .zero) time .zero).2.2 _
      refused).2.2 (Binary64.ofUInt64 time).next (by decide +kernel) (by decide +kernel)

end Remote

end SeriesStorage

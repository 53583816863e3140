import SeriesStorage.Proofs.Point.DistinctMembers
import SeriesStorage.Proofs.Point.FreePlaces
import SeriesStorage.Proofs.Remote.StoringPoints

/-!
# Points that share a member

Up to 2⁵³ a timestamp is its own double, so that members of a bucket tell it exactly.  A scored
point (`ScoredPoint`) has such a timestamp and any score from it up to it plus 0.1, as doubles
compare: among these is −0, for the timestamp 0.

* `ScoredPoint.alike_of_member`: points of a bucket that share a member have the same timestamp and
  the same value, and their scores are at most a millionth apart (`Alike`).
* `ScoredPoint.execAll_addPoints`: so whatever is added to the set of a bucket, a member that is
  there goes on standing for its point.
-/

namespace SeriesStorage

open Binary64 (unitsOfCode unitsPerOne fixedSteps infinityCode)

/-! ## Comparison of doubles -/

namespace Binary64

/-- `x ≤ y` as values; false if one is a NaN. -/
def valueLe (x y : Binary64) : Bool := x.valueLt y || x.valueEq y

/-- Two numbers are the same bit for bit, or both are NaNs. -/
def Same (x y : Binary64) : Prop := x = y ∨ (x.isNaN = true ∧ y.isNaN = true)

theorem same_of_canonical_eq {x y : Binary64} (h : x.canonical = y.canonical) : x.Same y := by
  have quiet : nan.isNaN = true := by decide
  unfold canonical at h
  split at h <;> split at h
  · next hx hy => exact Or.inr ⟨hx, hy⟩
  · next hy => rw [← h] at hy; exact absurd quiet hy
  · next hx _ => rw [h] at hx; exact absurd quiet hx
  · exact Or.inl h

/-- The number −0. -/
def negativeZero : Binary64 := ofCode true 0

/-- What is at least a number that is not negative is not negative, or both are zero. -/
theorem valueLe_cases {x y : Binary64} (hx : x.negative = false) (h : x.valueLe y = true) :
    (y.negative = false ∧ x.code ≤ y.code) ∨ (x.code = 0 ∧ y = negativeZero) := by
  rcases Bool.or_eq_true_iff.mp h with less | equal
  · have ranks := of_decide_eq_true (Bool.and_eq_true_iff.mp less).2
    have sign := negative_of_totalLe hx (decide_eq_true (Int.le_of_lt ranks))
    exact Or.inl ⟨sign, Nat.le_of_lt (code_lt_of_valueLt hx sign less)⟩
  · rcases Bool.or_eq_true_iff.mp (Bool.and_eq_true_iff.mp equal).2 with bits | zeros
    · obtain rfl : x = y := congrArg mk (eq_of_beq bits)
      exact Or.inl ⟨hx, Nat.le_refl _⟩
    · obtain ⟨zero, zero'⟩ := Bool.and_eq_true_iff.mp zeros
      cases sign : y.negative with
      | false => exact Or.inl ⟨rfl, by rw [eq_of_beq zero]; exact Nat.zero_le _⟩
      | true =>
        refine Or.inr ⟨eq_of_beq zero, ?_⟩
        rw [← ofCode_negative_code y, sign, eq_of_beq zero', negativeZero]

theorem code_le_of_valueLe {x y : Binary64} (hx : x.negative = false) (h : x.valueLe y = true) :
    x.code ≤ y.code := by
  rcases valueLe_cases hx h with ⟨_, codes⟩ | ⟨zero, _⟩
  · exact codes
  · rw [zero]
    exact Nat.zero_le _

/-! ## Decimals -/

theorem ofDigitChars_padded (width n : Nat) : Nat.ofDigitChars 10 (padded width n) 0 = n := by
  rw [padded, Nat.ofDigitChars_append, Nat.ofDigitChars_replicate_zero, Nat.mul_zero,
    Nat.ofDigitChars_ten_toDigits]

/-- A number lies less than a millionth above another one with the same six decimals. -/
theorem le_of_fixedSteps_eq {c c' : Nat} (h : fixedSteps 6 c = fixedSteps 6 c') :
    unitsOfCode c * 1000000 ≤ unitsOfCode c' * 1000000 + unitsPerOne := by
  have lower : 2 * (unitsOfCode c * 1000000) ≤ 2 * (fixedSteps 6 c * unitsPerOne) + unitsPerOne :=
    roundHalfEven_lower _ unitsPerOne_pos
  have upper : 2 * (fixedSteps 6 c' * unitsPerOne) ≤
      2 * (unitsOfCode c' * 1000000) + unitsPerOne := roundHalfEven_upper _ unitsPerOne_pos
  rw [h] at lower
  omega

/-- Numbers with the same six decimals are at most a millionth apart. -/
theorem natAbs_le_of_fixedSteps_eq {c c' : Nat} (h : fixedSteps 6 c = fixedSteps 6 c') :
    ((unitsOfCode c : Int) - unitsOfCode c').natAbs * 1000000 ≤ unitsPerOne := by
  have above := le_of_fixedSteps_eq h
  have below := le_of_fixedSteps_eq h.symm
  have size : ((unitsOfCode c : Int) - unitsOfCode c').natAbs =
      (unitsOfCode c - unitsOfCode c') + (unitsOfCode c' - unitsOfCode c) := by omega
  rw [size, Nat.add_mul, Nat.sub_mul, Nat.sub_mul]
  omega

end Binary64

namespace IsKeyOf

variable {time time' : UInt64} {score score' : Binary64}

/-- The text of a key tells its six decimals, the whole part included. -/
theorem fixedSteps_eq (key : IsKeyOf time score) (key' : IsKeyOf time' score')
    (same : score.toFixedChars 6 = score'.toFixedChars 6) :
    fixedSteps 6 score.code = fixedSteps 6 score'.code := by
  have whole := wholeOf_eq_of_toFixedChars key key' same
  have upper := key.fixedSteps_div (unitsOfCode_eq_whole time)
  have upper' := key'.fixedSteps_div (unitsOfCode_eq_whole time')
  rw [key.toFixedChars, key'.toFixedChars, whole] at same
  have decimals := (List.cons.inj (List.append_cancel_left same)).2
  have lower := congrArg (Nat.ofDigitChars 10 · 0) decimals
  simp only [Binary64.ofDigitChars_padded] at lower
  omega

theorem units_eq (key : IsKeyOf time score) : score.units = unitsOfCode score.code := by
  rw [Binary64.units, key.notNegative]
  rfl

/-- The text of a key has no sign. -/
theorem minus_not_mem (key : IsKeyOf time score) (bucket : UInt64) :
    '-' ∉ scoreSuffix bucket score := by
  intro inside
  have kept := List.mem_of_mem_drop inside
  have plain : ∀ n, '-' ∉ Nat.toDigits 10 n := fun n digit =>
    absurd (isDigit_of_mem digit) (by decide)
  rw [key.toFixedChars, List.mem_append, List.mem_cons] at kept
  rcases kept with whole | point | decimals
  · exact plain _ whole
  · exact absurd point (by decide)
  · rcases List.mem_append.mp decimals with zeros | digits
    · exact absurd (List.eq_of_mem_replicate zeros) (by decide)
    · exact plain _ digits

end IsKeyOf

/-! ## Scored points -/

/-- A point with a timestamp up to 2⁵³, and a score from the timestamp up to the timestamp plus 0.1,
where the sum is rounded as doubles are. -/
structure ScoredPoint where
  time : UInt64
  score : Binary64
  value : Binary64
  exact : time.toNat ≤ 0x20000000000000
  lower : (Binary64.ofUInt64 time).valueLe score = true
  upper : score.valueLe (paddedKey time maxPadding) = true

namespace ScoredPoint

/-- The stored form of a scored point. -/
def stored (p : ScoredPoint) : StoredPoint := encodeScored p.time p.score p.value

/-- The same timestamp and the same value, and scores whose difference, without rounding, is at most
a millionth. -/
structure Alike (p q : ScoredPoint) : Prop where
  time : p.time = q.time
  value : p.value.Same q.value
  score : (p.score.units - q.score.units).natAbs * 1000000 ≤ unitsPerOne

variable {p q : ScoredPoint}

/-- The score is a key of the timestamp, or the timestamp is 0 and the score is −0. -/
theorem key_or_negativeZero (p : ScoredPoint) :
    IsKeyOf p.time p.score ∨ (p.time = 0 ∧ p.score = Binary64.negativeZero) := by
  rcases Binary64.valueLe_cases (Binary64.negative_ofUInt64 p.time) p.lower with
    ⟨sign, low⟩ | ⟨zero, minus⟩
  · have high := Binary64.code_le_of_valueLe sign p.upper
    exact Or.inl ⟨sign, low, high⟩
  · refine Or.inr ⟨?_, minus⟩
    have units := Binary64.unitsOfCode_ofUInt64 p.exact
    rw [zero, show unitsOfCode 0 = 0 from rfl] at units
    rcases Nat.mul_eq_zero.mp units.symm with none | one
    · exact UInt64.toNat_inj.mp none
    · exact absurd one (Nat.ne_of_gt Binary64.unitsPerOne_pos)

theorem scoreSuffix_negativeZero :
    scoreSuffix (bucketOf 0) Binary64.negativeZero = "-0.000000".toList := by decide +kernel

/-- A score of −0 shares its text with no key. -/
theorem suffix_ne_of_negativeZero {time time' : UInt64} {score : Binary64}
    (key : IsKeyOf time score) (zero : time' = 0) :
    scoreSuffix (bucketOf time) score ≠ scoreSuffix (bucketOf time') Binary64.negativeZero := by
  intro same
  have sign := key.minus_not_mem (bucketOf time)
  rw [same, zero, scoreSuffix_negativeZero] at sign
  exact sign (by decide)

/-- Points of a bucket with the same member are alike. -/
theorem alike_of_member (bucket : bucketOf p.time = bucketOf q.time)
    (same : p.stored.member = q.stored.member) : p.Alike q := by
  obtain ⟨values, suffixes⟩ := member_parts same
  have value := Binary64.same_of_canonical_eq values
  rcases p.key_or_negativeZero with key | ⟨zero, minus⟩ <;>
    rcases q.key_or_negativeZero with key' | ⟨zero', minus'⟩
  · have texts := toFixedChars_of_scoreSuffix key key' bucket suffixes
    have time := wholeOf_eq_of_toFixedChars key key' texts
    rw [wholeOf_of_le p.exact, wholeOf_of_le q.exact] at time
    have steps := key.fixedSteps_eq key' texts
    refine ⟨UInt64.toNat_inj.mp time, value, ?_⟩
    rw [key.units_eq, key'.units_eq]
    exact Binary64.natAbs_le_of_fixedSteps_eq steps
  · rw [minus'] at suffixes
    exact absurd suffixes (suffix_ne_of_negativeZero key zero')
  · rw [minus] at suffixes
    exact absurd suffixes.symm (suffix_ne_of_negativeZero key' zero)
  · refine ⟨zero.trans zero'.symm, value, ?_⟩
    rw [minus, minus', Int.sub_self, Int.natAbs_zero, Nat.zero_mul]
    exact Nat.zero_le _

/-! ## Adding to a set -/

/-- What is put into a sorted set for a scored point. -/
def scored (p : ScoredPoint) : Binary64 × String := (p.stored.score, p.stored.member)

/-- The member of a point is in a set, under the score of one of these points with that member. -/
def StandsIn (p : ScoredPoint) (given : List ScoredPoint) (scores : Table String Binary64) : Prop :=
  ∃ q ∈ given, q.stored.member = p.stored.member ∧ scores.get? p.stored.member = some q.score

/-- A member goes on standing for one of the points when some of them are put into the set. -/
theorem StandsIn.addScores {given batch : List ScoredPoint} {scores : Table String Binary64}
    (stands : p.StandsIn given scores) (chosen : ∀ q ∈ batch, q ∈ given) :
    p.StandsIn given (Server.addScores scores (batch.map scored)).1 := by
  suffices ∀ added, p.StandsIn given
      ((batch.map scored).foldl Server.addScore (scores, added)).1 from this 0
  induction batch generalizing scores with
  | nil => exact fun _ => stands
  | cons first rest ih =>
    obtain ⟨here, others⟩ := List.forall_mem_cons.mp chosen
    intro added
    refine ih ?_ others _
    have put := Table.get?_insert scores first.stored.member p.stored.member first.score
    by_cases same : first.stored.member = p.stored.member
    · exact ⟨first, here, same, put.trans (if_pos same)⟩
    · obtain ⟨q, inside, member, found⟩ := stands
      exact ⟨q, inside, member, (put.trans (if_neg same)).trans found⟩

/-- A member goes on standing for one of the points when batches of them are added to its key. -/
theorem StandsIn.execAll (required key : String) {ks : Server.Keyspace}
    {scores : Table String Binary64} (found : ks.sortedSet? key = .ok scores)
    {given : List ScoredPoint} (stands : p.StandsIn given scores)
    {batches : List (List ScoredPoint)} (chosen : ∀ batch ∈ batches, ∀ q ∈ batch, q ∈ given) :
    ∃ scores', (Server.execAll (Server.exec required)
        (batches.map fun batch => .addPoints key (batch.map scored)) ks).2.sortedSet? key =
          .ok scores' ∧ p.StandsIn given scores' := by
  induction batches generalizing ks scores with
  | nil => exact ⟨scores, found, stands⟩
  | cons batch rest ih =>
    obtain ⟨first, others⟩ := List.forall_mem_cons.mp chosen
    obtain ⟨ks', added, after⟩ := Remote.exec_addPoints required found (batch.map scored)
    have later := ih after (stands.addScores first) others
    simpa only [List.map_cons, Server.execAll, added] using later

/-- **Different points never share a member.**  Points of a bucket with the same member have the
same timestamp and the same value, and their scores are at most a millionth apart.  So a member that
is in the set of its bucket for a point goes on standing for it or for a point alike that was added,
whatever batches of points of the bucket are added. -/
theorem members_tell_points (p : ScoredPoint) :
    (∀ q : ScoredPoint, bucketOf p.time = bucketOf q.time →
        p.stored.member = q.stored.member → p.Alike q) ∧
      ∀ (required key : String) (ks : Server.Keyspace) (scores : Table String Binary64)
        (batches : List (List ScoredPoint)),
        ks.sortedSet? key = .ok scores → scores.get? p.stored.member = some p.score →
        (∀ batch ∈ batches, ∀ q ∈ batch, bucketOf q.time = bucketOf p.time) →
        ∃ scores', (Server.execAll (Server.exec required)
            (batches.map fun batch => .addPoints key (batch.map scored)) ks).2.sortedSet? key =
              .ok scores' ∧
          ∃ q ∈ p :: batches.flatten, scores'.get? p.stored.member = some q.score ∧ p.Alike q := by
  refine ⟨fun q => alike_of_member, fun required key ks scores batches found stands bucket => ?_⟩
  have added : ∀ batch ∈ batches, ∀ q ∈ batch, q ∈ p :: batches.flatten := fun batch hbatch q hq =>
    List.mem_cons_of_mem _ (List.mem_flatten.mpr ⟨batch, hbatch, hq⟩)
  obtain ⟨scores', after, q, given, member, standing⟩ :=
    StandsIn.execAll required key found ⟨p, List.mem_cons_self, rfl, stands⟩ added
  refine ⟨scores', after, q, given, standing, alike_of_member ?_ member.symm⟩
  rcases List.mem_cons.mp given with rfl | inside
  · rfl
  · obtain ⟨batch, hbatch, hq⟩ := List.mem_flatten.mp inside
    exact (bucket batch hbatch q hq).symm

/-- Two NaNs whose scores differ in the last bit only. -/
theorem members_tell_points_rounded :
    let time : UInt64 := 86400001
    let p : ScoredPoint := ⟨time, .ofUInt64 time, Binary64.nan, by decide, by decide +kernel,
      by decide +kernel⟩
    let q : ScoredPoint := ⟨time, (Binary64.ofUInt64 time).next, Binary64.nan.neg, by decide,
      by decide +kernel, by decide +kernel⟩
    let ks : Server.Keyspace := Table.empty.insert "set"
      { value := .sortedSet (Table.empty.insert p.stored.member p.score) }
    p.Alike q ∧ p ≠ q ∧ ∃ scores', (Server.execAll (Server.exec "")
        [.addPoints "set" [scored q]] ks).2.sortedSet? "set" = .ok scores' ∧
      ∃ r ∈ [p, q], scores'.get? p.stored.member = some r.score ∧ p.Alike r := by
  intro time p q ks
  have apart : p.score ≠ q.score := by decide +kernel
  refine ⟨(members_tell_points p).1 q rfl (by decide +kernel), fun same => apart (by rw [same]), ?_⟩
  refine (members_tell_points p).2 "" "set" ks _ [[q]] rfl ?_ ?_
  · exact (Table.get?_insert ..).trans (if_pos rfl)
  · intro batch inside r member
    rw [List.mem_singleton.mp inside] at member
    rw [List.mem_singleton.mp member]

end ScoredPoint

end SeriesStorage

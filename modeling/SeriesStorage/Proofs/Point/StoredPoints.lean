import Mathlib.Data.List.Forall2
import SeriesStorage.Proofs.Number.ShortestText
import SeriesStorage.Proofs.Point.PaddedKey
import SeriesStorage.Remote.Staging

/-!
# Stored forms of points

A stored form of a point is in the bucket of its timestamp, under a key of its timestamp, and its
member gives the value back, but for the payload of a NaN (`StoredPoint.Of`).

* `decodeMember_encodeScored`: members are read back.
* `encodePoints_encodes`: the points of a batch are stored under keys of theirs (`Encodes`), one by
  one, and at different places.
-/

namespace SeriesStorage

/-! ## Reading members back -/

theorem memberValue_encodeScored (time : UInt64) (score value : Binary64) :
    memberValue (encodeScored time score value).member = value.toChars := by
  have apart : ∀ c ∈ value.toChars, (decide (c ≠ ':')) = true := by
    intro c hc
    rw [decide_eq_true_eq]
    rintro rfl
    exact value.colon_not_mem_toChars hc
  simp only [memberValue, encodeScored, String.toList_ofList]
  rw [List.takeWhile_append_of_pos apart]
  simp

theorem decodeMember_encodeScored (time : UInt64) (score value : Binary64) :
    decodeMember (encodeScored time score value).member = .ok value.canonical := by
  unfold decodeMember
  rw [memberValue_encodeScored, value.parse_toChars]

/-- A stored form of a point, which is given by its timestamp and value. -/
structure StoredPoint.Of (p : StoredPoint) (point : UInt64 × Binary64) : Prop where
  bucket : p.bucket = bucketOf point.1
  score : IsKeyOf point.1 p.score
  member : decodeMember p.member = .ok point.2.canonical

theorem encodeScored_of {time : UInt64} {score : Binary64} (h : IsKeyOf time score)
    (value : Binary64) : (encodeScored time score value).Of (time, value) :=
  ⟨rfl, h, decodeMember_encodeScored time score value⟩

namespace Remote

/-! ## Places -/

/-- A point is stored under one of its keys. -/
def Encodes (point : UInt64 × Binary64) (p : StoredPoint) : Prop :=
  ∃ score, IsKeyOf point.1 score ∧ p = encodeScored point.1 score point.2

theorem Encodes.of {point : UInt64 × Binary64} {p : StoredPoint} (h : Encodes point p) :
    p.Of point := by
  obtain ⟨score, key, rfl⟩ := h
  exact encodeScored_of key point.2

/-- The place of a stored point: its bucket, and its member there. -/
def placeOf (p : StoredPoint) : UInt64 × String := (p.bucket, p.member)

theorem isFree_iff {taken : Taken} {p : StoredPoint} :
    isFree taken p = true ↔ placeOf p ∉ taken := by
  simp [isFree, placeOf]

/-! ## Free places -/

theorem code_next {x : Binary64} (sign : x.negative = false)
    (finite : x.code < Binary64.infinityCode) :
    x.next.negative = false ∧ x.next.code = x.code + 1 := by
  have bits := x.bits_toNat
  rw [sign] at bits
  have bits : x.bits.toNat = x.code := by simpa using bits
  have small : Binary64.infinityCode = 0x7ff0000000000000 := rfl
  have next : (x.bits + 1).toNat = x.code + 1 := by
    rw [UInt64.toNat_add, bits]
    show (x.code + 1) % 0x10000000000000000 = _
    omega
  constructor
  · simp only [Binary64.next, Binary64.negative, next, decide_eq_false_iff_not]
    omega
  · simp only [Binary64.next, Binary64.code, next]
    omega

/-- A score that is scanned is a key of the timestamp, and gives a free place. -/
theorem firstFree_spec {taken : Taken} {time : UInt64} {value : Binary64} {n : Nat}
    {score : Binary64} {p : StoredPoint} (sign : score.negative = false)
    (low : (Binary64.ofUInt64 time).code ≤ score.code)
    (high : score.code + n ≤ (paddedKey time maxPadding).code)
    (found : firstFree taken time value n score = some p) :
    Encodes (time, value) p ∧ placeOf p ∉ taken := by
  have finite := code_paddedKey_max_lt time
  induction n generalizing score with
  | zero => cases found
  | succ n ih =>
    unfold firstFree at found
    dsimp only at found
    split at found
    · next free =>
      obtain rfl := Option.some.inj found
      have key : IsKeyOf time score := ⟨sign, low, by omega⟩
      exact ⟨⟨score, key, rfl⟩, isFree_iff.mp free⟩
    · have next := code_next sign (Nat.lt_of_le_of_lt (by omega) finite)
      exact ih next.1 (by omega) (by omega) found

/-- A point is stored under a drawn key, under a scanned one, or refused. -/
theorem uniquePoint_cases (taken : Taken) (draw : Nat → Padding) (time : UInt64)
    (value : Binary64) :
    (∃ k, isFree taken (encode time value (draw k).value) = true ∧
        uniquePoint taken draw time value = .ok (encode time value (draw k).value)) ∨
      (∃ p, firstFree taken time value (scoreCount time) (.ofUInt64 time) = some p ∧
        uniquePoint taken draw time value = .ok p) ∨
      uniquePoint taken draw time value = .error (.keySpaceExhausted time) := by
  unfold uniquePoint
  dsimp only
  generalize drawn : List.find? _ _ = found
  generalize firstFree taken time value (scoreCount time) (.ofUInt64 time) = free
  cases found with
  | some p =>
    obtain ⟨k, _, rfl⟩ := List.mem_map.mp (List.mem_of_find?_eq_some drawn)
    exact Or.inl ⟨k, List.find?_some drawn, rfl⟩
  | none =>
    cases free with
    | some p => exact Or.inr (Or.inl ⟨p, rfl, rfl⟩)
    | none => exact Or.inr (Or.inr rfl)

/-- A point is stored under one of its keys at a free place; it is refused only for lack of one. -/
theorem uniquePoint_spec (taken : Taken) (draw : Nat → Padding) (time : UInt64)
    (value : Binary64) :
    (∃ p, uniquePoint taken draw time value = .ok p ∧ Encodes (time, value) p ∧
        placeOf p ∉ taken) ∨
      uniquePoint taken draw time value = .error (.keySpaceExhausted time) := by
  obtain ⟨k, free, drawn⟩ | ⟨p, free, scanned⟩ | refused := uniquePoint_cases taken draw time value
  · exact Or.inl ⟨_, drawn, ⟨_, isKeyOf_paddedKey time (draw k), rfl⟩, isFree_iff.mp free⟩
  · refine Or.inl ⟨p, scanned, ?_⟩
    have lowest := isKeyOf_paddedKey time .zero
    have above : (Binary64.ofUInt64 time).code ≤ (paddedKey time maxPadding).code :=
      Nat.le_trans lowest.lower lowest.upper
    refine firstFree_spec (Binary64.negative_ofUInt64 time) (Nat.le_refl _) ?_ free
    unfold scoreCount
    omega
  · exact Or.inr refused

/-! ## Batches -/

/-- The points of a batch are stored under keys of theirs, one by one, at different places that were
free; a batch is refused only for lack of a free place. -/
theorem encodePoints_encodes (draws : Draws) (i : Nat) (taken : Taken)
    (points : List (UInt64 × Binary64)) :
    (∃ stored, encodePoints draws i taken points = .ok stored ∧
        List.Forall₂ Encodes points stored ∧ (stored.map placeOf).Nodup ∧
        ∀ p ∈ stored, placeOf p ∉ taken) ∨
      ∃ time, encodePoints draws i taken points = .error (.keySpaceExhausted time) := by
  induction points generalizing i taken with
  | nil => exact Or.inl ⟨[], rfl, .nil, List.nodup_nil, nofun⟩
  | cons point rest ih =>
    obtain ⟨time, value⟩ := point
    unfold encodePoints
    obtain ⟨p, first, encodes, free⟩ | refused := uniquePoint_spec taken (draws i) time value
    · rw [first]
      dsimp only
      obtain ⟨more, others, encodesMore, nodup, freeMore⟩ | ⟨later, others⟩ :=
        ih (i + 1) ((p.bucket, p.member) :: taken)
      · refine Or.inl ⟨p :: more, by rw [others]; rfl, .cons encodes encodesMore, ?_, ?_⟩
        · refine List.nodup_cons.mpr ⟨fun inside => ?_, nodup⟩
          obtain ⟨q, hq, same⟩ := List.mem_map.mp inside
          exact freeMore q hq (same ▸ List.mem_cons_self)
        · refine List.forall_mem_cons.mpr ⟨free, fun q hq inside => ?_⟩
          exact freeMore q hq (List.mem_cons_of_mem _ inside)
      · exact Or.inr ⟨later, by rw [others]; rfl⟩
    · exact Or.inr ⟨time, by rw [refused]⟩

/-- The encoded points of a batch are stored forms of its points, one by one. -/
theorem encodePoints_spec (draws : Draws) (i : Nat) (taken : Taken)
    (points : List (UInt64 × Binary64)) :
    (∃ stored, encodePoints draws i taken points = .ok stored ∧
        List.Forall₂ (fun point p => StoredPoint.Of p point) points stored) ∨
      ∃ time, encodePoints draws i taken points = .error (.keySpaceExhausted time) :=
  (encodePoints_encodes draws i taken points).imp_left fun ⟨stored, encoded, encodes, _⟩ =>
    ⟨stored, encoded, encodes.imp fun _ _ h => h.of⟩

end Remote

end SeriesStorage

import SeriesStorage.Proofs.Remote.ReadingPoints
import SeriesStorage.Proofs.Remote.SharedMembers

/-!
# Paddings do no harm

Whatever padding is drawn, a key gives back the time that its timestamp gives back without one, and
no read loses it: the bounds between which a store scans its keys, and those that are sent to a
server, leave out only keys whose time is not in the window (`paddings_harmless`).

* `isPadding_mulFinite`: a number drawn below 1, times 0.1, is a padding; rounding does not take it
  up to 0.1.
* `IsPadding.isKeyOf`: a timestamp with a padding is a key of the timestamp.
* `IsKeyOf.scanned`: the bounds of a window leave out no key whose time lies in the window.
* `IsKeyOf.before`: up to 2⁵³ the keys of a timestamp lie below those of a later one.
* `parse_arguments`: the bounds are read back from the texts in which they are sent.
-/

namespace SeriesStorage

open Binary64 (unitsOfCode unitsPerOne nearestCode infinityCode)

/-! ## Paddings -/

/-- A number from 0 up to but not including 0.1, as doubles compare; −0 is one. -/
structure IsPadding (padding : Binary64) : Prop where
  notNegative : Binary64.zero.valueLe padding = true
  belowMax : padding.valueLt maxPadding = true

theorem isPadding_of_code {padding : Binary64} (sign : padding.negative = false)
    (below : padding.code < maxPadding.code) : IsPadding padding := by
  refine ⟨?_, Binary64.valueLt_of_code_lt sign (by decide) (by decide) below⟩
  rcases Nat.eq_zero_or_pos padding.code with none | some
  · rw [Binary64.eq_of_code_eq sign (y := .zero) (by decide) none]
    decide
  · have finite : padding.code < infinityCode := Nat.lt_trans below (by decide)
    have above := Binary64.valueLt_of_code_lt (x := .zero) (by decide) sign finite some
    exact Bool.or_eq_true_iff.mpr (Or.inl above)

/-- Paddings are those that can be drawn, and −0. -/
theorem isPadding_iff {padding : Binary64} :
    IsPadding padding ↔
      padding = Binary64.negativeZero ∨ ∃ draw : Padding, draw.value = padding := by
  constructor
  · rintro ⟨notNegative, belowMax⟩
    rcases Binary64.valueLe_cases (by decide) notNegative with ⟨sign, -⟩ | ⟨-, zero⟩
    · exact Or.inr ⟨⟨padding, sign, Binary64.code_lt_of_valueLt sign (by decide) belowMax⟩, rfl⟩
    · exact Or.inl zero
  · rintro (rfl | ⟨draw, rfl⟩)
    · exact ⟨by decide, by decide⟩
    · exact isPadding_of_code draw.notNegative draw.belowMax

/-- The number 1. -/
def Binary64.one : Binary64 := ⟨0x3ff0000000000000⟩

/-- **A drawn number times 0.1 is a padding**: the product of the largest number below 1 is rounded
down. -/
theorem isPadding_mulFinite {draw : Binary64} (notNegative : Binary64.zero.valueLe draw = true)
    (below : draw.valueLt .one = true) : IsPadding (draw.mulFinite maxPadding) := by
  rcases Binary64.valueLe_cases (by decide) notNegative with ⟨sign, -⟩ | ⟨-, rfl⟩
  · have code := Binary64.code_lt_of_valueLt sign (by decide) below
    have scaled : draw.mulFinite maxPadding =
        .ofUnits false (unitsOfCode draw.code * unitsOfCode maxPadding.code) unitsPerOne := by
      rw [Binary64.mulFinite, sign]
      simp only [Binary64.units, sign, show maxPadding.negative = false by decide,
        Bool.false_eq_true, if_false, Int.natAbs_natCast]
      rfl
    -- nothing lies between 1 and the number whose code is one less
    have units : unitsOfCode draw.code ≤ unitsOfCode (Binary64.one.code - 1) :=
      Binary64.unitsOfCode_mono (by omega)
    have most : nearestCode
        (unitsOfCode (Binary64.one.code - 1) * unitsOfCode maxPadding.code) unitsPerOne <
          maxPadding.code := by decide +kernel
    rw [scaled]
    refine isPadding_of_code (Binary64.negative_ofUnits _ _ _) ?_
    rw [Binary64.code_ofUnits]
    exact Nat.lt_of_le_of_lt (Binary64.nearestCode_mono _ Binary64.unitsPerOne_pos
      (Nat.mul_le_mul_right _ units)) most
  · exact isPadding_iff.mpr (Or.inl (by decide +kernel))

/-! ## Keys -/

theorem paddedKey_zero (time : UInt64) : paddedKey time .zero = .ofUInt64 time := by
  have same := Binary64.ofCode_negative_code (.ofUInt64 time)
  rw [Binary64.negative_ofUInt64] at same
  have nearest := Binary64.nearestCode_unitsOfCode (Binary64.code_ofUInt64_lt time)
  rw [paddedKey_eq time (by decide) (by decide), show unitsOfCode Binary64.zero.code = 0 from rfl,
    Nat.add_zero, Binary64.ofUnits, nearest, same]

/-- The sign of a zero does not show in a key. -/
theorem paddedKey_negativeZero (time : UInt64) :
    paddedKey time Binary64.negativeZero = paddedKey time .zero := by
  have units : Binary64.negativeZero.units = Binary64.zero.units := by decide
  have number : Binary64.negativeZero.isNaN = Binary64.zero.isNaN := by decide
  have infinite : Binary64.negativeZero.isInfinite = Binary64.zero.isInfinite := by decide
  have finite : Binary64.zero.isInfinite = false := by decide
  show Binary64.add _ _ = Binary64.add _ _
  simp only [Binary64.add, units, number, infinite, finite, Binary64.negative_ofUInt64,
    Bool.false_and, Bool.false_eq_true, if_false]

theorem IsPadding.isKeyOf {padding : Binary64} (h : IsPadding padding) (time : UInt64) :
    IsKeyOf time (paddedKey time padding) := by
  rcases isPadding_iff.mp h with rfl | ⟨draw, rfl⟩
  · rw [paddedKey_negativeZero]
    exact isKeyOf_paddedKey time .zero
  · exact isKeyOf_paddedKey time draw

namespace IsKeyOf

variable {time later : UInt64} {key laterKey : Binary64}

theorem keyTime_eq_self (h : IsKeyOf time key) (exact : time.toNat ≤ 0x20000000000000) :
    keyTime key = time := by
  rw [h.keyTime_eq, keyTime_ofUInt64 exact]

theorem contains_iff (h : IsKeyOf time key) (exact : time.toNat ≤ 0x20000000000000)
    (window : Window) :
    window.contains key = true ↔ window.first ≤ time ∧ time ≤ window.last := by
  rw [Window.contains_iff, h.keyTime_eq_self exact]

/-- The keys of a timestamp lie below those of a later one if both are whole numbers that a double
holds. -/
theorem before (h : IsKeyOf time key) (h' : IsKeyOf later laterKey) (order : time < later)
    (exact : later.toNat ≤ 0x20000000000000) : key.totalCompare laterKey = .lt := by
  rw [UInt64.lt_iff_toNat_lt] at order
  -- otherwise the times would stand in the opposite order
  have apart : ¬ laterKey.totalLe key = true := by
    intro above
    have times := keyTime_mono h'.notNegative h.notNegative h'.isNaN_eq_false h.isNaN_eq_false above
    rw [h'.keyTime_eq_self exact, h.keyTime_eq_self (by omega), UInt64.le_iff_toNat_le] at times
    omega
  have ranks : key.totalRank < laterKey.totalRank := by
    simpa [Binary64.totalLe] using apart
  exact Int.compare_eq_lt.mpr ranks

/-- Of the keys whose time lies in a window, the bounds of the window leave out none. -/
theorem scanned (h : IsKeyOf time key) (window : Window) :
    (window.lowerKey.totalLe key && key.totalLe window.upperKey && window.contains key) =
      window.contains key := by
  cases inside : window.contains key with
  | false => rw [Bool.and_false]
  | true =>
    obtain ⟨low, high⟩ := h.between inside
    rw [low, high]
    rfl

end IsKeyOf

/-! ## Bounds -/

/-- The bounds of a window stand in their order, unless the window ends before it begins. -/
theorem Window.lowerKey_le_upperKey {window : Window} (order : window.first ≤ window.last) :
    window.lowerKey.totalLe window.upperKey = true := by
  have lower : window.lowerKey.negative = false := Binary64.negative_ofUInt64 window.first
  have upper : window.upperKey.negative = false := negative_paddedKey_max window.last
  rw [totalLe_iff_code_le lower upper]
  exact Nat.le_trans (Binary64.code_ofUInt64_mono order) (code_ofUInt64_le_max window.last)

/-- The values that a scan between the bounds finds are those whose time lies in the window. -/
theorem Memory.Store.valuesIn_eq {s : Memory.Store} {ref : SeriesRef}
    (keys : ∀ v ∈ s.valuesOf ref, ∃ time, IsKeyOf time v.key) (window : Window) :
    s.valuesIn ref window = ((s.valuesOf ref).filter fun v => window.contains v.key).mergeSort
      fun v w => v.key.totalLe w.key := by
  unfold valuesIn
  refine congrArg (List.mergeSort · _) (List.filter_congr fun v stored => ?_)
  obtain ⟨time, key⟩ := keys v stored
  exact key.scanned window

namespace Remote

open Server (Command Keyspace exec membersBetween)

/-- The texts in which the bounds of a window are sent are read as these bounds. -/
theorem parse_arguments (key : String) (window : Window) :
    ∃ low high, (Command.pointsBetween key window.first window.upperKey).arguments =
        [key, low, high, "WITHSCORES"] ∧
      Binary64.parse low.toList = .ok window.lowerKey ∧
      Binary64.parse high.toList = .ok window.upperKey := by
  have number : window.upperKey.isNaN = false := by
    have finite : window.upperKey.code < infinityCode := code_paddedKey_max_lt window.last
    simp only [Binary64.isNaN, decide_eq_false_iff_not]
    omega
  have upper : Binary64.parse window.upperKey.toText.toList = .ok window.upperKey := by
    rw [Binary64.toText, String.toList_ofList, Binary64.parse_toChars, Binary64.canonical, number,
      if_neg Bool.false_ne_true]
  exact ⟨_, _, rfl, Binary64.parse_natText window.first.toNat, upper⟩

/-- What a server answers for a window has all entries whose time lies in the window. -/
theorem exec_pointsBetween {required key : String} {ks : Keyspace} {scores : Table String Binary64}
    (found : ks.sortedSet? key = .ok scores)
    (keys : ∀ e ∈ scores.entries, ∃ time, IsKeyOf time e.2) (window : Window) :
    ∃ members, exec required (.pointsBetween key window.first window.upperKey) ks =
        (.ok (.scored members), ks) ∧
      (members.filter fun e => window.contains e.2).Perm
        (scores.entries.filter fun e => window.contains e.2) :=
  ⟨membersBetween scores (.ofUInt64 window.first) window.upperKey, by simp only [exec, found],
    perm_membersBetween window scores keys⟩

end Remote

/-! ## Harmless paddings -/

/-- **Paddings do no harm.**  What is drawn below 1 and multiplied by 0.1 is a padding.  Whatever
padding from 0 up to 0.1 a timestamp gets, the key gives back the time that the timestamp gives back
alone, up to 2⁵³ the timestamp itself, so that a window contains it as it contains the timestamp;
keys of a later timestamp up to 2⁵³ are larger.  The bounds of a window, as they are and as a server
reads them from the texts sent, stand in their order and have between them all keys whose time lies
in the window: a scan in memory and the answer of a server leave out nothing that looking at the
times alone would show. -/
theorem paddings_harmless :
    (∀ draw : Binary64, Binary64.zero.valueLe draw = true → draw.valueLt .one = true →
      IsPadding (draw.mulFinite maxPadding)) ∧
    (∀ (time : UInt64) (padding : Binary64), IsPadding padding →
      IsKeyOf time (paddedKey time padding) ∧
      keyTime (paddedKey time padding) = keyTime (paddedKey time .zero) ∧
      (time.toNat ≤ 0x20000000000000 → keyTime (paddedKey time padding) = time ∧
        ∀ window : Window, window.contains (paddedKey time padding) = true ↔
          window.first ≤ time ∧ time ≤ window.last) ∧
      ∀ window : Window, window.contains (paddedKey time padding) = true →
        window.lowerKey.totalLe (paddedKey time padding) = true ∧
        (paddedKey time padding).totalLe window.upperKey = true) ∧
    (∀ (time later : UInt64) (padding padding' : Binary64), IsPadding padding →
      IsPadding padding' → time < later → later.toNat ≤ 0x20000000000000 →
      (paddedKey time padding).totalCompare (paddedKey later padding') = .lt) ∧
    (∀ window : Window, window.first ≤ window.last →
      window.lowerKey.totalLe window.upperKey = true) ∧
    (∀ (s : Memory.Store) (ref : SeriesRef) (window : Window),
      (∀ v ∈ s.valuesOf ref, ∃ time, IsKeyOf time v.key) →
      s.valuesIn ref window = ((s.valuesOf ref).filter fun v => window.contains v.key).mergeSort
        fun v w => v.key.totalLe w.key) ∧
    (∀ (required key : String) (ks : Server.Keyspace) (scores : Table String Binary64)
      (window : Window), ks.sortedSet? key = .ok scores →
      (∀ e ∈ scores.entries, ∃ time, IsKeyOf time e.2) →
      ∃ members, Server.exec required (.pointsBetween key window.first window.upperKey) ks =
          (.ok (.scored members), ks) ∧
        (members.filter fun e => window.contains e.2).Perm
          (scores.entries.filter fun e => window.contains e.2)) ∧
    ∀ (key : String) (window : Window),
      ∃ low high, (Server.Command.pointsBetween key window.first window.upperKey).arguments =
          [key, low, high, "WITHSCORES"] ∧
        Binary64.parse low.toList = .ok window.lowerKey ∧
        Binary64.parse high.toList = .ok window.upperKey := by
  refine ⟨fun draw => isPadding_mulFinite, fun time padding h => ?_,
    fun time later padding padding' h h' order exact => ?_,
    fun window => Window.lowerKey_le_upperKey, fun s ref window keys => ?_,
    fun required key ks scores window found keys => ?_, Remote.parse_arguments⟩
  · have key := h.isKeyOf time
    refine ⟨key, ?_, fun exact => ⟨key.keyTime_eq_self exact, key.contains_iff exact⟩,
      fun window => key.between⟩
    rw [key.keyTime_eq, paddedKey_zero]
  · exact (h.isKeyOf time).before (h'.isKeyOf later) order exact
  · exact Memory.Store.valuesIn_eq keys window
  · exact Remote.exec_pointsBetween found keys window

/-- The largest padding that is drawn, at the last timestamp of all and at the last two timestamps
that need no rounding; a point of the last timestamp is found in both stores. -/
theorem paddings_harmless_extremes :
    let padding : Binary64 := ⟨0x3fb9999999999999⟩
    let last : UInt64 := 0xffffffffffffffff
    let window : Window := ⟨last, last⟩
    let key := paddedKey last padding
    let s := Memory.Store.empty.append ⟨⟨0⟩, ⟨1⟩⟩ [⟨key, .zero⟩]
    let ks : Server.Keyspace := Table.empty.insert "set"
      { value := .sortedSet (Table.empty.insert "0:6" key) }
    (IsPadding padding ∧ key = paddedKey last .zero) ∧
    (window.lowerKey.totalLe key = true ∧ key.totalLe window.upperKey = true) ∧
    keyTime (paddedKey 0x20000000000000 padding) = 0x20000000000000 ∧
    (paddedKey 0x1fffffffffffff padding).totalCompare
      (paddedKey 0x20000000000000 Binary64.negativeZero) = .lt ∧
    window.lowerKey.totalLe window.upperKey = true ∧
    s.valuesIn ⟨⟨0⟩, ⟨1⟩⟩ window = [⟨key, .zero⟩] ∧
    ∃ members, Server.exec "" (.pointsBetween "set" window.first window.upperKey) ks =
      (.ok (.scored members), ks) ∧ ("0:6", key) ∈ members := by
  intro padding last window key s ks
  obtain ⟨draws, keys, order, bounds, stores, servers, -⟩ := paddings_harmless
  -- the largest number below 1
  have drawn : (⟨0x3fefffffffffffff⟩ : Binary64).mulFinite maxPadding = padding := by decide +kernel
  have largest : IsPadding padding :=
    drawn ▸ draws ⟨0x3fefffffffffffff⟩ (by decide) (by decide)
  have zero : IsPadding Binary64.negativeZero := ⟨by decide, by decide⟩
  have inside : window.contains key = true := by decide +kernel
  have isKey : ∃ time, IsKeyOf time key := ⟨last, (keys last padding largest).1⟩
  refine ⟨⟨largest, by decide +kernel⟩, (keys last padding largest).2.2.2 window inside,
    ((keys 0x20000000000000 padding largest).2.2.1 (by decide)).1,
    order _ _ padding _ largest zero (by decide) (by decide), bounds window (by decide), ?_, ?_⟩
  · have stored : s.valuesOf ⟨⟨0⟩, ⟨1⟩⟩ = [⟨key, .zero⟩] := rfl
    have found := stores s ⟨⟨0⟩, ⟨1⟩⟩ window (by rw [stored]; simpa using isKey)
    rw [found, stored, List.filter_cons_of_pos (by exact inside), List.filter_nil,
      List.mergeSort_singleton]
  · have entries : (Table.empty.insert "0:6" key).entries = [("0:6", key)] := rfl
    obtain ⟨members, answered, perm⟩ := servers "" "set" ks (Table.empty.insert "0:6" key) window
      rfl (by rw [entries]; simpa using isKey)
    refine ⟨members, answered, (List.mem_filter.mp (perm.mem_iff.mpr ?_)).1⟩
    exact List.mem_filter.mpr ⟨by rw [entries]; exact List.mem_singleton.mpr rfl, inside⟩

end SeriesStorage

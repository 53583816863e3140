import Mathlib.Data.List.DropRight
import SeriesStorage.Proofs.Number.FewestDigits
import SeriesStorage.Proofs.Point.StoredPoints

/-!
# Values in members

The value of a point is read back from its member bit for bit, and its text there is as short as a
text of it can be (`decodeMember_exact`).

* `significantDigits text`: the digits in front of an exponent, without zeros at either end.
* `decimalCode_of_parse`: a text that is read as a finite number other than zero is a decimal of its
  significant digits that has the number as nearest.
-/

namespace SeriesStorage

namespace Binary64

/-! ## Significant digits -/

/-- The digits of a decimal text in front of its exponent, without sign and point. -/
def mantissa (text : List Char) : List Char :=
  (text.takeWhile fun c => c ≠ 'e' ∧ c ≠ 'E').filter Char.isDigit

/-- How many digits a decimal text has, zeros at its beginning and at its end not counted. -/
def significantDigits (text : List Char) : Nat :=
  (((mantissa text).dropWhile (· = '0')).rdropWhile (· = '0')).length

theorem mantissa_append {digits : List Char} (h : ∀ c ∈ digits, c.isDigit = true)
    (rest : List Char) : mantissa (digits ++ rest) = digits ++ mantissa rest := by
  have before : ∀ c ∈ digits, decide (c ≠ 'e' ∧ c ≠ 'E') = true := by
    intro c hc
    rw [decide_eq_true_eq]
    constructor
    · rintro rfl
      exact absurd (h _ hc) (by decide)
    · rintro rfl
      exact absurd (h _ hc) (by decide)
  unfold mantissa
  rw [List.takeWhile_append_of_pos before, List.filter_append, List.filter_eq_self.mpr h]

/-- A sign or a point is no digit. -/
theorem mantissa_cons {c : Char} (h : c.isDigit = false) (before : c ≠ 'e' ∧ c ≠ 'E')
    (rest : List Char) : mantissa (c :: rest) = mantissa rest := by
  unfold mantissa
  rw [List.takeWhile_cons_of_pos (by simpa using before), List.filter_cons_of_neg (by simp [h])]

theorem mantissa_exponent {c : Char} (h : c = 'e' ∨ c = 'E') (rest : List Char) :
    mantissa (c :: rest) = [] := by
  rcases h with rfl | rfl <;> rfl

/-- Zeros around digits are not counted. -/
theorem significantDigits_le {text digits : List Char} {front back : Nat}
    (h : mantissa text = List.replicate front '0' ++ (digits ++ List.replicate back '0')) :
    significantDigits text ≤ digits.length := by
  have zeros : ∀ n, ∀ c ∈ List.replicate n '0', decide (c = '0') = true := fun n c hc => by
    rw [decide_eq_true_eq]
    exact (List.mem_replicate.mp hc).2
  unfold significantDigits
  rw [h, List.dropWhile_append_of_pos (zeros front), List.dropWhile_append]
  split
  · rw [List.dropWhile_eq_nil_iff.mpr (zeros back)]
    exact Nat.zero_le _
  · unfold List.rdropWhile
    rw [List.reverse_append, List.reverse_replicate, List.dropWhile_append_of_pos (zeros back),
      List.length_reverse]
    refine Nat.le_trans (List.dropWhile_sublist _).length_le ?_
    rw [List.length_reverse]
    exact (List.dropWhile_sublist _).length_le

theorem ofDigitChars_lt (digits : List Char) (h : ∀ c ∈ digits, c.isDigit = true) (n : Nat) :
    Nat.ofDigitChars 10 digits n < (n + 1) * 10 ^ digits.length := by
  induction digits generalizing n with
  | nil => simp
  | cons c digits ih =>
    have digit : c.toNat - '0'.toNat < 10 := by
      have := h c List.mem_cons_self
      simp only [Char.isDigit, Bool.and_eq_true, decide_eq_true_eq] at this
      have high : c.toNat ≤ 57 := this.2
      show c.toNat - 48 < 10
      omega
    rw [Nat.ofDigitChars_cons, List.length_cons, Nat.pow_succ', ← Nat.mul_assoc]
    exact Nat.lt_of_lt_of_le (ih (fun d hd => h d (List.mem_cons_of_mem _ hd)) _)
      (Nat.mul_le_mul_right _ (by omega))

/-- A row of zeros, known by its characters. -/
theorem exists_replicate_zero {cs : List Char} (h : ∀ c ∈ cs, decide (c = '0') = true) :
    ∃ n, cs = List.replicate n '0' :=
  ⟨cs.length, List.eq_replicate_iff.mpr ⟨rfl, fun c hc => of_decide_eq_true (h c hc)⟩⟩

/-- The digits of a text write a number of its significant digits, times a power of ten. -/
theorem exists_significand_of_mantissa (text : List Char) :
    ∃ d zeros, Nat.ofDigitChars 10 (mantissa text) 0 = d * Nat.pow 10 zeros ∧
      d < 10 ^ significantDigits text := by
  have digits : ∀ c ∈ mantissa text, c.isDigit = true := fun c hc => (List.mem_filter.mp hc).2
  unfold significantDigits
  generalize mantissa text = cs at *
  obtain ⟨front, hfront⟩ := @exists_replicate_zero (cs.takeWhile (· = '0'))
    fun _ => List.mem_takeWhile_imp (p := (· = '0'))
  have inner : ∀ c ∈ cs.dropWhile (· = '0'), c.isDigit = true := fun c hc =>
    digits c ((List.dropWhile_sublist _).subset hc)
  have dropped : Nat.ofDigitChars 10 cs 0 = Nat.ofDigitChars 10 (cs.dropWhile (· = '0')) 0 := by
    conv_lhs => rw [← List.takeWhile_append_dropWhile (p := (· = '0')) (l := cs)]
    rw [hfront, Nat.ofDigitChars_append, Nat.ofDigitChars_replicate_zero, Nat.mul_zero]
  rw [dropped]
  generalize cs.dropWhile (· = '0') = ds at *
  obtain ⟨back, hback⟩ := @exists_replicate_zero (ds.rtakeWhile (· = '0'))
    fun _ => List.mem_rtakeWhile_imp (p := (· = '0'))
  refine ⟨Nat.ofDigitChars 10 (ds.rdropWhile (· = '0')) 0, back, ?_, ?_⟩
  · conv_lhs => rw [← List.rdropWhile_append_rtakeWhile (p := (· = '0')) (l := ds)]
    rw [hback, Nat.ofDigitChars_append, Nat.ofDigitChars_replicate_zero, Nat.mul_comm]
    rfl
  · have bound := ofDigitChars_lt (ds.rdropWhile (· = '0'))
      (fun c hc => inner c ((List.rdropWhile_prefix _ _).subset hc)) 0
    rwa [Nat.zero_add, Nat.one_mul] at bound

/-! ## Texts that are read as a number -/

/-- Behind its digits a decimal ends, or its exponent begins. -/
theorem mantissa_ending {digits n : Nat} {exponent places : Int} {rest : List Char}
    (h : (match rest with
      | [] => some (n, -places)
      | mark :: more =>
        if mark = 'e' ∨ mark = 'E' then (exponent? more).map (fun e => (n, e - places))
        else none) = some (digits, exponent)) :
    digits = n ∧ mantissa rest = [] := by
  split at h
  · exact ⟨(congrArg Prod.fst (Option.some.inj h)).symm, rfl⟩
  · split at h
    · next mark =>
      obtain ⟨e, -, same⟩ := Option.map_eq_some_iff.mp h
      exact ⟨(congrArg Prod.fst same).symm, mantissa_exponent mark _⟩
    · cases h

/-- The digits of a decimal are those of its text. -/
theorem digits_of_decimal? {cs : List Char} {digits : Nat} {exponent : Int}
    (read : decimal? cs = some (digits, exponent)) :
    digits = Nat.ofDigitChars 10 (mantissa cs) 0 := by
  have isDigit {l : List Char} : ∀ c ∈ l.takeWhile Char.isDigit, c.isDigit = true :=
    fun c => List.mem_takeWhile_imp
  have whole := List.takeWhile_append_dropWhile (p := Char.isDigit) (l := cs)
  unfold decimal? at read
  dsimp only at read
  rw [← whole, mantissa_append isDigit]
  generalize cs.dropWhile Char.isDigit = rest at read ⊢
  split at read
  · next more =>
    have fraction := List.takeWhile_append_dropWhile (p := Char.isDigit) (l := more)
    dsimp only at read
    split at read
    · cases read
    · obtain ⟨rfl, empty⟩ := mantissa_ending read
      rw [mantissa_cons (by decide) (by decide), ← fraction, mantissa_append isDigit, fraction,
        empty, List.append_nil]
  · dsimp only at read
    split at read
    · cases read
    · obtain ⟨rfl, empty⟩ := mantissa_ending read
      rw [empty]

theorem decimalCode_of_unsigned? {negative : Bool} {cs : List Char} {x : Binary64}
    (read : unsigned? negative cs = some x) (nonzero : x.code ≠ 0)
    (finite : x.code < infinityCode) :
    ∃ exponent, decimalCode (Nat.ofDigitChars 10 (mantissa cs) 0) exponent = x.code := by
  unfold unsigned? at read
  split at read
  · next digits exponent decimal =>
    obtain rfl := digits_of_decimal? decimal
    exact ⟨exponent, decimalCode_of_ofDecimal (Option.some.inj read) nonzero finite⟩
  · -- the words are read as infinities and NaNs
    dsimp only at read
    split at read
    · obtain rfl := Option.some.inj read
      cases negative <;> exact absurd finite (by decide)
    · split at read
      · obtain rfl := Option.some.inj read
        cases negative <;> exact absurd finite (by decide)
      · cases read

/-- **A text that is read as a finite number other than zero** is a decimal of its significant
digits that has the number as nearest. -/
theorem decimalCode_of_parse {text : List Char} {x : Binary64} (read : parse text = .ok x)
    (nonzero : x.code ≠ 0) (finite : x.code < infinityCode) :
    ∃ d exponent, decimalCode d exponent = x.code ∧ d < 10 ^ significantDigits text := by
  have unsigned : ∃ exponent,
      decimalCode (Nat.ofDigitChars 10 (mantissa text) 0) exponent = x.code := by
    unfold parse at read
    dsimp only at read
    split at read
    · next found =>
      obtain rfl := Except.ok.inj read
      split at found
      · rw [mantissa_cons (by decide) (by decide)]
        exact decimalCode_of_unsigned? found nonzero finite
      · rw [mantissa_cons (by decide) (by decide)]
        exact decimalCode_of_unsigned? found nonzero finite
      · exact decimalCode_of_unsigned? found nonzero finite
    · cases read
  obtain ⟨exponent, near⟩ := unsigned
  obtain ⟨d, zeros, value, few⟩ := exists_significand_of_mantissa text
  rw [value, decimalCode_shift] at near
  exact ⟨d, _, near, few⟩

/-! ## The shortest text -/

theorem mantissa_positional (digits place : Nat) :
    ∃ front back, mantissa (positional digits place) =
      List.replicate front '0' ++ (Nat.toDigits 10 digits ++ List.replicate back '0') := by
  have digit : ∀ c ∈ Nat.toDigits 10 digits, c.isDigit = true := fun _ => isDigit_of_mem
  have zero (n : Nat) : ∀ c ∈ List.replicate n '0', c.isDigit = true := fun c hc => by
    rw [(List.mem_replicate.mp hc).2]
    rfl
  have all {l : List Char} (h : ∀ c ∈ l, c.isDigit = true) : mantissa l = l := by
    have := mantissa_append h []
    rwa [List.append_nil, show mantissa [] = [] from rfl, List.append_nil] at this
  unfold positional
  dsimp only
  split
  · refine ⟨0, place - finestPlace, ?_⟩
    rw [mantissa_append digit, all (zero _)]
    rfl
  · split
    · refine ⟨0, 0, ?_⟩
      rw [mantissa_append fun c hc => digit c (List.mem_of_mem_take hc),
        mantissa_cons (by decide) (by decide), all fun c hc => digit c (List.mem_of_mem_drop hc),
        List.take_append_drop]
      simp
    · generalize finestPlace - place - (Nat.toDigits 10 digits).length = front
      refine ⟨front + 1, 0, ?_⟩
      rw [show '0' :: '.' :: (List.replicate front '0' ++ Nat.toDigits 10 digits) =
          List.replicate 1 '0' ++ '.' :: (List.replicate front '0' ++ Nat.toDigits 10 digits)
          from rfl,
        mantissa_append (zero 1), mantissa_cons (by decide) (by decide),
        mantissa_append (zero front), all digit, Nat.add_comm,
        ← List.replicate_append_replicate, List.append_assoc]
      simp

/-- **No text of a number has fewer significant digits than the shortest one.** -/
theorem significantDigits_toChars_le {x : Binary64} (finite : x.isFinite = true)
    (nonzero : x.code ≠ 0) {text : List Char} (read : parse text = .ok x) :
    significantDigits x.toChars ≤ significantDigits text := by
  have small : x.code < infinityCode := of_decide_eq_true finite
  obtain ⟨d, exponent, near, few⟩ := decimalCode_of_parse read nonzero small
  refine Nat.le_trans ?_ (length_shortest_le small (Nat.pos_of_ne_zero nonzero) near few)
  have number : x.isNaN = false := decide_eq_false (by omega)
  have infinite : x.isInfinite = false := beq_false_of_ne (by omega)
  obtain ⟨front, back, digits⟩ := mantissa_positional (shortest x.code).1 (shortest x.code).2
  unfold toChars
  dsimp only
  rw [number, infinite, if_neg Bool.false_ne_true, if_neg Bool.false_ne_true, if_neg nonzero]
  split
  · exact significantDigits_le (by rw [mantissa_cons (by decide) (by decide), digits])
  · exact significantDigits_le digits

end Binary64

/-! ## Members -/

open Binary64 in
/-- **Members give their values back.**  Whatever the timestamp and the score are, the member of a
value is read as the value bit for bit, a NaN as a NaN; and no text that is read as a finite value
other than zero has fewer significant digits than the text of the value in members. -/
theorem decodeMember_exact (time : UInt64) (score value : Binary64) :
    (value.isNaN = false → decodeMember (encodeScored time score value).member = .ok value) ∧
      (value.isNaN = true → ∃ read, decodeMember (encodeScored time score value).member = .ok read ∧
        read.isNaN = true) ∧
      memberValue (encodeScored time score value).member = value.toChars ∧
      (value.isFinite = true → value.code ≠ 0 → ∀ text, parse text = .ok value →
        significantDigits value.toChars ≤ significantDigits text) := by
  have decoded := decodeMember_encodeScored time score value
  refine ⟨fun number => ?_, fun nan => ?_, memberValue_encodeScored time score value,
    fun finite nonzero text read => significantDigits_toChars_le finite nonzero read⟩
  · rw [decoded, canonical, number]
    rfl
  · rw [canonical, nan] at decoded
    exact ⟨_, decoded, rfl⟩

open Binary64 in
/-- The smallest number but zero, a NaN with a payload, and a tenth, which needs one digit. -/
theorem decodeMember_smallest :
    decodeMember (encodeScored 1000 zero ⟨1⟩).member = .ok ⟨1⟩ ∧
      (∃ read, decodeMember (encodeScored 1000 zero ⟨0xfff0000000000001⟩).member = .ok read ∧
        read.isNaN = true) ∧
      parse ['1', 'e', '-', '1'] = .ok ⟨0x3fb999999999999a⟩ ∧
      significantDigits (toChars ⟨0x3fb999999999999a⟩) ≤ 1 :=
  ⟨(decodeMember_exact 1000 zero ⟨1⟩).1 (by decide),
    (decodeMember_exact 1000 zero ⟨0xfff0000000000001⟩).2.1 (by decide),
    by decide +kernel,
    (decodeMember_exact 1000 zero ⟨0x3fb999999999999a⟩).2.2.2 (by decide) (by decide)
      ['1', 'e', '-', '1'] (by decide +kernel)⟩

end SeriesStorage

import SeriesStorage.Number.Literal

/-!
# Numbers as digits

Whole numbers are read back from their decimal text (`word?_toString`, `integer?_toString`), so that
different numbers have different texts.  The text of a natural number consists of digits only
(`isDigit_of_mem`), which tells where it ends inside a longer text (`takeWhile_toDigits`,
`dropWhile_toDigits`).
-/

namespace SeriesStorage

/-! ## Rows of digits -/

theorem isDigit_of_mem {c : Char} {n : Nat} (h : c ∈ Nat.toDigits 10 n) : c.isDigit = true :=
  Nat.isDigit_of_mem_toDigits (by decide) (by decide) h

theorem digitValue?_of_isDigit {c : Char} (h : c.isDigit = true) :
    digitValue? 10 c = some (c.toNat - '0'.toNat) := by
  simp only [Char.isDigit, Bool.and_eq_true, decide_eq_true_eq, ge_iff_le] at h
  have low : '0' ≤ c := h.1
  have high : c ≤ '9' := h.2
  have bound : c.toNat ≤ 57 := h.2
  unfold digitValue?
  rw [if_pos ⟨low, high⟩, Option.filter_some, if_pos]
  simp
  omega

/-- A row of digits is read as the number that it writes. -/
theorem digits?_of_isDigit {cs : List Char} (nonempty : cs ≠ []) (h : ∀ c ∈ cs, c.isDigit = true) :
    digits? 10 cs = some (Nat.ofDigitChars 10 cs 0) := by
  have run : ∀ (ds : List Char) (n : Nat), (∀ c ∈ ds, c.isDigit = true) →
      ds.foldl (fun n c => do return (← n) * 10 + (← digitValue? 10 c)) (some n) =
        some (Nat.ofDigitChars 10 ds n) := by
    intro ds
    induction ds with
    | nil =>
      intro n _
      rw [List.foldl_nil, Nat.ofDigitChars_nil]
    | cons d ds ih =>
      intro n hd
      rw [List.foldl_cons, Nat.ofDigitChars_cons, digitValue?_of_isDigit (hd d (by simp)),
        Nat.mul_comm 10 n]
      exact ih _ fun c hc => hd c (by simp [hc])
  cases cs with
  | nil => exact absurd rfl nonempty
  | cons c cs => exact run (c :: cs) 0 h

theorem digits?_toDigits (n : Nat) : digits? 10 (Nat.toDigits 10 n) = some n := by
  rw [digits?_of_isDigit Nat.toDigits_ne_nil fun c => isDigit_of_mem, Nat.ofDigitChars_ten_toDigits]

/-- A number does not begin with a sign. -/
theorem toDigits_ne_cons {n : Nat} {c : Char} (h : c.isDigit = false) (rest : List Char) :
    Nat.toDigits 10 n ≠ c :: rest := by
  intro heq
  have : c ∈ Nat.toDigits 10 n := by
    rw [heq]
    exact List.mem_cons_self
  rw [isDigit_of_mem this] at h
  cases h

theorem natural?_toDigits {n limit : Nat} (h : n ≤ limit) :
    natural? 10 limit (Nat.toDigits 10 n) = some n := by
  unfold natural?
  split
  · next rest heq => exact absurd heq (toDigits_ne_cons (by decide) rest)
  · rw [digits?_toDigits]
    simp [h]

theorem takeWhile_toDigits (n : Nat) {rest : List Char} (h : ∀ c ∈ rest.head?, c.isDigit = false) :
    (Nat.toDigits 10 n ++ rest).takeWhile Char.isDigit = Nat.toDigits 10 n := by
  rw [List.takeWhile_append_of_pos fun c => isDigit_of_mem]
  cases rest with
  | nil => simp
  | cons c rest => simp [h c (by simp)]

theorem dropWhile_toDigits (n : Nat) {rest : List Char} (h : ∀ c ∈ rest.head?, c.isDigit = false) :
    (Nat.toDigits 10 n ++ rest).dropWhile Char.isDigit = rest := by
  rw [List.dropWhile_append_of_pos fun c => isDigit_of_mem]
  cases rest with
  | nil => rfl
  | cons c rest => simp [h c (by simp)]

/-! ## Texts of numbers -/

theorem toList_natText (n : Nat) : (toString n).toList = Nat.toDigits 10 n := by
  rw [Nat.toString_eq_repr, Nat.toList_repr]

theorem toList_intText (n : Int) :
    (toString n).toList =
      if 0 ≤ n then Nat.toDigits 10 n.toNat else '-' :: Nat.toDigits 10 (-n).toNat := by
  rw [Int.toString_eq_repr, Int.repr_eq_if]
  split
  · rw [Nat.toList_repr]
  · rw [String.toList_append, Nat.toList_repr]
    rfl

/-- A word is read back from its text. -/
theorem word?_toString (n : UInt64) : word? (toString n.toNat) = some n := by
  have : n.toNat ≤ maxUInt64 := Nat.le_of_lt_succ n.toNat_lt
  unfold word?
  rw [toList_natText, natural?_toDigits this]
  simp

/-- A whole number is read back from its text. -/
theorem integer?_toString {n : Int} {limit : Nat} (low : -(limit : Int) - 1 ≤ n)
    (high : n ≤ limit) : integer? 10 limit (toString n).toList = some n := by
  rw [toList_intText]
  split
  · unfold integer?
    split
    · next rest heq => exact absurd heq (toDigits_ne_cons (by decide) rest)
    · rw [natural?_toDigits (by omega)]
      simp
      omega
  · have small : (-n).toNat ≤ limit + 1 := by omega
    simp only [integer?, digits?_toDigits, Option.filter_some, decide_eq_true small, if_true]
    show some (-((-n).toNat : Int)) = some n
    rw [Int.toNat_of_nonneg (by omega), Int.neg_neg]

theorem natText_inj {m n : Nat} : toString m = toString n ↔ m = n := by
  constructor
  · intro h
    have := congrArg String.toList h
    rw [toList_natText, toList_natText] at this
    have := congrArg (fun cs => Nat.ofDigitChars 10 cs 0) this
    simpa using this
  · rintro rfl
    rfl

theorem intText_inj {m n : Int} : toString m = toString n ↔ m = n := by
  constructor
  · intro h
    have hm := @integer?_toString m (m.natAbs + n.natAbs) (by omega) (by omega)
    have hn := @integer?_toString n (m.natAbs + n.natAbs) (by omega) (by omega)
    rw [h, hn] at hm
    exact (Option.some.inj hm).symm
  · rintro rfl
    rfl

end SeriesStorage

import SeriesStorage.Json.Reader
import SeriesStorage.Proofs.Number.Digits

/-!
# Compact texts are read back

A value without fractions, whose whole numbers are in range, is read back from its compact text
(`parse_toText`).  Inside a longer text it is read up to its own end, as long as what follows cannot
go on a number (`Ends`); so the values inside arrays and objects are read one after the other
(`reads_render`).
-/

namespace SeriesStorage

namespace Json

open Reader

/-! ## Plain values -/

mutual

/-- A value without fractions, whose whole numbers are in range. -/
def Plain : Json → Prop
  | .null => True
  | .bool _ => True
  | .integer n => -0x8000000000000000 ≤ n ∧ n ≤ 0xffffffffffffffff
  | .float _ => False
  | .string _ => True
  | .array items => PlainItems items
  | .object members => PlainMembers members
  | .unreadable => False

def PlainItems : List Json → Prop
  | [] => True
  | item :: rest => Plain item ∧ PlainItems rest

def PlainMembers : List (String × Json) → Prop
  | [] => True
  | (_, value) :: rest => Plain value ∧ PlainMembers rest

end

/-- What follows a value does not go on a number. -/
def Ends (rest : List Char) : Prop :=
  ∀ c ∈ rest.head?, c.isDigit = false ∧ c ≠ '.' ∧ c ≠ 'e' ∧ c ≠ 'E'

theorem ends_nil : Ends [] := by
  intro c hc
  cases hc

theorem ends_cons {c : Char} {rest : List Char} (digit : c.isDigit = false) (point : c ≠ '.')
    (small : c ≠ 'e') (large : c ≠ 'E') : Ends (c :: rest) := by
  intro d hd
  obtain rfl := Option.some.inj hd
  exact ⟨digit, point, small, large⟩

/-! ## Numbers -/

theorem toDigits_eq_zero_cons {n : Nat} {cs : List Char} (h : Nat.toDigits 10 n = '0' :: cs) :
    n = 0 := by
  induction n using Nat.base_induction 10 (by decide) generalizing cs with
  | single m hm =>
    rw [Nat.toDigits_of_lt_base hm] at h
    have := congrArg Char.toNat (List.cons.inj h).1
    rw [Nat.toNat_digitChar_of_lt_ten hm] at this
    simpa using this
  | digit m k hk hm ih =>
    rw [← Nat.toDigits_append_toDigits (by decide) hm hk] at h
    cases first : Nat.toDigits 10 m with
    | nil => exact absurd first Nat.toDigits_ne_nil
    | cons c rest =>
      rw [first] at h
      obtain rfl := (List.cons.inj h).1
      have := ih first
      omega

theorem le_ofDigitChars (digits : List Char) (n : Nat) : n ≤ Nat.ofDigitChars 10 digits n := by
  induction digits generalizing n with
  | nil => simp
  | cons c rest ih =>
    rw [Nat.ofDigitChars_cons]
    have := ih (10 * n + (c.toNat - '0'.toNat))
    omega

theorem extend_of_le {digits : List Char} {n : Nat}
    (h : Nat.ofDigitChars 10 digits n ≤ maxUInt64) :
    extend n digits = (Nat.ofDigitChars 10 digits n, 0) := by
  induction digits generalizing n with
  | nil => rw [Nat.ofDigitChars_nil]; rfl
  | cons c rest ih =>
    rw [Nat.ofDigitChars_cons] at h ⊢
    have small := Nat.le_trans (le_ofDigitChars rest _) h
    rw [Nat.mul_comm 10 n] at small
    have step : extend n (c :: rest) = extend (n * 10 + (c.toNat - '0'.toNat)) rest := by
      simp only [extend, List.foldl_cons, small, and_self, if_true]
    rw [step, Nat.mul_comm 10 n]
    rw [Nat.mul_comm 10 n] at h
    exact ih h

/-- Reading the digits of a number, and what its sign makes of it. -/
theorem number_toDigits {n : Nat} {rest : List Char} (negative : Bool) (small : n ≤ maxUInt64)
    (ends : Ends rest) (signed : negative = true → 0 < n ∧ n ≤ 0x8000000000000000) :
    number .skim negative (Nat.toDigits 10 n ++ rest) =
      .ok (.integer (if negative then -(n : Int) else n), rest) := by
  have stop : ∀ c ∈ rest.head?, c.isDigit = false := fun c hc => (ends c hc).1
  have digits : extend 0 (Nat.toDigits 10 n) = (n, 0) := by
    rw [extend_of_le] <;> rw [Nat.ofDigitChars_ten_toDigits]
    exact small
  have tail : numberTail .skim negative n 0 rest =
      .ok (.integer (if negative then -(n : Int) else n), rest) := by
    unfold numberTail
    split
    · exact absurd rfl (ends _ rfl).2.1
    · exact absurd rfl (ends _ rfl).2.2.1
    · exact absurd rfl (ends _ rfl).2.2.2
    · cases negative with
      | false => rfl
      | true =>
        have := signed rfl
        rw [if_neg (by decide), if_pos rfl, if_neg (by omega)]
        rfl
  unfold number
  rw [takeWhile_toDigits n stop, dropWhile_toDigits n stop]
  dsimp only
  split
  · next heq => exact absurd heq Nat.toDigits_ne_nil
  · next heq =>
    obtain rfl := toDigits_eq_zero_cons heq
    rw [Nat.toDigits_zero] at heq
    cases heq
  · rw [digits]
    exact tail

/-! ## Strings -/

theorem length_escapeChar_pos (c : Char) : 0 < (escapeChar c).length := by
  unfold escapeChar
  repeat' split
  all_goals simp

theorem hexUnit_control : ∀ n < 32, digits? 16 ['0', '0', hexDigit (n / 16), hexDigit n] = some n ∧
    octetCount ['0', '0', hexDigit (n / 16), hexDigit n] = 4 := by decide

theorem unicodeEscape_control {n : Nat} (h : n < 32) (rest : List Char) :
    unicodeEscape .skim ('0' :: '0' :: hexDigit (n / 16) :: hexDigit n :: rest) =
      .ok (some (Char.ofNat n), rest) := by
  obtain ⟨value, octets⟩ := hexUnit_control n h
  have unit : hexUnit ('0' :: '0' :: hexDigit (n / 16) :: hexDigit n :: rest) = .ok (n, rest) := by
    unfold hexUnit
    rw [show ('0' :: '0' :: hexDigit (n / 16) :: hexDigit n :: rest).take 4 =
      ['0', '0', hexDigit (n / 16), hexDigit n] from rfl, octets, value]
    rfl
  unfold unicodeEscape
  rw [unit]
  have low : isLowSurrogate n = false := by
    simp only [isLowSurrogate, Bool.and_eq_false_iff, decide_eq_false_iff_not]
    omega
  have high : isHighSurrogate n = false := by
    simp only [isHighSurrogate, Bool.and_eq_false_iff, decide_eq_false_iff_not]
    omega
  simp [low, high]

/-- One character of a string is read back. -/
theorem stringTail_escapeChar (c : Char) (bound : Nat) (read rest : List Char) :
    stringTail .skim (bound + 1) (some read) (escapeChar c ++ rest) =
      stringTail .skim bound (some (c :: read)) rest := by
  have plain : ∀ (n : Nat) (d : Char), c.toNat = n → d.toNat = n → c = d :=
    fun n d hc hd => Char.toNat_inj.mp (hc.trans hd.symm)
  unfold escapeChar
  split
  · next h => subst h; rfl
  split
  · next h => subst h; rfl
  split
  · next h => obtain rfl := plain 8 '\x08' h rfl; rfl
  split
  · next h => obtain rfl := plain 9 '\t' h rfl; rfl
  split
  · next h => obtain rfl := plain 10 '\n' h rfl; rfl
  split
  · next h => obtain rfl := plain 12 '\x0c' h rfl; rfl
  split
  · next h => obtain rfl := plain 13 '\r' h rfl; rfl
  split
  · next h =>
    simp only [List.cons_append, List.nil_append, stringTail, escape, unicodeEscape_control h,
      Char.ofNat_toNat]
    rfl
  · next quote backslash _ _ _ _ _ control =>
    simp only [List.cons_append, List.nil_append, stringTail, quote, backslash, control, if_false]
    rfl

theorem stringTail_escaped (s : List Char) {bound : Nat} (enough : s.length < bound)
    (read rest : List Char) :
    stringTail .skim bound (some read) (s.flatMap escapeChar ++ '"' :: rest) =
      .ok (some (read.reverse ++ s), rest) := by
  induction s generalizing bound read with
  | nil =>
    obtain ⟨b, rfl⟩ : ∃ b, bound = b + 1 := ⟨bound - 1, by simp at enough; omega⟩
    simp [stringTail]
  | cons c s ih =>
    obtain ⟨b, rfl⟩ : ∃ b, bound = b + 1 := ⟨bound - 1, by simp at enough; omega⟩
    rw [List.flatMap_cons, List.append_assoc, stringTail_escapeChar,
      ih (by simp at enough; omega)]
    simp

/-- A string is read back behind its opening quote. -/
theorem string_quoted (s : String) (rest : List Char) :
    Reader.string .skim (s.toList.flatMap escapeChar ++ '"' :: rest) = .ok (some s, rest) := by
  have long : s.toList.length ≤ (s.toList.flatMap escapeChar).length := by
    generalize s.toList = cs
    induction cs with
    | nil => simp
    | cons c cs ih =>
      have := length_escapeChar_pos c
      simp only [List.flatMap_cons, List.length_append, List.length_cons]
      omega
  unfold Reader.string
  rw [stringTail_escaped]
  · simp [Except.map]
  · simp only [List.length_append, List.length_cons]
    omega

/-! ## Values -/

/-- A text that begins with a value: not with a blank, and not with the end of a list. -/
def Begins (cs : List Char) : Prop := ∃ c rest, cs = c :: rest ∧ Reader.isBlank c = false ∧ c ≠ ']'

theorem Begins.append {cs : List Char} (h : Begins cs) (rest : List Char) :
    Begins (cs ++ rest) := by
  obtain ⟨c, more, rfl, hc⟩ := h
  exact ⟨c, more ++ rest, rfl, hc⟩

theorem begins_of_isDigit {c : Char} (digit : c.isDigit = true) (rest : List Char) :
    Begins (c :: rest) := by
  refine ⟨c, rest, rfl, ?_, ?_⟩
  · by_cases blank : Reader.isBlank c = true
    · simp only [Reader.isBlank, Bool.or_eq_true, decide_eq_true_eq] at blank
      rcases blank with ((rfl | rfl) | rfl) | rfl <;> cases digit
    · simpa using blank
  · rintro rfl
    cases digit

theorem exists_toDigits_eq_cons (n : Nat) :
    ∃ c rest, Nat.toDigits 10 n = c :: rest ∧ c.isDigit = true := by
  cases h : Nat.toDigits 10 n with
  | nil => exact absurd h Nat.toDigits_ne_nil
  | cons c rest =>
    exact ⟨c, rest, rfl, isDigit_of_mem (by rw [h]; exact List.mem_cons_self)⟩

theorem begins_render {v : Json} (h : Plain v) : Begins (render v) := by
  cases v with
  | null => exact ⟨_, _, rfl, by decide, by decide⟩
  | bool b => cases b <;> exact ⟨_, _, rfl, by decide, by decide⟩
  | integer n =>
    show Begins (toString n).toList
    rw [toList_intText]
    split
    · obtain ⟨c, rest, digits, digit⟩ := exists_toDigits_eq_cons n.toNat
      rw [digits]
      exact begins_of_isDigit digit rest
    · exact ⟨_, _, rfl, by decide, by decide⟩
  | float x => exact absurd h id
  | string s => exact ⟨_, _, rfl, by decide, by decide⟩
  | array items => exact ⟨_, _, rfl, by decide, by decide⟩
  | object members => exact ⟨_, _, rfl, by decide, by decide⟩
  | unreadable => exact absurd h id

theorem skipBlanks_of_begins {cs : List Char} (h : Begins cs) : skipBlanks cs = cs := by
  obtain ⟨c, rest, rfl, blank, _⟩ := h
  simp [skipBlanks, blank]

/-- Behind blanks a digit starts a number. -/
theorem value_of_isDigit {c : Char} (digit : c.isDigit = true) (bound : Nat) (rest : List Char) :
    value .skim (bound + 1) (c :: rest) = number .skim false (c :: rest) := by
  rw [value, skipBlanks_of_begins (begins_of_isDigit digit rest)]
  dsimp only
  split
  case h_8 => rw [if_pos digit]
  -- the characters that begin something else are no digits
  all_goals cases digit

theorem value_integer {n : Int} (h : Plain (.integer n)) (bound : Nat) {rest : List Char}
    (ends : Ends rest) :
    value .skim (bound + 1) ((toString n).toList ++ rest) = .ok (.integer n, rest) := by
  obtain ⟨low, high⟩ := h
  rw [toList_intText]
  split
  · next nonneg =>
    have read := number_toDigits (n := n.toNat) false (by unfold maxUInt64; omega) ends (by simp)
    obtain ⟨c, ds, digits, digit⟩ := exists_toDigits_eq_cons n.toNat
    rw [digits, List.cons_append, value_of_isDigit digit, ← List.cons_append, ← digits, read,
      if_neg (by simp), Int.toNat_of_nonneg nonneg]
  · next neg =>
    have read := number_toDigits (n := (-n).toNat) true (by unfold maxUInt64; omega) ends
      (fun _ => by omega)
    rw [if_pos rfl, Int.toNat_of_nonneg (by omega), Int.neg_neg] at read
    rw [value]
    exact read

theorem renderItems_cons_cons (item next : Json) (more : List Json) :
    renderItems (item :: next :: more) = render item ++ ',' :: renderItems (next :: more) := rfl

theorem begins_renderItems {item : Json} {more : List Json} (plain : PlainItems (item :: more)) :
    Begins (renderItems (item :: more)) := by
  cases more with
  | nil => exact begins_render plain.1
  | cons next more => exact (begins_render plain.1).append _

theorem renderMembers_eq (key : String) (v : Json) (more : List (String × Json)) :
    ∃ cs, renderMembers ((key, v) :: more) = '"' :: cs := by
  cases more <;> exact ⟨_, rfl⟩

/-- Before a value neither the end of the text nor that of the list is met. -/
theorem skipBlanks_cases {α : Type} {cs : List Char} (h : Begins cs) (atEnd : α)
    (close : List Char → α) (other : α) :
    (match skipBlanks cs with
      | [] => atEnd
      | ']' :: rest => close rest
      | _ => other) = other := by
  rw [skipBlanks_of_begins h]
  obtain ⟨c, rest, rfl, _, open_⟩ := h
  split
  · next heq => cases heq
  · next heq => exact absurd (List.cons.inj heq).1 open_
  · rfl

/-- Values are read back within a bound. -/
def ReadsValues (bound : Nat) : Prop :=
  ∀ v rest, Plain v → Ends rest → 2 * (render v).length ≤ bound →
    value .skim bound (render v ++ rest) = .ok (v, rest)

/-- Items are read back within a bound. -/
def ReadsItems (bound : Nat) : Prop :=
  ∀ more read rest, PlainItems more → more ≠ [] → 2 * (renderItems more).length + 1 ≤ bound →
    items .skim bound read (renderItems more ++ ']' :: rest) =
      .ok (.array (read.reverse ++ more), rest)

/-- Members are read back within a bound. -/
def ReadsMembers (bound : Nat) : Prop :=
  ∀ more read rest, PlainMembers more → more ≠ [] →
    2 * (renderMembers more).length + 1 ≤ bound →
    members .skim bound (some read) (renderMembers more ++ '}' :: rest) =
      .ok (.object (read.reverse ++ more), rest)

theorem ReadsValues.succ {bound : Nat} (itemsRead : ReadsItems bound)
    (membersRead : ReadsMembers bound) : ReadsValues (bound + 1) := by
  intro v rest plain ends small
  cases v with
  | null => rw [value]; rfl
  | bool b => cases b <;> (rw [value]; rfl)
  | integer n => exact value_integer plain bound ends
  | float x => exact absurd plain id
  | string s =>
    have read := string_quoted s rest
    rw [value, render, quote, List.cons_append, List.append_assoc]
    show (Reader.string .skim (_ ++ '"' :: rest)).map _ = _
    rw [read]
    rfl
  | array more =>
    cases more with
    | nil => rw [value]; rfl
    | cons item more =>
      have inner := itemsRead (item :: more) [] rest plain (by simp) (by
        simp only [render, List.length_cons, List.length_append, List.length_nil] at small
        omega)
      rw [value, render, List.cons_append, List.append_assoc, List.singleton_append]
      exact (skipBlanks_cases ((begins_renderItems plain).append _) _ _ _).trans inner
  | object more =>
    cases more with
    | nil => rw [value]; rfl
    | cons member more =>
      obtain ⟨key, v⟩ := member
      have inner := membersRead ((key, v) :: more) [] rest plain (by simp) (by
        simp only [render, List.length_cons, List.length_append, List.length_nil] at small
        omega)
      obtain ⟨cs, hcs⟩ := renderMembers_eq key v more
      rw [value, render, List.cons_append, List.append_assoc, List.singleton_append]
      rw [hcs, List.cons_append] at inner ⊢
      exact inner
  | unreadable => exact absurd plain id

theorem ReadsItems.succ {bound : Nat} (valuesRead : ReadsValues bound)
    (itemsRead : ReadsItems bound) : ReadsItems (bound + 1) := by
  intro more read rest plain nonempty small
  cases more with
  | nil => exact absurd rfl nonempty
  | cons item more =>
    obtain ⟨plainItem, plainMore⟩ := plain
    cases more with
    | nil =>
      have first := valuesRead item (']' :: rest) plainItem
        (ends_cons (by decide) (by decide) (by decide) (by decide)) (by
          simp only [renderItems] at small
          omega)
      rw [items, renderItems, first]
      simp [skipBlanks, Reader.isBlank]
    | cons next more =>
      simp only [renderItems, List.length_append, List.length_cons] at small
      have first := valuesRead item (',' :: (renderItems (next :: more) ++ ']' :: rest)) plainItem
        (ends_cons (by decide) (by decide) (by decide) (by decide)) (by omega)
      have others := itemsRead (next :: more) (item :: read) rest plainMore (by simp) (by omega)
      rw [items, renderItems_cons_cons, List.append_assoc, List.cons_append, first]
      refine (skipBlanks_cases ((begins_renderItems plainMore).append _) _ _ _).trans ?_
      rw [others]
      simp

theorem ReadsMembers.succ {bound : Nat} (valuesRead : ReadsValues bound)
    (membersRead : ReadsMembers bound) : ReadsMembers (bound + 1) := by
  intro more read rest plain nonempty small
  cases more with
  | nil => exact absurd rfl nonempty
  | cons member more =>
    obtain ⟨key, v⟩ := member
    obtain ⟨plainItem, plainMore⟩ := plain
    have name := fun tail => string_quoted key tail
    cases more with
    | nil =>
      simp only [renderMembers, quote, List.length_append, List.length_cons] at small
      have first := valuesRead v ('}' :: rest) plainItem
        (ends_cons (by decide) (by decide) (by decide) (by decide)) (by omega)
      simp only [renderMembers, quote, List.append_assoc, List.cons_append, List.nil_append]
      simp [members, skipBlanks, Reader.isBlank, name, first]
    | cons next more =>
      obtain ⟨nextKey, w⟩ := next
      simp only [renderMembers, quote, List.length_append, List.length_cons] at small
      have first := valuesRead v (',' :: (renderMembers ((nextKey, w) :: more) ++ '}' :: rest))
        plainItem (ends_cons (by decide) (by decide) (by decide) (by decide)) (by omega)
      have others := membersRead ((nextKey, w) :: more) ((key, v) :: read) rest plainMore
        (by simp) (by omega)
      obtain ⟨cs, hcs⟩ := renderMembers_eq nextKey w more
      simp only [renderMembers, quote, List.append_assoc, List.cons_append, List.nil_append]
      rw [hcs, List.cons_append] at first others ⊢
      simpa [members, skipBlanks, Reader.isBlank, name, first] using others

/-- With a bound of twice the length, values, items and members are read back. -/
theorem reads_render (bound : Nat) : ReadsValues bound ∧ ReadsItems bound ∧ ReadsMembers bound := by
  induction bound with
  | zero =>
    refine ⟨fun v rest plain _ small => ?_, fun _ _ _ _ _ small => ?_, fun _ _ _ _ _ small => ?_⟩
    · obtain ⟨c, cs, hcs, _⟩ := begins_render plain
      rw [hcs] at small
      simp at small
    · omega
    · omega
  | succ bound ih =>
    obtain ⟨valuesRead, itemsRead, membersRead⟩ := ih
    exact ⟨ReadsValues.succ itemsRead membersRead, ReadsItems.succ valuesRead itemsRead,
      ReadsMembers.succ valuesRead membersRead⟩

theorem value_render {v : Json} (plain : Plain v) {rest : List Char} (ends : Ends rest)
    {bound : Nat} (enough : 2 * (render v).length ≤ bound) :
    value .skim bound (render v ++ rest) = .ok (v, rest) :=
  (reads_render bound).1 v rest plain ends enough

/-- **A plain value is read back from its text.** -/
theorem parse_toText {v : Json} (plain : Plain v) : parse v.toText = .ok v := by
  have read := value_render plain ends_nil (show 2 * (render v).length ≤ 2 * (render v).length + 2
    by omega)
  rw [List.append_nil] at read
  unfold parse parseFor toText
  rw [String.toList_ofList, read]
  rfl

end Json

end SeriesStorage

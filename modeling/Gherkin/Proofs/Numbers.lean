/-
  Gherkin.Proofs.Numbers
  ──────────────────────
  **AN INTEGER IS READ THE SAME HOWEVER IT IS GIVEN.**

  Data gives an integer as a number without a point, as a number with a point
  and nothing behind it, or as a text of digits.  All three stand for the same
  integer up to the precision to which numbers with a point are rounded:

    • `Text.IsNumeral`            — digits without a needless zero in front; the
      digits of every number are of this kind,
    • `Text.plainForm_of_isNumeral`, `Text.readNumeral_of_isNumeral` — such
      digits are in plain form already, and are read for their value,
    • `Text.readInteger_toString` — so every integer of up to `maxDigits` digits
      is read back from its own text,
    • `Decimal.whole?_ofInt`      — an integer with a point is not changed by
      rounding as long as it has a significand of 53 bits,
    • `Json.toInteger_agrees`     — the three forms together.
-/
import Gherkin.Schema.Read
import Mathlib.Data.List.TakeWhile

namespace Gherkin

namespace Text

/-! ## §1. Numerals. -/

/-- Digits that start with a zero only if that is all there is. -/
structure IsNumeral (cs : List Char) : Prop where
  digits : ∀ c ∈ cs, c.isDigit = true
  head : cs = ['0'] ∨ ∃ c rest, cs = c :: rest ∧ isNonzeroDigit c = true

theorem IsNumeral.exists_cons {cs : List Char} (h : IsNumeral cs) : ∃ c rest, cs = c :: rest := by
  obtain rfl | ⟨c, rest, rfl, -⟩ := h.head
  · exact ⟨'0', [], rfl⟩
  · exact ⟨c, rest, rfl⟩

theorem ne_zero_of_isNonzeroDigit {c : Char} (h : isNonzeroDigit c = true) : c ≠ '0' := by
  unfold isNonzeroDigit at h
  simpa using (Bool.and_eq_true_iff.1 h).2

/-- Only the digits of zero start with a zero. -/
theorem exists_head_toDigits (n : Nat) (h : n ≠ 0) :
    ∃ c rest, Nat.toDigits 10 n = c :: rest ∧ isNonzeroDigit c = true := by
  -- the last digit comes off at the end, so the first one is that of a smaller number
  rw [Nat.toDigits_eq_if (by decide)]
  split
  next hlt => exact ⟨_, [], rfl, by simp [isNonzeroDigit, hlt, h]⟩
  next hlt =>
      obtain ⟨c, rest, hdigits, hc⟩ := exists_head_toDigits (n / 10) (by omega)
      exact ⟨c, rest ++ [_], by rw [hdigits, List.cons_append], hc⟩
termination_by n
decreasing_by omega

/-- **The digits of a number** are a numeral. -/
theorem isNumeral_toDigits (n : Nat) : IsNumeral (Nat.toDigits 10 n) where
  digits _ hc := Nat.isDigit_of_mem_toDigits (by decide) (by decide) hc
  head := by
    by_cases h : n = 0
    · exact .inl (by rw [h, Nat.toDigits_zero])
    · exact .inr (exists_head_toDigits n h)

/-- The digits of a number have its value. -/
theorem digitsValue_toDigits (n : Nat) : digitsValue (Nat.toDigits 10 n) = n :=
  Nat.ofDigitChars_ten_toDigits

variable {cs : List Char}

/-- No digit is one of the other characters that may stand in a number. -/
theorem ne_of_isDigit {c d : Char} (h : c.isDigit = true) (hd : d.isDigit = false) : c ≠ d := by
  rintro rfl
  rw [h] at hd
  cases hd

/-- There is no point in digits, so no fraction is cut off. -/
theorem cutZeroFraction_of_digits (h : ∀ c ∈ cs, c.isDigit = true) : cutZeroFraction cs = cs := by
  have hpoint : cs.dropWhile (· != '.') = [] :=
    List.dropWhile_eq_nil_iff.2 fun c hc => by simpa using ne_of_isDigit (h c hc) rfl
  unfold cutZeroFraction
  rw [hpoint]

/-- There are no underscores in digits. -/
theorem dropSeparators_of_digits (h : ∀ c ∈ cs, c.isDigit = true) : dropSeparators cs = cs := by
  have hfilter : cs.filter (· != '_') = cs :=
    List.filter_eq_self.2 fun c hc => by simpa using ne_of_isDigit (h c hc) rfl
  unfold dropSeparators
  rw [hfilter, ite_self]

/-- **A numeral is in plain form.** -/
theorem plainForm_of_isNumeral (h : IsNumeral cs) : plainForm cs = some cs := by
  have hzeros : dropLeadingZeros cs = some cs := by
    obtain rfl | ⟨c, rest, rfl, hc⟩ := h.head
    · rfl
    · simp [dropLeadingZeros, ne_zero_of_isNonzeroDigit hc, hc]
  rw [plainForm, hzeros, Option.map_some, cutZeroFraction_of_digits h.digits,
    dropSeparators_of_digits h.digits]

/-- **A numeral is read** for the value of its digits. -/
theorem readNumeral_of_isNumeral (h : IsNumeral cs) (hlength : cs.length ≤ maxDigits) :
    readNumeral cs = .ok (digitsValue cs) := by
  have hdigits : cs.takeWhile Char.isDigit = cs := List.takeWhile_eq_self_iff.2 h.digits
  obtain rfl | ⟨c, rest, rfl, hc⟩ := h.head
  · rfl
  · unfold readNumeral
    rw [hdigits]
    simpa [ne_zero_of_isNonzeroDigit hc] using hlength

/-! ## §2. Integers written as texts. -/

theorem isWhiteSpace_of_isDigit {c : Char} (h : c.isDigit = true) : isWhiteSpace c = false := by
  have hrange : 48 ≤ c.toNat ∧ c.toNat ≤ 57 := Char.isDigit_iff_toNat.1 h
  grind [isWhiteSpace]

/-- Nothing is trimmed from a text without the characters that are to go. -/
theorem trimBoth_eq_self {p : Char → Bool} (h : ∀ c ∈ cs, p c = false) : trimBoth p cs = cs := by
  have hkeep : ∀ {ds : List Char}, (∀ c ∈ ds, p c = false) → ds.dropWhile p = ds := by
    intro ds hds
    refine List.dropWhile_eq_self_iff.2 fun hlength => ?_
    rw [hds _ (List.getElem_mem hlength)]
    exact Bool.false_ne_true
  unfold trimBoth
  rw [hkeep h, hkeep fun c hc => h c (List.mem_reverse.1 hc), List.reverse_reverse]

/-- A numeral stands for its value. -/
theorem readInteger_of_isNumeral {s : String} (hs : s.toList = cs) (h : IsNumeral cs)
    (hlength : cs.length ≤ maxDigits) : readInteger s = .ok (Int.ofNat (digitsValue cs)) := by
  have htrim : trimBoth isWhiteSpace cs = cs :=
    trimBoth_eq_self fun c hc => isWhiteSpace_of_isDigit (h.digits c hc)
  unfold readInteger
  rw [hs, htrim]
  obtain ⟨c, rest, rfl⟩ := h.exists_cons
  have hc : c.isDigit = true := h.digits c List.mem_cons_self
  have hminus : c ≠ '-' := ne_of_isDigit hc rfl
  have hplus : c ≠ '+' := ne_of_isDigit hc rfl
  simp only [List.cons.injEq, hminus, hplus, false_and, imp_self, implies_true, List.nil_append,
    plainForm_of_isNumeral h, readSigned, readNumeral_of_isNumeral h hlength]
  rfl

/-- A minus sign in front of a numeral negates its value. -/
theorem readInteger_of_minus {s : String} (hs : s.toList = '-' :: cs) (h : IsNumeral cs)
    (hlength : cs.length ≤ maxDigits) : readInteger s = .ok (-Int.ofNat (digitsValue cs)) := by
  have htrim : trimBoth isWhiteSpace ('-' :: cs) = '-' :: cs := by
    apply trimBoth_eq_self
    intro c hc
    rcases List.mem_cons.1 hc with rfl | hc
    · rfl
    · exact isWhiteSpace_of_isDigit (h.digits c hc)
  unfold readInteger
  rw [hs, htrim]
  simp only [plainForm_of_isNumeral h, List.cons_append, List.nil_append, readSigned,
    readNumeral_of_isNumeral h hlength]
  rfl

/-- **An integer is read back from its text** if the digits are not too many. -/
theorem readInteger_toString {n : Int} (h : (Nat.toDigits 10 n.natAbs).length ≤ maxDigits) :
    readInteger (toString n) = .ok n := by
  have hnumeral : IsNumeral (Nat.toDigits 10 n.natAbs) := isNumeral_toDigits n.natAbs
  cases n with
  | ofNat m =>
      have hlist : (toString (Int.ofNat m)).toList = Nat.toDigits 10 m := Nat.toList_repr
      rw [readInteger_of_isNumeral hlist hnumeral h, digitsValue_toDigits]
  | negSucc m =>
      have hlist : (toString (Int.negSucc m)).toList = '-' :: Nat.toDigits 10 (m + 1) := by
        show ("-" ++ (m + 1).repr).toList = _
        rw [String.toList_append, Nat.toList_repr]
        rfl
      rw [readInteger_of_minus hlist hnumeral h, digitsValue_toDigits]
      rfl

end Text

/-! ## §3. Integers written with a point. -/

namespace Decimal

theorem roundQuotient_one (a : Nat) : roundQuotient a 1 = a := by
  simp [roundQuotient, Nat.mod_one]

/-- An integer below 2⁵³ fits a significand of 53 bits without a positive power of two. -/
theorem binaryExponent_nonpos {c : Nat} (h : c < Nat.pow 2 53) : binaryExponent c 1 ≤ 0 := by
  have hlog : c.log2 < 53 := by
    by_cases hzero : c = 0
    · rw [hzero]
      decide
    · exact (Nat.log2_lt hzero).2 h
  simp only [binaryExponent]
  split <;> omega

/-- **Such an integer is not rounded**: its nearest binary number is the integer itself. -/
theorem nearestBinary_of_lt {c : Nat} (h : c < Nat.pow 2 53) :
    ∃ k : Nat, nearestBinary c 1 = (c * Nat.pow 2 k, -(k : Int)) := by
  obtain ⟨k, hk⟩ := Int.exists_eq_neg_ofNat (binaryExponent_nonpos h)
  refine ⟨k, ?_⟩
  unfold nearestBinary
  rw [hk]
  cases k with
  | zero =>
      show (roundQuotient c 1, 0) = (c * 1, 0)
      rw [roundQuotient_one, Nat.mul_one]
  | succ k =>
      show (roundQuotient (c * Nat.pow 2 (k + 1)) 1, _) = _
      rw [roundQuotient_one]

theorem wholeMagnitude?_ofInt {n : Int} (h : n.natAbs < Nat.pow 2 53) :
    (ofInt n).wholeMagnitude? = some n.natAbs := by
  obtain ⟨k, hk⟩ := nearestBinary_of_lt h
  have hfraction : (ofInt n).fraction = (n.natAbs, 1) := by
    show (n.natAbs * 1, 1) = _
    rw [Nat.mul_one]
  unfold wholeMagnitude?
  rw [hfraction, hk]
  cases k with
  | zero =>
      show some (n.natAbs * 1 * 1) = _
      rw [Nat.mul_one, Nat.mul_one]
  | succ k =>
      show (if n.natAbs * Nat.pow 2 (k + 1) % Nat.pow 2 (k + 1) = 0
        then some (n.natAbs * Nat.pow 2 (k + 1) / Nat.pow 2 (k + 1)) else none) = _
      rw [Nat.mul_mod_left, if_pos rfl]
      exact congrArg some (Nat.mul_div_cancel _ (Nat.two_pow_pos (k + 1)))

/-- **An integer below 2⁵³ with a point** stands for itself. -/
theorem whole?_ofInt {n : Int} (h : n.natAbs < Nat.pow 2 53) : (ofInt n).whole? = some n := by
  rw [whole?, wholeMagnitude?_ofInt h, Option.map_some]
  cases n with
  | ofNat m => rfl
  | negSucc m =>
      have hneg : (ofInt (Int.negSucc m)).negative = true :=
        decide_eq_true (Int.negSucc_lt_zero m)
      exact congrArg some (if_pos hneg)

/-- The bound cannot be dropped: 2⁵³ + 1 lies between two binary numbers and gives way to the even
one. -/
example : (ofInt 9007199254740993).whole? = some 9007199254740992 := by decide

theorem toInteger_of_whole {d : Decimal} {n : Int} (h : d.whole? = some n)
    (hbound : n.natAbs < Nat.pow 2 63) : d.toInteger = .ok n := by
  unfold toInteger
  rw [h]
  dsimp only
  rw [if_pos hbound]

end Decimal

/-! ## §4. The three forms of an integer. -/

/-- **An integer is read the same** as a number without a point, as one with a point, and as a
text. -/
theorem Json.toInteger_agrees {n : Int} (h : n.natAbs < Nat.pow 2 53) :
    (Json.int n).toInteger = .ok n ∧ (Json.decimal (.ofInt n)).toInteger = .ok n
      ∧ (Json.text (toString n)).toInteger = .ok n := by
  have hbound : n.natAbs < Nat.pow 2 63 := Nat.lt_of_lt_of_le h (by decide)
  have hlength : (Nat.toDigits 10 n.natAbs).length ≤ Text.maxDigits := by
    have hsixteen : (Nat.toDigits 10 n.natAbs).length ≤ 16 :=
      (Nat.length_toDigits_le_iff (by decide) (by decide)).2 (Nat.lt_of_lt_of_le h (by decide))
    exact Nat.le_trans hsixteen (by decide)
  refine ⟨?_, ?_, ?_⟩
  · rw [toInteger]
  · rw [toInteger, Decimal.toInteger_of_whole (Decimal.whole?_ofInt h) hbound]
  · rw [toInteger, Text.readInteger_toString hlength]

end Gherkin

import MessageRouter.Proofs.Code.Word
import MessageRouter.Proofs.Fallible
/-!
# `Proofs.Text.Numeral` — which texts are read as integers

* `Text.readDigits_eq_ok_iff`: in any radix, digits are read exactly if they spell a number within the limit.
* `Text.IsNumeral`: an optional sign and decimal digits, and the integer that they stand for.
* `Text.readInt_eq_ok_iff`: the numerals of the integers in a range are read, each as its integer, and nothing else is.
* `Text.isDecimal_and_eq_iff`: the digits of a positive number are those that it is written with, behind zeros.
* `Text.isNumeral_toString`: an integer is written as a numeral of it.
-/
namespace MessageRouter
namespace Text

open Code (digitsFrom?)

variable {cs digits : List Char} {radix limit value n : Nat} {offence : NumeralError}

/-! ## Digits -/

theorem digitsFrom?_cons (radix value : Nat) (c : Char) (rest : List Char) :
    digitsFrom? radix value (c :: rest) =
      (digitValue radix c).bind fun d => digitsFrom? radix (value * radix + d) rest := by
  show ((digitValue radix c).map (value * radix + ·)).bind _ = _
  rw [Option.bind_map]
  rfl

/-- More digits never spell a smaller number. -/
theorem le_of_digitsFrom? (hradix : 0 < radix) (h : digitsFrom? radix value cs = some n) : value ≤ n := by
  induction cs generalizing value with
  | nil => exact (Option.some.inj h).le
  | cons c rest ih =>
    rw [digitsFrom?_cons] at h
    obtain ⟨d, -, h⟩ := Option.bind_eq_some_iff.mp h
    calc value ≤ value * radix := Nat.le_mul_of_pos_right value hradix
      _ ≤ value * radix + d := Nat.le_add_right _ d
      _ ≤ n := ih h

/-- Digits are read exactly if they spell a number within the limit. -/
theorem readDigits_eq_ok_iff (hradix : 0 < radix) (hvalue : value ≤ limit) :
    readDigits radix limit offence value cs = .ok n ↔
      digitsFrom? radix value cs = some n ∧ n ≤ limit := by
  induction cs generalizing value with
  | nil =>
    constructor
    · intro h
      obtain rfl := Except.ok.inj h
      exact ⟨rfl, hvalue⟩
    · rintro ⟨h, -⟩
      exact congrArg Except.ok (Option.some.inj h)
  | cons c rest ih =>
    rw [readDigits, digitsFrom?_cons]
    cases digitValue radix c with
    | none =>
      constructor
      · intro h
        cases h
      · rintro ⟨h, -⟩
        cases h
    | some d =>
      rw [Option.bind_some]
      dsimp only
      split
      · next hle => exact ih hle
      · next hgt =>
        constructor
        · intro h
          cases h
        · rintro ⟨h, hn⟩
          -- a number that has passed the limit stays above it
          exact absurd ((le_of_digitsFrom? hradix h).trans hn) hgt

/-! ## Decimal digits -/

/-- The decimal digits are those of ASCII. -/
theorem digitValue_ten_eq_some_iff {c : Char} {d : Nat} :
    digitValue 10 c = some d ↔ c.isDigit = true ∧ d = c.toNat - '0'.toNat := by
  have hdigit : c.isDigit = true ↔ '0' ≤ c ∧ c ≤ '9' := by
    simp [Char.isDigit, Char.le_def]
  have hnine : c ≤ '9' ↔ c.toNat ≤ 57 := Iff.rfl
  unfold digitValue
  rw [hdigit, Option.filter_eq_some_iff]
  split
  · next h =>
    have hc := hnine.mp h.2
    simp only [Option.some.injEq, decide_eq_true_eq]
    constructor
    · rintro ⟨rfl, -⟩
      exact ⟨h, rfl⟩
    · rintro ⟨-, rfl⟩
      refine ⟨rfl, ?_⟩
      show c.toNat - 48 < 10
      omega
  · next h =>
    -- letters stand for ten and above
    refine ⟨fun ⟨hvalue, hlt⟩ => ?_, fun ⟨hc, _⟩ => absurd hc h⟩
    split at hvalue
    · obtain rfl := Option.some.inj hvalue
      simp at hlt
    · split at hvalue
      · obtain rfl := Option.some.inj hvalue
        simp at hlt
      · cases hvalue

/-- The number that decimal digits spell. -/
theorem digitsFrom?_ten_eq_some_iff :
    digitsFrom? 10 value cs = some n ↔
      (∀ c ∈ cs, c.isDigit = true) ∧ n = Nat.ofDigitChars 10 cs value := by
  induction cs generalizing value with
  | nil =>
    constructor
    · intro h
      exact ⟨nofun, (Option.some.inj h).symm⟩
    · rintro ⟨-, rfl⟩
      rfl
  | cons c rest ih =>
    rw [digitsFrom?_cons, Option.bind_eq_some_iff, List.forall_mem_cons, Nat.ofDigitChars_cons]
    constructor
    · rintro ⟨d, hd, hrest⟩
      obtain ⟨hc, rfl⟩ := digitValue_ten_eq_some_iff.mp hd
      obtain ⟨hdigits, hn⟩ := ih.mp hrest
      exact ⟨⟨hc, hdigits⟩, by rw [hn, Nat.mul_comm]⟩
    · rintro ⟨⟨hc, hdigits⟩, rfl⟩
      refine ⟨_, digitValue_ten_eq_some_iff.mpr ⟨hc, rfl⟩, ih.mpr ⟨hdigits, ?_⟩⟩
      rw [Nat.mul_comm]

/-! ## Numerals -/

/-- Decimal digits, at least one. -/
def IsDecimal (cs : List Char) : Prop := cs ≠ [] ∧ ∀ c ∈ cs, c.isDigit = true

/-- An integer as a decimal text: digits with a sign or without. -/
inductive IsNumeral : List Char → Int → Prop where
  | unsigned {digits : List Char} (h : IsDecimal digits) : IsNumeral digits (Nat.ofDigitChars 10 digits 0)
  | plus {digits : List Char} (h : IsDecimal digits) :
    IsNumeral ('+' :: digits) (Nat.ofDigitChars 10 digits 0)
  | minus {digits : List Char} (h : IsDecimal digits) :
    IsNumeral ('-' :: digits) (-(Nat.ofDigitChars 10 digits 0 : Int))

theorem IsDecimal.exists_cons (h : IsDecimal cs) : ∃ c rest, cs = c :: rest ∧ c ≠ '+' ∧ c ≠ '-' := by
  obtain ⟨hne, hdigits⟩ := h
  obtain ⟨c, rest, rfl⟩ := List.exists_cons_of_ne_nil hne
  have hc := hdigits c List.mem_cons_self
  refine ⟨c, rest, rfl, ?_, ?_⟩
  · rintro rfl
    cases hc
  · rintro rfl
    cases hc

/-- Decimal digits are read exactly if there is one and their number is within the limit. -/
theorem readDigits_ten_eq_ok_iff {c : Char} :
    readDigits 10 limit offence 0 (c :: cs) = .ok n ↔
      IsDecimal (c :: cs) ∧ n = Nat.ofDigitChars 10 (c :: cs) 0 ∧ n ≤ limit := by
  rw [readDigits_eq_ok_iff (by decide) (Nat.zero_le limit), digitsFrom?_ten_eq_some_iff, and_assoc]
  exact and_congr_left fun _ => ⟨fun h => ⟨List.cons_ne_nil c cs, h⟩, fun h => h.2⟩

/-- A natural number is read from its digits, which may have a plus in front. -/
theorem readNat_eq_ok_iff :
    readNat 10 limit cs = .ok n ↔
      ∃ digits, (cs = digits ∨ cs = '+' :: digits) ∧ IsDecimal digits ∧
        n = Nat.ofDigitChars 10 digits 0 ∧ n ≤ limit := by
  unfold readNat
  constructor
  · intro h
    split at h
    · cases h
    · exact ⟨_, .inr rfl, readDigits_ten_eq_ok_iff.mp h⟩
    · next hne _ =>
      obtain ⟨c, rest, rfl⟩ := List.exists_cons_of_ne_nil fun hnil => hne hnil
      exact ⟨_, .inl rfl, readDigits_ten_eq_ok_iff.mp h⟩
  · rintro ⟨digits, hcs, hdecimal, hn⟩
    obtain ⟨c, rest, rfl, hplus, -⟩ := hdecimal.exists_cons
    have hread : readDigits 10 limit .tooLarge 0 (c :: rest) = .ok n :=
      readDigits_ten_eq_ok_iff.mpr ⟨hdecimal, hn⟩
    rcases hcs with rfl | rfl
    · split
      · next heq => cases heq
      · next heq => exact absurd (List.cons.inj heq).1 hplus
      · exact hread
    · exact hread

/-- The numerals of the integers between two bounds are read, each as its integer, and nothing else is. -/
theorem readInt_eq_ok_iff {below above : Nat} {i : Int} :
    readInt 10 below above cs = .ok i ↔ IsNumeral cs i ∧ -(below : Int) ≤ i ∧ i ≤ above := by
  unfold readInt
  constructor
  · intro h
    split at h
    · obtain ⟨_, hread, rfl⟩ := Fallible.map_eq_ok_iff.mp h
      obtain ⟨n, hn, hread⟩ := Fallible.bind_eq_ok_iff.mp hread
      obtain rfl := Except.ok.inj hread
      obtain ⟨hdecimal, rfl, hle⟩ := readDigits_ten_eq_ok_iff.mp hn
      exact ⟨.minus hdecimal, by omega, by omega⟩
    · obtain ⟨n, hn, rfl⟩ := Fallible.map_eq_ok_iff.mp h
      obtain ⟨digits, hcs, hdecimal, rfl, hle⟩ := readNat_eq_ok_iff.mp hn
      refine ⟨?_, by simp, Int.ofNat_le.mpr hle⟩
      rcases hcs with rfl | rfl
      · exact .unsigned hdecimal
      · exact .plus hdecimal
  · rintro ⟨hnumeral, hbelow, habove⟩
    cases hnumeral with
    | minus hdecimal =>
      obtain ⟨c, rest, rfl, -⟩ := hdecimal.exists_cons
      have hle : Nat.ofDigitChars 10 (c :: rest) 0 ≤ below := by omega
      have hread : readDigits 10 below .tooSmall 0 (c :: rest) = .ok _ :=
        readDigits_ten_eq_ok_iff.mpr ⟨hdecimal, rfl, hle⟩
      exact Fallible.map_eq_ok_iff.mpr ⟨_, Fallible.bind_eq_ok_iff.mpr ⟨_, hread, rfl⟩, rfl⟩
    | unsigned hdecimal =>
      -- no digit is a minus, so the numeral is not taken for a negative one
      obtain ⟨c, rest, rfl, -, hminus⟩ := hdecimal.exists_cons
      have hread := readNat_eq_ok_iff.mpr ⟨_, .inl rfl, hdecimal, rfl, Int.ofNat_le.mp habove⟩
      split
      · next heq => exact absurd (List.cons.inj heq).1 hminus
      · exact Fallible.map_eq_ok_iff.mpr ⟨_, hread, rfl⟩
    | plus hdecimal =>
      have hread := readNat_eq_ok_iff.mpr ⟨_, .inr rfl, hdecimal, rfl, Int.ofNat_le.mp habove⟩
      exact Fallible.map_eq_ok_iff.mpr ⟨_, hread, rfl⟩

/-- A text is a numeral of one integer only. -/
theorem IsNumeral.eq_of_isNumeral {i j : Int} (hi : IsNumeral cs i) (hj : IsNumeral cs j) : i = j := by
  have hread : readInt 10 (i.natAbs + j.natAbs) (i.natAbs + j.natAbs) cs = .ok i :=
    readInt_eq_ok_iff.mpr ⟨hi, by omega, by omega⟩
  have hread' : readInt 10 (i.natAbs + j.natAbs) (i.natAbs + j.natAbs) cs = .ok j :=
    readInt_eq_ok_iff.mpr ⟨hj, by omega, by omega⟩
  exact Except.ok.inj (hread.symm.trans hread')

/-! ## Writing -/

theorem isDecimal_toDigits (n : Nat) : IsDecimal (Nat.toDigits 10 n) :=
  ⟨Nat.toDigits_ne_nil, fun _ hc => Nat.isDigit_of_mem_toDigits (by decide) (by decide) hc⟩

theorem exists_digitChar {c : Char} (hc : c.isDigit = true) : ∃ d < 10, c = d.digitChar := by
  have hlt := digitValue_lt (digitValue_ten_eq_some_iff.mpr ⟨hc, rfl⟩)
  have hlow : 48 ≤ c.toNat := (Char.isDigit_iff_toNat.mp hc).1
  refine ⟨_, hlt, Char.toNat_inj.mp ?_⟩
  rw [Nat.toNat_digitChar_of_lt_ten hlt]
  exact (Nat.add_sub_cancel' hlow).symm

/-- Digits behind those of a positive number are the last digits of a longer one. -/
theorem toDigits_append {v : Nat} (hpos : 0 < v) (hdigits : ∀ c ∈ cs, c.isDigit = true) :
    Nat.toDigits 10 v ++ cs = Nat.toDigits 10 (Nat.ofDigitChars 10 cs v) := by
  induction cs generalizing v with
  | nil => rw [List.append_nil, Nat.ofDigitChars_nil]
  | cons c rest ih =>
    obtain ⟨hc, hrest⟩ := List.forall_mem_cons.mp hdigits
    obtain ⟨d, hd, rfl⟩ := exists_digitChar hc
    calc Nat.toDigits 10 v ++ d.digitChar :: rest
        = (Nat.toDigits 10 v ++ Nat.toDigits 10 d) ++ rest := by simp [Nat.toDigits_of_lt_base hd]
      _ = Nat.toDigits 10 (10 * v + d) ++ rest := by rw [Nat.toDigits_append_toDigits (by decide) hpos hd]
      _ = Nat.toDigits 10 (Nat.ofDigitChars 10 rest (10 * v + d)) := ih (by omega) hrest
      _ = Nat.toDigits 10 (Nat.ofDigitChars 10 (d.digitChar :: rest) v) := by
        rw [Nat.ofDigitChars_cons_digitChar_of_lt_ten hd]

/-- The digits of a positive number do not begin with a zero. -/
theorem head?_toDigits_ne_zero (hpos : 0 < n) : (Nat.toDigits 10 n).head? ≠ some '0' := by
  induction n using Nat.strong_induction_on with
  | _ n ih =>
    rw [Nat.toDigits_eq_if (by decide)]
    split
    · next hn =>
      intro h
      have hzero : n = 0 := Nat.digitChar_eq_zero.mp (Option.some.inj h)
      omega
    · next hn =>
      rw [List.head?_append_of_ne_nil _ Nat.toDigits_ne_nil]
      exact ih (n / 10) (by omega) (by omega)

/-- Decimal digits stand for a positive number exactly if they are those it is written with, behind zeros. -/
theorem isDecimal_and_eq_iff (hpos : 0 < n) :
    IsDecimal cs ∧ n = Nat.ofDigitChars 10 cs 0 ↔
      ∃ zeros, cs = List.replicate zeros '0' ++ Nat.toDigits 10 n := by
  constructor
  · rintro ⟨⟨-, hdigits⟩, rfl⟩
    induction cs with
    | nil => exact absurd hpos (by simp)
    | cons c rest ih =>
      obtain ⟨hc, hrest⟩ := List.forall_mem_cons.mp hdigits
      obtain ⟨d, hd, rfl⟩ := exists_digitChar hc
      rw [Nat.ofDigitChars_cons_digitChar_of_lt_ten hd, Nat.mul_zero, Nat.zero_add] at hpos ⊢
      by_cases hzero : d = 0
      · subst hzero
        obtain ⟨zeros, hzeros⟩ := ih hrest hpos
        exact ⟨zeros + 1, congrArg ('0' :: ·) hzeros⟩
      · -- the first digit that counts
        refine ⟨0, ?_⟩
        rw [← toDigits_append (Nat.pos_of_ne_zero hzero) hrest, Nat.toDigits_of_lt_base hd]
        rfl
  · rintro ⟨zeros, rfl⟩
    obtain ⟨hne, hdigits⟩ := isDecimal_toDigits n
    refine ⟨⟨List.append_ne_nil_of_right_ne_nil _ hne, ?_⟩, ?_⟩
    · intro c hc
      rcases List.mem_append.mp hc with hc | hc
      · rw [List.eq_of_mem_replicate hc]
        rfl
      · exact hdigits c hc
    · rw [Nat.ofDigitChars_append, Nat.ofDigitChars_replicate_zero, Nat.mul_zero, Nat.ofDigitChars_ten_toDigits]

/-- An integer is written as a numeral of it. -/
theorem isNumeral_toString (i : Int) : IsNumeral (toString i).toList i := by
  have hvalue (n : Nat) : Nat.ofDigitChars 10 (Nat.toDigits 10 n) 0 = n :=
    Nat.ofDigitChars_toDigits (by decide) (by decide)
  cases i with
  | ofNat n =>
    have hnumeral := IsNumeral.unsigned (isDecimal_toDigits n)
    rw [hvalue] at hnumeral
    show IsNumeral (Nat.repr n).toList n
    rwa [Nat.toList_repr]
  | negSucc n =>
    have hnumeral := IsNumeral.minus (isDecimal_toDigits (n + 1))
    rw [hvalue] at hnumeral
    rwa [Code.toList_toString_negSucc]

end Text
end MessageRouter

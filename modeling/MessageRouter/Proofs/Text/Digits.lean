import Mathlib.Data.List.TakeWhile
import MessageRouter.Proofs.Text.Numeral
import MessageRouter.Text.Blank
/-!
# `Proofs.Text.Digits` — digits of any radix, and the part of a text between its blanks

* `Text.IsDigit`: a digit of a radix in either case, and what it counts.
* `Text.digitValue_eq_some_iff`: these are the digits that are read.
* `Text.readNat_eq_ok_iff_digitsFrom?`: a natural number is read from its digits, which may have a plus in front.
* `Text.IsTrimmed`: what is left of a text without the blanks at its ends.
-/
namespace MessageRouter
namespace Text

open Code (digitsFrom?)

variable {cs core : List Char} {radix limit n d : Nat} {c : Char}

/-! ## Digits -/

/-- A digit of a radix and what it counts; a letter may be of either case. -/
def IsDigit (radix : Nat) (c : Char) (d : Nat) : Prop := d < radix ∧ c.toLower = Nat.digitChar d

/-- In ASCII the digits that are read are those that are written, in either case. -/
theorem digitValue_ascii : ∀ n < 128, ∀ d < 16,
    digitValue 16 (Char.ofNat n) = some d ↔ (Char.ofNat n).toLower = Nat.digitChar d := by
  decide +kernel

/-- Outside of ASCII there are no digits. -/
theorem digitValue_of_not_ascii (hc : 127 < c.toNat) : digitValue radix c = none := by
  have hdigit : ¬ ('0' ≤ c ∧ c ≤ '9') := by
    intro h
    have hle : c.toNat ≤ 57 := h.2
    omega
  have hlower : ¬ ('a' ≤ c ∧ c ≤ 'z') := by
    intro h
    have hle : c.toNat ≤ 122 := h.2
    omega
  have hupper : ¬ ('A' ≤ c ∧ c ≤ 'Z') := by
    intro h
    have hle : c.toNat ≤ 90 := h.2
    omega
  simp [digitValue, hdigit, hlower, hupper]

theorem toLower_of_not_ascii (hc : 127 < c.toNat) : c.toLower = c := by
  apply dif_neg
  rintro ⟨-, h⟩
  have hle : c.toNat ≤ 90 := h
  omega

theorem digitChar_ascii (hd : d < 16) : d.digitChar.toNat ≤ 127 := by
  interval_cases d <;> decide

/-- A smaller radix has the same digits, up to it. -/
theorem digitValue_eq_filter (hradix : radix ≤ 16) :
    digitValue radix c = (digitValue 16 c).filter (· < radix) := by
  have hboth (d : Nat) : (decide (d < 16) && decide (d < radix)) = decide (d < radix) := by
    rw [Bool.eq_iff_iff, Bool.and_eq_true, decide_eq_true_eq, decide_eq_true_eq]
    omega
  simp only [digitValue, Option.filter_filter, hboth]

/-- The digits that are read. -/
theorem digitValue_eq_some_iff (hradix : radix ≤ 16) :
    digitValue radix c = some d ↔ IsDigit radix c d := by
  rw [digitValue_eq_filter hradix, Option.filter_eq_some_iff, decide_eq_true_eq, and_comm]
  refine and_congr_right fun hd => ?_
  have hd16 : d < 16 := Nat.lt_of_lt_of_le hd hradix
  by_cases hc : 127 < c.toNat
  · -- beyond ASCII there is no digit on either side
    rw [digitValue_of_not_ascii hc, toLower_of_not_ascii hc]
    refine iff_of_false nofun ?_
    rintro rfl
    exact absurd (digitChar_ascii hd16) (Nat.not_le.mpr hc)
  · have htable := digitValue_ascii c.toNat (by omega) d hd16
    rwa [Char.ofNat_toNat] at htable

/-- Digits are written differently if they count differently. -/
theorem digitChar_inj {a b : Nat} (ha : a < 16) (hb : b < 16) : a.digitChar = b.digitChar ↔ a = b := by
  constructor
  · intro h
    have hread := Code.digitValue_digitChar ha (le_refl 16)
    rw [h, Code.digitValue_digitChar hb (le_refl 16)] at hread
    exact (Option.some.inj hread).symm
  · exact congrArg Nat.digitChar

theorem isDigit_digitChar (hd : d < radix) (hradix : radix ≤ 16) : IsDigit radix d.digitChar d :=
  (digitValue_eq_some_iff hradix).mp (Code.digitValue_digitChar hd hradix)

/-- Neither a plus nor an underscore is a digit. -/
theorem not_isDigit_of_mem (hradix : radix ≤ 16) (hc : c ∈ ['+', '_']) : ¬ IsDigit radix c d := by
  rw [← digitValue_eq_some_iff hradix, digitValue_eq_filter hradix, Option.filter_eq_some_iff]
  rintro ⟨h, -⟩
  rcases List.mem_pair.mp hc with rfl | rfl
  · cases h
  · cases h

/-! ## Natural numbers -/

/-- A natural number is read from its digits, which may have a plus in front. -/
theorem readNat_eq_ok_iff_digitsFrom? (hpos : 0 < radix) (hradix : radix ≤ 16) :
    readNat radix limit cs = .ok n ↔
      ∃ digits, (cs = digits ∨ cs = '+' :: digits) ∧ digits ≠ [] ∧
        digitsFrom? radix 0 digits = some n ∧ n ≤ limit := by
  have hread {c : Char} {rest : List Char} :
      readDigits radix limit .tooLarge 0 (c :: rest) = .ok n ↔
        digitsFrom? radix 0 (c :: rest) = some n ∧ n ≤ limit :=
    readDigits_eq_ok_iff hpos (Nat.zero_le limit)
  unfold readNat
  constructor
  · intro h
    split at h
    · cases h
    · exact ⟨_, .inr rfl, List.cons_ne_nil _ _, hread.mp h⟩
    · next hne _ =>
      obtain ⟨c, rest, rfl⟩ := List.exists_cons_of_ne_nil fun hnil => hne hnil
      exact ⟨_, .inl rfl, List.cons_ne_nil _ _, hread.mp h⟩
  · rintro ⟨digits, hcs, hne, hdigits⟩
    obtain ⟨c, rest, rfl⟩ := List.exists_cons_of_ne_nil hne
    rcases hcs with rfl | rfl
    · split
      · next heq => cases heq
      · next heq =>
        -- a plus is no digit
        obtain ⟨rfl, rfl⟩ := List.cons.inj heq
        rw [digitsFrom?_cons] at hdigits
        obtain ⟨d, hd, -⟩ := Option.bind_eq_some_iff.mp hdigits.1
        exact absurd ((digitValue_eq_some_iff hradix).mp hd) (not_isDigit_of_mem hradix (by simp))
      · exact hread.mpr hdigits
    · exact hread.mpr hdigits

/-! ## Blanks at the ends -/

/-- What is left of a text without the blanks at its ends. -/
structure IsTrimmed (cs core : List Char) : Prop where
  margins : ∃ front back, cs = front ++ core ++ back ∧ (∀ c ∈ front, isBlank c = true) ∧
    ∀ c ∈ back, isBlank c = true
  head : ∀ c ∈ core.head?, isBlank c = false
  last : ∀ c ∈ core.getLast?, isBlank c = false

/-- Only blanks are gone. -/
theorem IsTrimmed.mem_iff (h : IsTrimmed cs core) (hc : isBlank c = false) : c ∈ cs ↔ c ∈ core := by
  obtain ⟨⟨front, back, rfl, hfront, hback⟩, -, -⟩ := h
  rw [List.mem_append, List.mem_append]
  constructor
  · rintro ((hmem | hmem) | hmem)
    · rw [hfront c hmem] at hc
      cases hc
    · exact hmem
    · rw [hback c hmem] at hc
      cases hc
  · intro hmem
    exact .inl (.inr hmem)

/-- Blanks in front of what does not start with a blank are dropped. -/
theorem dropWhile_isBlank {front rest : List Char} (hfront : ∀ c ∈ front, isBlank c = true)
    (hrest : ∀ c ∈ rest.head?, isBlank c = false) : (front ++ rest).dropWhile isBlank = rest := by
  rw [List.dropWhile_append_of_pos hfront]
  cases rest with
  | nil => rfl
  | cons c rest => simp [List.dropWhile, hrest c (by simp)]

theorem head?_dropWhile_isBlank (cs : List Char) : ∀ c ∈ (cs.dropWhile isBlank).head?, isBlank c = false := by
  intro c hc
  have hnot := List.head?_dropWhile_not isBlank cs
  rw [Option.mem_def.mp hc] at hnot
  exact hnot

theorem isTrimmed_trim (cs : List Char) : IsTrimmed cs (trim cs) := by
  have hfront := List.takeWhile_append_dropWhile (p := isBlank) (l := cs)
  have hback := List.takeWhile_append_dropWhile (p := isBlank) (l := (cs.dropWhile isBlank).reverse)
  constructor
  · refine ⟨cs.takeWhile isBlank, ((cs.dropWhile isBlank).reverse.takeWhile isBlank).reverse, ?_, ?_, ?_⟩
    · rw [trim, List.append_assoc, ← List.reverse_append, hback, List.reverse_reverse, hfront]
    · exact fun c hc => List.mem_takeWhile_imp hc
    · exact fun c hc => List.mem_takeWhile_imp (List.mem_reverse.mp hc)
  · -- the front of the text is not touched by what is dropped at its end
    intro c hc
    have hprefix : trim cs <+: cs.dropWhile isBlank :=
      List.reverse_suffix.mp (by simpa [trim] using List.dropWhile_suffix isBlank)
    obtain ⟨back, hback⟩ := hprefix
    obtain ⟨rest, hrest⟩ := List.head?_eq_some_iff.mp hc
    apply head?_dropWhile_isBlank cs
    rw [← hback, hrest]
    rfl
  · intro c hc
    rw [trim, List.getLast?_reverse] at hc
    exact head?_dropWhile_isBlank _ c hc

theorem IsTrimmed.trim_eq (h : IsTrimmed cs core) : trim cs = core := by
  obtain ⟨⟨front, back, rfl, hfront, hback⟩, hhead, hlast⟩ := h
  cases core with
  | nil =>
    -- nothing but blanks
    have hdrop : (front ++ [] ++ back).dropWhile isBlank = [] := by
      rw [List.append_nil, List.dropWhile_append_of_pos hfront]
      exact List.dropWhile_eq_nil_iff.mpr hback
    rw [trim, hdrop]
    rfl
  | cons c rest =>
    have hfirst : (front ++ (c :: rest) ++ back).dropWhile isBlank = (c :: rest) ++ back := by
      rw [List.append_assoc]
      exact dropWhile_isBlank hfront hhead
    have hsecond : (back.reverse ++ (c :: rest).reverse).dropWhile isBlank = (c :: rest).reverse := by
      apply dropWhile_isBlank (fun c hc => hback c (List.mem_reverse.mp hc))
      intro c hc
      rw [List.head?_reverse] at hc
      exact hlast c hc
    rw [trim, hfirst, List.reverse_append, hsecond, List.reverse_reverse]

/-- Exactly what is left of a text without the blanks at its ends is what it is trimmed to. -/
theorem trim_eq_iff : trim cs = core ↔ IsTrimmed cs core := by
  constructor
  · rintro rfl
    exact isTrimmed_trim cs
  · exact IsTrimmed.trim_eq

end Text
end MessageRouter

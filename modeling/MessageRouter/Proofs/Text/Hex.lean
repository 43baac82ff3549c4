import MessageRouter.Proofs.Text.Digits
import MessageRouter.Text.Hex
/-!
# `Proofs.Text.Hex` — which texts are read as bytes

* `Text.HoldsHex`: what a text holds between the blanks at its ends, after an optional `0x`.
* `Text.IsPaired`: pairs of hexadecimal digits; for the first digit of a pair a plus may stand.
* `Text.readPairs_eq_ok_iff`: pairs are read as the bytes that are written like them, with a zero for each plus.
* `Text.readHex_exact`: exactly these texts are read, those without a plus being the texts of evenly many digits, and
  what is written for bytes is read as them.
-/
namespace MessageRouter
namespace Text

variable {cs core digits : List Char} {bytes : List UInt8} {high low c : Char} {n : Nat}

/-! ## The grammar -/

/-- A hexadecimal digit of either case. -/
def IsHexDigit (c : Char) : Prop := ∃ d, IsDigit 16 c d

/-- The digits after an optional `0x`. -/
inductive IsMarked : List Char → List Char → Prop where
  | marked (digits : List Char) : IsMarked ('0' :: 'x' :: digits) digits
  | bare {digits : List Char} (h : ¬ ['0', 'x'] <+: digits) : IsMarked digits digits

/-- What a text holds between the blanks at its ends, after an optional `0x`. -/
def HoldsHex (text : String) (digits : List Char) : Prop :=
  ∃ core, IsTrimmed text.toList core ∧ IsMarked core digits

/-- Pairs of digits. Each pair is a numeral of its own, so a plus may stand for its first digit. -/
inductive IsPaired : List Char → Prop where
  | nil : IsPaired []
  | cons {high low : Char} {rest : List Char} (hhigh : IsHexDigit high ∨ high = '+')
      (hlow : IsHexDigit low) (hrest : IsPaired rest) : IsPaired (high :: low :: rest)

/-- A digit as it is written for bytes: in lower case, and as a zero where a plus was. -/
def writtenDigit (c : Char) : Char := if c = '+' then '0' else c.toLower

/-! ## The digits of a text -/

theorem afterHexMark_eq_iff : afterHexMark core = digits ↔ IsMarked core digits := by
  constructor
  · rintro rfl
    unfold afterHexMark
    split
    · exact .marked _
    · next hnot =>
      apply IsMarked.bare
      rintro ⟨rest, rfl⟩
      exact hnot rest rfl
  · intro h
    cases h with
    | marked => rfl
    | bare hnot =>
      unfold afterHexMark
      split
      · next rest => exact absurd ⟨rest, rfl⟩ hnot
      · rfl

theorem holdsHex_iff {text : String} :
    HoldsHex text digits ↔ afterHexMark (trim text.toList) = digits := by
  constructor
  · rintro ⟨core, hcore, hdigits⟩
    rw [trim_eq_iff.mpr hcore]
    exact afterHexMark_eq_iff.mpr hdigits
  · intro h
    exact ⟨trim text.toList, trim_eq_iff.mp rfl, afterHexMark_eq_iff.mp h⟩

/-! ## Pairs -/

theorem IsHexDigit.ascii (h : IsHexDigit c) : c.toNat ≤ 127 := by
  obtain ⟨d, hd⟩ := h
  by_contra hc
  have hnone : digitValue 16 c = none := digitValue_of_not_ascii (Nat.not_le.mp hc)
  rw [(digitValue_eq_some_iff (le_refl 16)).mpr hd] at hnone
  cases hnone

theorem IsHexDigit.ne_plus (h : IsHexDigit c) : c ≠ '+' := by
  rintro rfl
  obtain ⟨d, hd⟩ := h
  exact not_isDigit_of_mem (le_refl 16) (by simp) hd

/-- A digit is written as the digit of what it counts. -/
theorem writtenDigit_of_isDigit {d : Nat} (h : IsDigit 16 c d) : writtenDigit c = d.digitChar := by
  rw [writtenDigit, if_neg (IsHexDigit.ne_plus ⟨d, h⟩), h.2]

namespace IsPaired

theorem even_length (h : IsPaired cs) : Even cs.length := by
  induction h with
  | nil => exact Even.zero
  | cons _ _ _ ih => exact ih.add even_two

theorem ascii (h : IsPaired cs) : ∀ c ∈ cs, c.toNat ≤ 127 := by
  induction h with
  | nil => exact nofun
  | cons hhigh hlow _ ih =>
    refine List.forall_mem_cons.mpr ⟨?_, List.forall_mem_cons.mpr ⟨hlow.ascii, ih⟩⟩
    rcases hhigh with hhigh | rfl
    · exact hhigh.ascii
    · decide

/-- Evenly many digits are pairs of digits. -/
theorem of_digits : ∀ {cs : List Char}, Even cs.length → (∀ c ∈ cs, IsHexDigit c) → IsPaired cs
  | [], _, _ => .nil
  | [_], heven, _ => absurd heven Nat.not_even_one
  | high :: low :: rest, heven, hdigits => by
    obtain ⟨hhigh, hdigits⟩ := List.forall_mem_cons.mp hdigits
    obtain ⟨hlow, hrest⟩ := List.forall_mem_cons.mp hdigits
    have hlength : Even rest.length := by simpa [Nat.even_add_one] using heven
    exact .cons (.inl hhigh) hlow (of_digits hlength hrest)

/-- Without a plus the pairs are evenly many digits. -/
theorem and_plus_notMem_iff :
    IsPaired cs ∧ '+' ∉ cs ↔ Even cs.length ∧ ∀ c ∈ cs, IsHexDigit c := by
  constructor
  · rintro ⟨h, hplus⟩
    refine ⟨h.even_length, ?_⟩
    induction h with
    | nil => exact nofun
    | cons hhigh hlow _ ih =>
      simp only [List.mem_cons, not_or] at hplus
      have hdigit := hhigh.resolve_right (Ne.symm hplus.1)
      exact List.forall_mem_cons.mpr ⟨hdigit, List.forall_mem_cons.mpr ⟨hlow, ih hplus.2.2⟩⟩
  · rintro ⟨heven, hdigits⟩
    exact ⟨of_digits heven hdigits, fun hplus => (hdigits '+' hplus).ne_plus rfl⟩

end IsPaired

/-- A byte is written as its two digits. -/
theorem hexDigits_byte (hn : n < 256) :
    (Nat.toDigits 16 n).leftpad 2 '0' = [(n / 16).digitChar, (n % 16).digitChar] := by
  by_cases hsmall : n < 16
  · rw [Nat.toDigits_of_lt_base hsmall, Nat.div_eq_of_lt hsmall, Nat.mod_eq_of_lt hsmall]
    rfl
  · rw [Nat.toDigits_of_base_le (by omega) (by omega), Nat.toDigits_of_lt_base (by omega)]
    rfl

/-- What the first character of a pair counts: a digit, or a plus, which counts nothing. -/
def Leads (c : Char) (d : Nat) : Prop := IsDigit 16 c d ∨ c = '+' ∧ d = 0

/-- A pair is read as the number of its two digits. -/
theorem readNat_pair_eq_ok_iff :
    readNat 16 255 [high, low] = .ok n ↔ ∃ a b, Leads high a ∧ IsDigit 16 low b ∧ n = a * 16 + b := by
  have hspell {c : Char} {rest : List Char} {v m : Nat} :
      Code.digitsFrom? 16 v (c :: rest) = some m ↔
        ∃ d, IsDigit 16 c d ∧ Code.digitsFrom? 16 (v * 16 + d) rest = some m := by
    rw [digitsFrom?_cons, Option.bind_eq_some_iff]
    simp only [digitValue_eq_some_iff (le_refl 16)]
  rw [readNat_eq_ok_iff_digitsFrom? (by decide) (le_refl 16)]
  constructor
  · rintro ⟨digits, hdigits, hne, hn, -⟩
    rcases hdigits with rfl | hdigits
    · obtain ⟨a, ha, hn⟩ := hspell.mp hn
      obtain ⟨b, hb, hn⟩ := hspell.mp hn
      refine ⟨a, b, .inl ha, hb, ?_⟩
      rw [← Option.some.inj hn, Nat.zero_mul, Nat.zero_add]
    · obtain ⟨rfl, rfl⟩ := List.cons.inj hdigits
      obtain ⟨b, hb, hn⟩ := hspell.mp hn
      refine ⟨0, b, .inr ⟨rfl, rfl⟩, hb, (Option.some.inj hn).symm⟩
  · rintro ⟨a, b, ha, hb, rfl⟩
    have hb16 := hb.1
    rcases ha with ha | ⟨rfl, rfl⟩
    · have ha16 := ha.1
      refine ⟨[high, low], .inl rfl, List.cons_ne_nil _ _, hspell.mpr ⟨a, ha, hspell.mpr ⟨b, hb, ?_⟩⟩, by omega⟩
      rw [Nat.zero_mul, Nat.zero_add]
      rfl
    · exact ⟨[low], .inr rfl, List.cons_ne_nil _ _, hspell.mpr ⟨b, hb, rfl⟩, by omega⟩

/-- The digits of a byte are those that a pair counts exactly if they are written like the pair. -/
theorem isDigit_iff_writtenDigit {d : Nat} (hd : d < 16) :
    IsDigit 16 c d ↔ IsHexDigit c ∧ d.digitChar = writtenDigit c := by
  constructor
  · intro h
    exact ⟨⟨d, h⟩, (writtenDigit_of_isDigit h).symm⟩
  · rintro ⟨⟨d', h'⟩, hwritten⟩
    rw [writtenDigit_of_isDigit h', digitChar_inj hd h'.1] at hwritten
    exact hwritten ▸ h'

theorem leads_iff_writtenDigit {d : Nat} (hd : d < 16) :
    Leads c d ↔ (IsHexDigit c ∨ c = '+') ∧ d.digitChar = writtenDigit c := by
  unfold Leads
  rw [isDigit_iff_writtenDigit hd, or_and_right]
  refine or_congr_right (and_congr_right ?_)
  rintro rfl
  exact (digitChar_inj hd (by decide)).symm

/-- A pair is read as a byte exactly if the byte is written like it. -/
theorem readNat_pair_iff_written {b : UInt8} :
    readNat 16 255 [high, low] = .ok b.toNat ↔
      (IsHexDigit high ∨ high = '+') ∧ IsHexDigit low ∧
        (Nat.toDigits 16 b.toNat).leftpad 2 '0' = [writtenDigit high, writtenDigit low] := by
  have hb : b.toNat < 256 := b.toNat_lt
  have hhigh : b.toNat / 16 < 16 := by omega
  have hlow : b.toNat % 16 < 16 := by omega
  rw [readNat_pair_eq_ok_iff, hexDigits_byte hb, List.cons_eq_cons, List.cons_eq_cons]
  constructor
  · rintro ⟨x, y, hx, hy, hn⟩
    have hx16 : x < 16 := by omega
    have hy16 := hy.1
    obtain rfl : x = b.toNat / 16 := by omega
    obtain rfl : y = b.toNat % 16 := by omega
    obtain ⟨hlead, hwritten⟩ := (leads_iff_writtenDigit hx16).mp hx
    obtain ⟨hdigit, hwritten'⟩ := (isDigit_iff_writtenDigit hy16).mp hy
    exact ⟨hlead, hdigit, hwritten, hwritten', rfl⟩
  · rintro ⟨hlead, hdigit, hwritten, hwritten', -⟩
    exact ⟨_, _, (leads_iff_writtenDigit hhigh).mpr ⟨hlead, hwritten⟩,
      (isDigit_iff_writtenDigit hlow).mpr ⟨hdigit, hwritten'⟩, (Nat.div_add_mod' _ _).symm⟩

/-! ## Bytes -/

theorem toList_hexBytes_cons (b : UInt8) (rest : List UInt8) :
    (hexBytes (b :: rest)).toList = (Nat.toDigits 16 b.toNat).leftpad 2 '0' ++ (hexBytes rest).toList := by
  simp only [hexBytes, String.toList_ofList, List.flatMap_cons]

theorem hexBytes_cons_ne_nil (b : UInt8) (rest : List UInt8) : (hexBytes (b :: rest)).toList ≠ [] := by
  rw [toList_hexBytes_cons, hexDigits_byte b.toNat_lt]
  exact nofun

/-- The first pair and the other ones are read one after the other. -/
theorem readPairs_cons_eq_ok_iff {offset : Nat} {rest : List Char} :
    readPairs offset (high :: low :: rest) = .ok bytes ↔
      ∃ b others, readNat 16 255 [high, low] = .ok b.toNat ∧ readPairs (offset + 2) rest = .ok others ∧
        bytes = b :: others := by
  rw [readPairs, Fallible.bind_eq_ok_iff]
  constructor
  · rintro ⟨n, hn, h⟩
    obtain ⟨others, hothers, h⟩ := Fallible.bind_eq_ok_iff.mp h
    have hread := Fallible.mapError_eq_ok_iff.mp hn
    have hlt : n < 256 := Nat.lt_succ_of_le (readNat_le hread)
    refine ⟨UInt8.ofNat n, others, ?_, hothers, (Except.ok.inj h).symm⟩
    rwa [UInt8.toNat_ofNat_of_lt' hlt]
  · rintro ⟨b, others, hb, hothers, rfl⟩
    refine ⟨b.toNat, Fallible.mapError_eq_ok_iff.mpr hb, Fallible.bind_eq_ok_iff.mpr ⟨others, hothers, ?_⟩⟩
    rw [UInt8.ofNat_toNat]
    rfl

/-- Pairs are read as the bytes that are written like them. -/
theorem readPairs_eq_ok_iff : ∀ {cs : List Char} {offset : Nat} {bytes : List UInt8}, Even cs.length →
    (readPairs offset cs = .ok bytes ↔ IsPaired cs ∧ (hexBytes bytes).toList = cs.map writtenDigit)
  | [], offset, bytes, _ => by
    constructor
    · intro h
      obtain rfl := Except.ok.inj h
      exact ⟨.nil, rfl⟩
    · rintro ⟨-, h⟩
      cases bytes with
      | nil => rfl
      | cons b rest => exact absurd h (hexBytes_cons_ne_nil b rest)
  | [_], _, _, heven => absurd heven Nat.not_even_one
  | high :: low :: rest, offset, bytes, heven => by
    have hlength : Even rest.length := by simpa [Nat.even_add_one] using heven
    rw [readPairs_cons_eq_ok_iff]
    constructor
    · rintro ⟨b, others, hb, hothers, rfl⟩
      obtain ⟨hhigh, hlow, hbyte⟩ := readNat_pair_iff_written.mp hb
      obtain ⟨hrest, hwritten⟩ := (readPairs_eq_ok_iff hlength).mp hothers
      refine ⟨.cons hhigh hlow hrest, ?_⟩
      rw [toList_hexBytes_cons, hbyte, hwritten]
      rfl
    · rintro ⟨hpaired, hwritten⟩
      cases hpaired with
      | cons hhigh hlow hrest =>
        cases bytes with
        | nil => cases hwritten
        | cons b others =>
          -- the digits of the first byte are those of the first pair
          have hsize : ((Nat.toDigits 16 b.toNat).leftpad 2 '0').length =
              [writtenDigit high, writtenDigit low].length := by
            rw [hexDigits_byte b.toNat_lt]
            rfl
          rw [toList_hexBytes_cons] at hwritten
          obtain ⟨hbyte, hothers⟩ := List.append_inj hwritten hsize
          exact ⟨b, others, readNat_pair_iff_written.mpr ⟨hhigh, hlow, hbyte⟩,
            (readPairs_eq_ok_iff hlength).mpr ⟨hrest, hothers⟩, rfl⟩

/-- Whatever is paired is read. -/
theorem IsPaired.exists_readPairs (h : IsPaired cs) (offset : Nat) :
    ∃ bytes, readPairs offset cs = .ok bytes := by
  induction h generalizing offset with
  | nil => exact ⟨[], rfl⟩
  | @cons high low rest hhigh hlow _ ih =>
    obtain ⟨b, hb⟩ := hlow
    have hlead : ∃ a < 16, Leads high a := by
      rcases hhigh with ⟨a, ha⟩ | rfl
      · exact ⟨a, ha.1, .inl ha⟩
      · exact ⟨0, by decide, .inr ⟨rfl, rfl⟩⟩
    obtain ⟨a, ha16, ha⟩ := hlead
    have hb16 := hb.1
    obtain ⟨others, hothers⟩ := ih (offset + 2)
    have hlt : a * 16 + b < 256 := by omega
    have hbyte : (UInt8.ofNat (a * 16 + b)).toNat = a * 16 + b := UInt8.toNat_ofNat_of_lt' hlt
    exact ⟨_, readPairs_cons_eq_ok_iff.mpr
      ⟨_, others, readNat_pair_eq_ok_iff.mpr ⟨a, b, ha, hb, hbyte⟩, hothers, rfl⟩⟩

/-! ## Texts -/

/-- A text is read exactly if it holds pairs, and then it is read as the bytes that are written like them. -/
theorem readHex_eq_ok_iff {text : String} :
    readHex text = .ok bytes ↔
      ∃ digits, HoldsHex text digits ∧ IsPaired digits ∧
        (hexBytes bytes).toList = digits.map writtenDigit := by
  have hascii (cs : List Char) :
      (cs.any fun c => decide (127 < c.toNat)) = true ↔ ¬ ∀ c ∈ cs, c.toNat ≤ 127 := by
    simp
  unfold readHex
  constructor
  · intro h
    dsimp only at h
    split at h
    · cases h
    · split at h
      · cases h
      · next _ heven =>
        have hlength := Nat.even_iff.mpr (not_not.mp heven)
        exact ⟨_, holdsHex_iff.mpr rfl, (readPairs_eq_ok_iff hlength).mp h⟩
  · rintro ⟨digits, hholds, hpaired, hwritten⟩
    obtain rfl := holdsHex_iff.mp hholds
    have heven := hpaired.even_length
    dsimp only
    rw [if_neg fun hany => (hascii _).mp hany hpaired.ascii,
      if_neg (not_not.mpr (Nat.even_iff.mp heven))]
    exact (readPairs_eq_ok_iff heven).mpr ⟨hpaired, hwritten⟩

/-- The text of bytes holds their digits. -/
theorem holdsHex_hexBytes (bytes : List UInt8) : HoldsHex (hexBytes bytes) (hexBytes bytes).toList := by
  have hdigit : ∀ c ∈ (hexBytes bytes).toList, isBlank c = false ∧ c ≠ 'x' := by
    intro c hc
    obtain ⟨d, hd, rfl⟩ := Code.exists_digit_of_mem_hexBytes hc
    interval_cases d <;> decide
  refine ⟨_, ⟨⟨[], [], by simp, nofun, nofun⟩, ?_, ?_⟩, .bare ?_⟩
  · exact fun c hc => (hdigit c (List.mem_of_mem_head? hc)).1
  · exact fun c hc => (hdigit c (List.mem_of_mem_getLast? hc)).1
  · intro hmark
    exact (hdigit 'x' (hmark.subset (by simp))).2 rfl

theorem isPaired_hexBytes (bytes : List UInt8) : IsPaired (hexBytes bytes).toList := by
  induction bytes with
  | nil => exact .nil
  | cons b rest ih =>
    have hb : b.toNat < 256 := b.toNat_lt
    rw [toList_hexBytes_cons, hexDigits_byte hb]
    exact .cons (.inl ⟨_, isDigit_digitChar (by omega) (le_refl 16)⟩)
      ⟨_, isDigit_digitChar (by omega) (le_refl 16)⟩ ih

/-- What is written for bytes is read as them. -/
theorem readHex_hexBytes (bytes : List UInt8) : readHex (hexBytes bytes) = .ok bytes := by
  have hwritten : ∀ c ∈ (hexBytes bytes).toList, writtenDigit c = id c := by
    intro c hc
    obtain ⟨d, hd, rfl⟩ := Code.exists_digit_of_mem_hexBytes hc
    exact writtenDigit_of_isDigit (isDigit_digitChar hd (le_refl 16))
  refine readHex_eq_ok_iff.mpr ⟨_, holdsHex_hexBytes bytes, isPaired_hexBytes bytes, ?_⟩
  rw [List.map_congr_left hwritten, List.map_id]

/-- A plus in a text is one among the digits that it holds. -/
theorem HoldsHex.plus_mem_iff {text : String} (h : HoldsHex text digits) :
    '+' ∈ text.toList ↔ '+' ∈ digits := by
  obtain ⟨core, hcore, hmarked⟩ := h
  rw [hcore.mem_iff (by decide)]
  cases hmarked with
  | marked => simp
  | bare => rfl

/-- A text is read exactly if it holds pairs, the first digit of which may be a plus, as the bytes that are written like
them. Without a plus these are the texts of evenly many digits. What is written for bytes is read as them. -/
theorem readHex_exact (text : String) :
    ((∃ bytes, readHex text = .ok bytes) ↔ ∃ digits, HoldsHex text digits ∧ IsPaired digits) ∧
      (∀ bytes, readHex text = .ok bytes ↔
        ∃ digits, HoldsHex text digits ∧ IsPaired digits ∧
          (hexBytes bytes).toList = digits.map writtenDigit) ∧
      ((∃ bytes, readHex text = .ok bytes) ∧ '+' ∉ text.toList ↔
        ∃ digits, HoldsHex text digits ∧ Even digits.length ∧ ∀ c ∈ digits, IsHexDigit c) ∧
      ∀ bytes, readHex (hexBytes bytes) = .ok bytes := by
  have hread : (∃ bytes, readHex text = .ok bytes) ↔ ∃ digits, HoldsHex text digits ∧ IsPaired digits := by
    constructor
    · rintro ⟨bytes, h⟩
      obtain ⟨digits, hholds, hpaired, -⟩ := readHex_eq_ok_iff.mp h
      exact ⟨digits, hholds, hpaired⟩
    · rintro ⟨digits, hholds, hpaired⟩
      obtain ⟨bytes, hbytes⟩ := hpaired.exists_readPairs 0
      have hwritten := (readPairs_eq_ok_iff hpaired.even_length).mp hbytes
      exact ⟨bytes, readHex_eq_ok_iff.mpr ⟨digits, hholds, hwritten⟩⟩
  refine ⟨hread, fun bytes => readHex_eq_ok_iff, ?_, readHex_hexBytes⟩
  rw [hread]
  constructor
  · rintro ⟨⟨digits, hholds, hpaired⟩, hplus⟩
    rw [hholds.plus_mem_iff] at hplus
    exact ⟨digits, hholds, IsPaired.and_plus_notMem_iff.mp ⟨hpaired, hplus⟩⟩
  · rintro ⟨digits, hholds, hdigits⟩
    obtain ⟨hpaired, hplus⟩ := IsPaired.and_plus_notMem_iff.mpr hdigits
    exact ⟨⟨digits, hholds, hpaired⟩, hholds.plus_mem_iff.not.mpr hplus⟩

/-- The plus of a pair counts nothing. -/
example : readHex "0x+f" = .ok [15] := by rfl

end Text
end MessageRouter

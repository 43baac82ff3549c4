import MessageRouter.Proofs.Fallible
import MessageRouter.Proofs.Json.Grammar
/-!
# `Proofs.Json.Scalars` — how strings and numbers are read from their texts

* `Json.bytesOf_eq_flatMap`: the bytes of a text are those of its characters.
* `Json.stringBytes_char`: every text of a character is read as the bytes of the character.
* `Json.string_of_isStringText`: every text of a string is read as the string.
* `Json.Delimits`, `Json.number_toDigits`: the digits of a number are read as the number, if what follows does not go on
  with it.
-/
namespace MessageRouter
namespace Json

open Reader
open Text (IsDigit)

variable {c : Char} {s : String} {kept rest t : List UInt8}

/-! ## Bytes of characters -/

/-- The bytes of a text are those of its characters. -/
theorem bytesOf_eq_flatMap (s : String) : bytesOf s = s.toList.flatMap String.utf8EncodeChar := by
  rw [bytesOf, String.toUTF8_eq_toByteArray, ← String.utf8Encode_toList, List.utf8Encode]
  simp

theorem utf8EncodeChar_of_ascii (hc : c.toNat ≤ 127) : String.utf8EncodeChar c = [byte c] :=
  if_pos hc

/-- In ASCII every character is a byte. -/
theorem flatMap_utf8EncodeChar {cs : List Char} (h : ∀ c ∈ cs, c.toNat ≤ 127) :
    cs.flatMap String.utf8EncodeChar = cs.map byte := by
  rw [List.map_eq_flatMap]
  exact List.flatMap_congr fun c hc => utf8EncodeChar_of_ascii (h c hc)

theorem bytesOf_append (s s' : String) : bytesOf (s ++ s') = bytesOf s ++ bytesOf s' := by
  rw [bytesOf_eq_flatMap, bytesOf_eq_flatMap, bytesOf_eq_flatMap, String.toList_append, List.flatMap_append]

/-- The bytes of a character are itself, or none of ASCII. -/
theorem mem_utf8EncodeChar {b : UInt8} (hb : b ∈ String.utf8EncodeChar c) :
    b.toNat = c.toNat ∨ 128 ≤ b.toNat := by
  by_cases hc : c.toNat ≤ 127
  · left
    rw [utf8EncodeChar_of_ascii hc, List.mem_singleton] at hb
    subst hb
    exact UInt8.toNat_ofNat_of_lt (show c.toNat < 256 by omega)
  · -- all bytes of a longer encoding have their highest bit set
    right
    have hlead (x : Nat) (hx : 128 ≤ x ∧ x < 256) : 128 ≤ (UInt8.ofNat x).toNat := by
      rw [UInt8.toNat_ofNat_of_lt' hx.2]
      exact hx.1
    unfold String.utf8EncodeChar at hb
    dsimp only at hb
    rw [if_neg (show ¬ c.val.toNat ≤ 127 from hc)] at hb
    split at hb
    · simp only [List.mem_cons, List.not_mem_nil, or_false] at hb
      rcases hb with rfl | rfl <;> exact hlead _ (by omega)
    · split at hb
      · simp only [List.mem_cons, List.not_mem_nil, or_false] at hb
        rcases hb with rfl | rfl | rfl <;> exact hlead _ (by omega)
      · simp only [List.mem_cons, List.not_mem_nil, or_false] at hb
        rcases hb with rfl | rfl | rfl | rfl <;> exact hlead _ (by omega)

/-! ## Strings -/

theorem codePointBytes_toNat (c : Char) : codePointBytes c.toNat = (String.utf8EncodeChar c).reverse := by
  have hbytes := bytesOf_eq_flatMap (String.singleton c)
  rw [String.toList_singleton, List.flatMap_singleton] at hbytes
  rw [codePointBytes, Char.ofNat_toNat]
  exact congrArg List.reverse hbytes

/-- Bytes that nothing is made of are kept. -/
theorem stringBytes_append (h : ∀ b ∈ t, b ≠ byte '"' ∧ b ≠ byte '\\' ∧ ¬ b < 0x20) :
    stringBytes kept (t ++ rest) = stringBytes (t.reverse ++ kept) rest := by
  induction t generalizing kept with
  | nil => rfl
  | cons b bs ih =>
    obtain ⟨⟨hquote, hslash, hcontrol⟩, hbs⟩ := List.forall_mem_cons.mp h
    rw [List.cons_append, stringBytes.eq_def]
    dsimp only
    rw [if_neg (by simpa using hquote), if_neg (by simpa using hslash), if_neg hcontrol, ih hbs,
      List.reverse_cons, List.append_assoc, List.singleton_append]

theorem hexDigit_byte : ∀ d < 16, ∀ n < 128,
    (Char.ofNat n).toLower = Nat.digitChar d → hexDigit (byte (Char.ofNat n)) = some d := by
  decide +kernel

theorem hexDigit_of_isDigit {d : Nat} (h : IsDigit 16 c d) : hexDigit (byte c) = some d := by
  have hc : c.toNat < 128 := by
    by_contra hc
    rw [← Text.digitValue_eq_some_iff le_rfl, Text.digitValue_of_not_ascii (by omega)] at h
    cases h
  have hread := hexDigit_byte d h.1 c.toNat hc
  rw [Char.ofNat_toNat] at hread
  exact hread h.2

/-- A unit is read as the number that its digits spell. -/
theorem hexUnit_of_isUnit {digits : List UInt8} {n : Nat} (h : IsUnit digits n) :
    ∃ h₁ h₂ h₃ h₄, digits = [h₁, h₂, h₃, h₄] ∧ hexUnit h₁ h₂ h₃ h₄ = some n := by
  cases h with
  | mk ha hb hc hd =>
    refine ⟨_, _, _, _, rfl, ?_⟩
    simp [hexUnit, hexDigit_of_isDigit ha, hexDigit_of_isDigit hb, hexDigit_of_isDigit hc, hexDigit_of_isDigit hd]

theorem escapedByte_of_mem {e c : Char} (h : (e, c) ∈ letterEscapes) :
    escapedByte (byte e) = some (byte c) ∧ byte e ≠ byte 'u' ∧ c.toNat ≤ 127 := by
  have hall : ∀ p ∈ letterEscapes,
      escapedByte (byte p.1) = some (byte p.2) ∧ byte p.1 ≠ byte 'u' ∧ p.2.toNat ≤ 127 := by decide
  exact hall _ h

theorem stringBytes_letter {e b : UInt8} (he : e ≠ byte 'u') (h : escapedByte e = some b) :
    stringBytes kept (byte '\\' :: e :: rest) = stringBytes (b :: kept) rest := by
  rw [stringBytes.eq_def]
  dsimp only
  rw [if_neg (by decide), if_pos (by decide), if_neg (by simpa using he), h]

theorem stringBytes_unit {h₁ h₂ h₃ h₄ : UInt8} {n : Nat} (h : hexUnit h₁ h₂ h₃ h₄ = some n)
    (hn : n < 0xD800 ∨ 0xDFFF < n) :
    stringBytes kept (byte '\\' :: byte 'u' :: h₁ :: h₂ :: h₃ :: h₄ :: rest) =
      stringBytes (codePointBytes n ++ kept) rest := by
  have hlow : ¬ (decide (0xDC00 ≤ n) && decide (n ≤ 0xDFFF)) = true := by
    rw [Bool.and_eq_true, decide_eq_true_eq, decide_eq_true_eq]
    omega
  have hhigh : (decide (n < 0xD800) || decide (0xDFFF < n)) = true := by
    rw [Bool.or_eq_true, decide_eq_true_eq, decide_eq_true_eq]
    exact hn
  rw [stringBytes.eq_def]
  dsimp only
  rw [if_neg (by decide), if_pos (by decide), if_pos (by decide), h]
  dsimp only
  rw [if_neg hlow, if_pos hhigh]

theorem stringBytes_pair {h₁ h₂ h₃ h₄ l₁ l₂ l₃ l₄ : UInt8} {high low : Nat}
    (h : hexUnit h₁ h₂ h₃ h₄ = some high) (h' : hexUnit l₁ l₂ l₃ l₄ = some low)
    (hhigh : 0xD800 ≤ high ∧ high ≤ 0xDBFF) (hlow : 0xDC00 ≤ low ∧ low ≤ 0xDFFF) :
    stringBytes kept (byte '\\' :: byte 'u' :: h₁ :: h₂ :: h₃ :: h₄ ::
        byte '\\' :: byte 'u' :: l₁ :: l₂ :: l₃ :: l₄ :: rest) =
      stringBytes (codePointBytes ((high - 0xD800) * 0x400 + (low - 0xDC00) + 0x10000) ++ kept) rest := by
  have hnot : ¬ (decide (0xDC00 ≤ high) && decide (high ≤ 0xDFFF)) = true := by
    rw [Bool.and_eq_true, decide_eq_true_eq, decide_eq_true_eq]
    omega
  have hlead : ¬ (decide (high < 0xD800) || decide (0xDFFF < high)) = true := by
    rw [Bool.or_eq_true, decide_eq_true_eq, decide_eq_true_eq]
    omega
  have htrail : (decide (0xDC00 ≤ low) && decide (low ≤ 0xDFFF)) = true := by
    rw [Bool.and_eq_true, decide_eq_true_eq, decide_eq_true_eq]
    exact hlow
  rw [stringBytes.eq_def]
  dsimp only
  rw [if_neg (by decide), if_pos (by decide), if_pos (by decide), h]
  dsimp only
  rw [if_neg hnot, if_neg hlead, if_neg (by decide), if_neg (by decide), h']
  dsimp only
  rw [if_pos htrail]

/-- Every text of a character is read as its bytes. -/
theorem stringBytes_char (h : IsCharText c t) :
    stringBytes kept (t ++ rest) = stringBytes ((String.utf8EncodeChar c).reverse ++ kept) rest := by
  cases h with
  | plain hcontrol hquote hslash =>
    apply stringBytes_append
    intro b hb
    -- the bytes of a character beyond ASCII are all above it, and others are the character itself
    have hne {d : Char} (hd : d.toNat ≤ 127) (hcd : c ≠ d) : b ≠ byte d := by
      rintro rfl
      have hbyte : (byte d).toNat = d.toNat := UInt8.toNat_ofNat_of_lt' (show d.toNat < 256 by omega)
      rcases mem_utf8EncodeChar hb with h | h
      · exact hcd (Char.toNat_inj.mp (h.symm.trans hbyte))
      · omega
    refine ⟨hne (by decide) hquote, hne (by decide) hslash, ?_⟩
    rw [UInt8.lt_iff_toNat_lt]
    have hlimit : (0x20 : UInt8).toNat = 0x20 := rfl
    rcases mem_utf8EncodeChar hb with h | h <;> omega
  | @letter e c h =>
    obtain ⟨hread, hu, hascii⟩ := escapedByte_of_mem h
    rw [utf8EncodeChar_of_ascii hascii]
    exact stringBytes_letter hu hread
  | unit h =>
    obtain ⟨h₁, h₂, h₃, h₄, rfl, hread⟩ := hexUnit_of_isUnit h
    have hvalid : c.toNat < 0xD800 ∨ 0xDFFF < c.toNat := c.valid.imp_right And.left
    rw [← codePointBytes_toNat]
    exact stringBytes_unit hread hvalid
  | pair h h' hhigh hlow hc =>
    obtain ⟨h₁, h₂, h₃, h₄, rfl, hread⟩ := hexUnit_of_isUnit h
    obtain ⟨l₁, l₂, l₃, l₄, rfl, hread'⟩ := hexUnit_of_isUnit h'
    rw [← codePointBytes_toNat, hc]
    exact stringBytes_pair hread hread' hhigh hlow

theorem stringBytes_chars {cs : List Char} (h : IsCharsText cs t) :
    stringBytes kept (t ++ rest) = stringBytes ((cs.flatMap String.utf8EncodeChar).reverse ++ kept) rest := by
  induction h generalizing kept with
  | nil => rfl
  | cons hc _ ih =>
    rw [List.append_assoc, stringBytes_char hc, ih, List.flatMap_cons, List.reverse_append, List.append_assoc]

/-- Every text of a string is read as that string. -/
theorem string_of_isStringText (rest : List UInt8) (h : IsStringText s t) :
    ∃ body, t = byte '"' :: body ∧ Reader.string (body ++ rest) = .ok (s, rest) := by
  obtain ⟨body, hbody, rfl⟩ := h
  refine ⟨body ++ [byte '"'], rfl, ?_⟩
  have hbytes : stringBytes [] (body ++ [byte '"'] ++ rest) = .ok (bytesOf s, rest) := by
    rw [List.append_assoc, stringBytes_chars hbody, ← bytesOf_eq_flatMap, List.singleton_append,
      stringBytes.eq_def]
    dsimp only
    rw [if_pos (by decide), List.append_nil, List.reverse_reverse]
  have htext : String.fromUTF8? ⟨(bytesOf s).toArray⟩ = some s := by
    rw [bytesOf, Array.toArray_toList]
    exact dif_pos s.isValidUTF8
  unfold Reader.string
  refine Fallible.bind_eq_ok_iff.mpr ⟨_, hbytes, ?_⟩
  dsimp only
  rw [htext]

/-! ## Numbers -/

/-- What follows a number does not go on with it. -/
def Delimits (rest : List UInt8) : Prop :=
  ∀ b ∈ rest.head?, isDigit b = false ∧ b ≠ byte '.' ∧ b ≠ byte 'e' ∧ b ≠ byte 'E'

theorem Delimits.startsDigit (h : Delimits rest) : startsDigit rest = false := by
  cases rest with
  | nil => rfl
  | cons b rest => exact (h b rfl).1

theorem toNat_byte_of_isDigit (hc : c.isDigit = true) : (byte c).toNat = c.toNat ∧ 48 ≤ c.toNat ∧ c.toNat ≤ 57 := by
  have hrange : 48 ≤ c.toNat ∧ c.toNat ≤ 57 := by simpa [Char.isDigit, UInt32.le_iff_toNat_le] using hc
  exact ⟨UInt8.toNat_ofNat_of_lt' (show c.toNat < 256 by omega), hrange⟩

theorem isDigit_byte (hc : c.isDigit = true) : isDigit (byte c) = true := by
  obtain ⟨hbyte, hlow, hhigh⟩ := toNat_byte_of_isDigit hc
  rw [isDigit, Bool.and_eq_true, decide_eq_true_eq, decide_eq_true_eq, UInt8.le_iff_toNat_le,
    UInt8.le_iff_toNat_le, hbyte]
  exact ⟨hlow, hhigh⟩

theorem digit_byte (hc : c.isDigit = true) : digit (byte c) = c.toNat - '0'.toNat := by
  rw [digit, (toNat_byte_of_isDigit hc).1]

theorem bytesOf_nat (n : Nat) : bytesOf (toString n) = (Nat.toDigits 10 n).map byte := by
  have hdigits : (toString n).toList = Nat.toDigits 10 n := by simp
  rw [bytesOf_eq_flatMap, hdigits]
  refine flatMap_utf8EncodeChar fun c hc => ?_
  have hrange := toNat_byte_of_isDigit (Nat.isDigit_of_mem_toDigits (by decide) (by decide) hc)
  omega

theorem bytesOf_negSucc (n : Nat) :
    bytesOf (toString (Int.negSucc n)) = byte '-' :: (Nat.toDigits 10 (n + 1)).map byte := by
  show bytesOf ("-" ++ toString (n + 1)) = _
  rw [bytesOf_append, bytesOf_nat]
  rfl

/-- Digits are taken until there are no more, if the limit allows. -/
theorem takeDigits_append {limit value : Nat} (taken : Nat) {cs : List Char} (hcs : ∀ c ∈ cs, c.isDigit = true)
    (hlimit : Nat.ofDigitChars 10 cs value ≤ limit) (hrest : Delimits rest) :
    takeDigits limit value taken (cs.map byte ++ rest) = (Nat.ofDigitChars 10 cs value, taken + cs.length, rest) := by
  induction cs generalizing value taken with
  | nil =>
    cases rest with
    | nil => rfl
    | cons b rest =>
      have hb : ¬ (isDigit b && decide (value * 10 + digit b ≤ limit)) = true := by
        simp [(hrest b rfl).1]
      rw [List.map_nil, List.nil_append, takeDigits, if_neg hb]
      rfl
  | cons c cs ih =>
    obtain ⟨hc, hrestdigits⟩ := List.forall_mem_cons.mp hcs
    rw [Nat.ofDigitChars_cons, Nat.mul_comm, ← digit_byte hc] at hlimit ⊢
    have hle : value * 10 + digit (byte c) ≤ limit :=
      (Text.le_of_digitsFrom? (by decide)
        (Text.digitsFrom?_ten_eq_some_iff.mpr ⟨hrestdigits, rfl⟩)).trans hlimit
    have hb : (isDigit (byte c) && decide (value * 10 + digit (byte c) ≤ limit)) = true := by
      rw [isDigit_byte hc, decide_eq_true hle]
      rfl
    rw [List.map_cons, List.cons_append, takeDigits, if_pos hb, ih (taken + 1) hrestdigits hlimit, List.length_cons,
      Nat.add_assoc, Nat.add_comm 1]

/-- A number is written with at least one digit. -/
theorem exists_first_digit (n : Nat) : ∃ c cs, Nat.toDigits 10 n = c :: cs ∧ c.isDigit = true := by
  obtain ⟨c, cs, hcons⟩ := List.exists_cons_of_ne_nil (Nat.toDigits_ne_nil (n := n) (b := 10))
  have hmem : c ∈ Nat.toDigits 10 n := hcons ▸ List.mem_cons_self
  exact ⟨c, cs, hcons, Nat.isDigit_of_mem_toDigits (by decide) (by decide) hmem⟩

/-- Only zero is written with a zero in front. -/
theorem head_toDigits_ne_zero {n : Nat} (hn : n ≠ 0) : ∀ c ∈ (Nat.toDigits 10 n).head?, c ≠ '0' := by
  induction n using Nat.strong_induction_on with
  | _ n ih =>
    rw [Nat.toDigits_eq_if (by decide)]
    by_cases hsmall : n < 10
    · rw [if_pos hsmall]
      rintro _ ⟨⟩
      exact fun h => hn ((Text.digitChar_inj (by omega) (by decide)).mp h)
    · have hdiv : n / 10 ≠ 0 := by omega
      rw [if_neg hsmall, List.head?_append_of_ne_nil _ Nat.toDigits_ne_nil]
      exact ih (n / 10) (by omega) hdiv

theorem afterInteger_of_delimits {isPositive : Bool} {n : Nat} (hrest : Delimits rest) :
    afterInteger isPositive n rest = .ok (.number (integer isPositive n), rest) := by
  cases rest with
  | nil => rfl
  | cons b rest =>
    obtain ⟨-, hpoint, he, hE⟩ := hrest b rfl
    have hexponent : startsExponent (b :: rest) = false := by
      rw [startsExponent, Bool.or_eq_false_iff, beq_eq_false_iff_ne, beq_eq_false_iff_ne]
      exact ⟨he, hE⟩
    rw [afterInteger, if_neg (by simpa using hpoint), hexponent]
    rfl

/-- The digits of a number are read as the number. -/
theorem number_toDigits (isPositive : Bool) {n : Nat} (hn : n ≤ maxSignificand) (hrest : Delimits rest) :
    Reader.number isPositive ((Nat.toDigits 10 n).map byte ++ rest) =
      .ok (.number (integer isPositive n), rest) := by
  have hvalue : Nat.ofDigitChars 10 (Nat.toDigits 10 n) 0 = n := Nat.ofDigitChars_toDigits (by decide) (by decide)
  have hdigits : ∀ c ∈ Nat.toDigits 10 n, c.isDigit = true :=
    fun c hc => Nat.isDigit_of_mem_toDigits (by decide) (by decide) hc
  -- a zero stands alone, as no other number begins with one
  by_cases hzero : n = 0
  · subst hzero
    show Reader.number isPositive (byte '0' :: rest) = _
    rw [Reader.number, if_pos (by decide), hrest.startsDigit]
    exact afterInteger_of_delimits hrest
  · have hhead := head_toDigits_ne_zero hzero
    obtain ⟨c, cs, hcons⟩ := List.exists_cons_of_ne_nil (Nat.toDigits_ne_nil (n := n) (b := 10))
    rw [hcons] at hvalue hdigits hhead ⊢
    obtain ⟨hc, hcs⟩ := List.forall_mem_cons.mp hdigits
    have hfirst : byte c ≠ byte '0' := by
      intro heq
      have hnat := congrArg UInt8.toNat heq
      rw [(toNat_byte_of_isDigit hc).1] at hnat
      exact hhead c rfl (Char.toNat_inj.mp hnat)
    rw [Nat.ofDigitChars_cons, Nat.mul_zero, Nat.zero_add, ← digit_byte hc] at hvalue
    have htake := takeDigits_append 1 hcs (hvalue.trans_le hn) hrest
    rw [List.map_cons, List.cons_append, Reader.number, if_neg (by simpa using hfirst), if_pos (isDigit_byte hc),
      htake, hvalue]
    dsimp only
    rw [hrest.startsDigit]
    exact afterInteger_of_delimits hrest

end Json
end MessageRouter

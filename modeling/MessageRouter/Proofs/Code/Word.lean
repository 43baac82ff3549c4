import Mathlib.Tactic.IntervalCases
import MessageRouter.Cell.Slice
import MessageRouter.Identifier
import MessageRouter.Proofs.Cell.Representation
import MessageRouter.Proofs.Code.Syntax
import MessageRouter.Schema.Header
/-!
# `Proofs.Code.Word` — words in generated text

* `digits?_toDigits`, `digits?_hexBytes`: digits spell the number they were made from.
* `atom_toString`, `atom_opcode`, `atom_hexBytes`: the literals of generated text.
* `IsName`: a name that starts with a dollar sign, which is neither a number nor a word of the language.
-/
namespace MessageRouter
namespace Code

/-! ## Digits -/

/-- The number that some digits spell after others. -/
def digitsFrom? (radix n : Nat) (cs : List Char) : Option Nat :=
  cs.foldlM (fun n c => (Text.digitValue radix c).map (n * radix + ·)) n

theorem digits?_eq {radix : Nat} {cs : List Char} (h : cs ≠ []) :
    digits? radix cs = digitsFrom? radix 0 cs := by
  rw [digits?, if_neg (by simpa using h)]
  rfl

theorem digitsFrom?_append (radix n : Nat) (xs ys : List Char) :
    digitsFrom? radix n (xs ++ ys) = (digitsFrom? radix n xs).bind (digitsFrom? radix · ys) := by
  unfold digitsFrom?
  rw [List.foldlM_append]
  rfl

theorem digitValue_digitChar {radix d : Nat} (hd : d < radix) (hradix : radix ≤ 16) :
    Text.digitValue radix d.digitChar = some d := by
  have hd16 : d < 16 := Nat.lt_of_lt_of_le hd hradix
  unfold Text.digitValue
  interval_cases d <;> simpa [Nat.digitChar] using hd

@[simp] theorem digitsFrom?_digitChar {radix d : Nat} (hd : d < radix) (hradix : radix ≤ 16)
    (n : Nat) : digitsFrom? radix n [d.digitChar] = some (n * radix + d) := by
  simp [digitsFrom?, digitValue_digitChar hd hradix]

/-- The digits of a number spell it. -/
theorem digits?_toDigits {radix : Nat} (hlow : 1 < radix) (hradix : radix ≤ 16) (n : Nat) :
    digits? radix (Nat.toDigits radix n) = some n := by
  rw [digits?_eq Nat.toDigits_ne_nil]
  induction n using Nat.strong_induction_on with
  | _ n ih =>
    rw [Nat.toDigits_eq_if hlow]
    by_cases hn : n < radix
    · rw [if_pos hn, digitsFrom?_digitChar hn hradix, Nat.zero_mul, Nat.zero_add]
    · have hpos : 0 < n := by omega
      have hmod : n % radix < radix := Nat.mod_lt _ (by omega)
      rw [if_neg hn, digitsFrom?_append, ih _ (Nat.div_lt_self hpos hlow)]
      show digitsFrom? radix (n / radix) _ = _
      rw [digitsFrom?_digitChar hmod hradix, Nat.div_add_mod']

/-- Two digits spell a byte. -/
theorem digitsFrom?_byte (n : Nat) (b : UInt8) :
    digitsFrom? 16 n ((Nat.toDigits 16 b.toNat).leftpad 2 '0') = some (n * 256 + b.toNat) := by
  have hb : b.toNat < 256 := b.toNat_lt
  have hzero : '0' = Nat.digitChar 0 := rfl
  by_cases hsmall : b.toNat < 16
  · rw [Nat.toDigits_of_lt_base hsmall]
    show digitsFrom? 16 n ([Nat.digitChar 0] ++ [Nat.digitChar b.toNat]) = _
    rw [digitsFrom?_append, digitsFrom?_digitChar (by omega) (by omega), Option.bind_some,
      digitsFrom?_digitChar hsmall (by omega)]
    congr 1
    omega
  · have hhigh : b.toNat / 16 < 16 := by omega
    have hlow : b.toNat % 16 < 16 := by omega
    rw [Nat.toDigits_of_base_le (by omega) (by omega), Nat.toDigits_of_lt_base hhigh]
    show digitsFrom? 16 n ([Nat.digitChar (b.toNat / 16)] ++ [Nat.digitChar (b.toNat % 16)]) = _
    rw [digitsFrom?_append, digitsFrom?_digitChar hhigh (by omega), Option.bind_some,
      digitsFrom?_digitChar hlow (by omega)]
    congr 1
    omega

/-- The first byte counts for the bits of the others. -/
theorem toNat_ofBytes_cons (b : UInt8) (rest : List UInt8) :
    Bits.toNat (Bits.ofBytes (b :: rest)) =
      b.toNat * 2 ^ (8 * rest.length) + Bits.toNat (Bits.ofBytes rest) := by
  have hb : b.toNat % 2 ^ 8 = b.toNat := Nat.mod_eq_of_lt b.toNat_lt
  rw [Bits.ofBytes, List.flatMap_cons, Bits.toNat_append, Bits.toNat_ofNat, hb]
  show b.toNat * 2 ^ (Bits.ofBytes rest).length + _ = _
  rw [Bits.length_ofBytes]
  rfl

/-- The digits of bytes spell the number of their bits. -/
theorem digitsFrom?_bytes (n : Nat) (bytes : List UInt8) :
    digitsFrom? 16 n (Text.hexBytes bytes).toList =
      some (n * 2 ^ (8 * bytes.length) + Bits.toNat (Bits.ofBytes bytes)) := by
  rw [Text.hexBytes, String.toList_ofList]
  induction bytes generalizing n with
  | nil => simp [digitsFrom?, Bits.ofBytes]
  | cons b rest ih =>
    rw [List.flatMap_cons, digitsFrom?_append, digitsFrom?_byte, Option.bind_some, ih,
      toNat_ofBytes_cons, List.length_cons, Nat.mul_add, Nat.pow_add, Nat.add_mul, Nat.add_assoc,
      Nat.mul_comm (2 ^ (8 * rest.length)), Nat.mul_assoc]

/-- As many bytes of one hexadecimal text are of one number. -/
theorem hexBytes_eq_iff {xs ys : List UInt8} (hlength : xs.length = ys.length) :
    Text.hexBytes xs = Text.hexBytes ys ↔
      Bits.toNat (Bits.ofBytes xs) = Bits.toNat (Bits.ofBytes ys) := by
  constructor
  · intro h
    have hx := digitsFrom?_bytes 0 xs
    rw [h, digitsFrom?_bytes, hlength] at hx
    simpa using hx.symm
  · intro h
    rw [Bits.eq_of_toNat_ofBytes hlength h]

theorem exists_digit_of_mem_toDigits {radix n : Nat} (hlow : 1 < radix) {c : Char}
    (hc : c ∈ Nat.toDigits radix n) : ∃ d < radix, c = d.digitChar := by
  induction n using Nat.strong_induction_on with
  | _ n ih =>
    rw [Nat.toDigits_eq_if hlow] at hc
    split at hc
    · next hn => exact ⟨n, hn, List.mem_singleton.mp hc⟩
    · next hn =>
      rcases List.mem_append.mp hc with hc | hc
      · exact ih _ (Nat.div_lt_self (by omega) hlow) hc
      · exact ⟨n % radix, Nat.mod_lt _ (by omega), List.mem_singleton.mp hc⟩

/-- No digit is a blank, a mark or a sign. -/
theorem digitChar_spec {d : Nat} (hd : d < 16) :
    isWordPart d.digitChar = true ∧ d.digitChar ≠ '-' ∧ d.digitChar ≠ 'x' ∧ d.digitChar ≠ 't' := by
  interval_cases d <;> decide

theorem digit_of_mem_toDigits {radix n : Nat} (hlow : 1 < radix) (hradix : radix ≤ 16) {c : Char}
    (hc : c ∈ Nat.toDigits radix n) :
    isWordPart c = true ∧ c ≠ '-' ∧ c ≠ 'x' ∧ c ≠ 't' := by
  obtain ⟨d, hd, rfl⟩ := exists_digit_of_mem_toDigits hlow hc
  exact digitChar_spec (Nat.lt_of_lt_of_le hd hradix)

theorem exists_digit_of_mem_hexBytes {bytes : List UInt8} {c : Char}
    (hc : c ∈ (Text.hexBytes bytes).toList) : ∃ d < 16, c = d.digitChar := by
  rw [Text.hexBytes, String.toList_ofList] at hc
  obtain ⟨b, -, hc⟩ := List.mem_flatMap.mp hc
  rw [List.leftpad] at hc
  rcases List.mem_append.mp hc with hc | hc
  · exact ⟨0, by omega, List.eq_of_mem_replicate hc⟩
  · exact exists_digit_of_mem_toDigits (by omega) hc

/-! ## Numbers -/

/-- A decimal number has no sign or mark of a base in front. -/
theorem number?_toDigits (n : Nat) : number? (Nat.toDigits 10 n) = some (n : Int) := by
  have hdigit : ∀ c ∈ Nat.toDigits 10 n, c ≠ '-' ∧ c ≠ 'x' := fun c hc =>
    ⟨(digit_of_mem_toDigits (by omega) (by omega) hc).2.1,
      (digit_of_mem_toDigits (by omega) (by omega) hc).2.2.1⟩
  unfold number?
  split
  · next rest h => exact absurd rfl (hdigit 'x' (by simp [h])).2
  · next rest h => exact absurd rfl (hdigit '-' (by simp [h])).1
  · rw [digits?_toDigits (by omega) (by omega)]
    rfl

/-- A negative number is written as its digits behind a sign. -/
theorem toList_toString_negSucc (n : Nat) :
    (toString (Int.negSucc n)).toList = '-' :: Nat.toDigits 10 (n + 1) := by
  show ("-" ++ Nat.repr (n + 1)).toList = _
  rw [String.toList_append, Nat.toList_repr]
  rfl

/-- A number with a sign or without spells itself. -/
theorem number?_toString (i : Int) : number? (toString i).toList = some i := by
  cases i with
  | ofNat n =>
    show number? (Nat.repr n).toList = _
    rw [Nat.toList_repr]
    exact number?_toDigits n
  | negSucc n =>
    rw [toList_toString_negSucc, number?, digits?_toDigits (by omega) (by omega)]
    rfl

/-- A hexadecimal number spells itself. -/
theorem number?_hex (n : Nat) : number? ("0x" ++ Text.hex n).toList = some (n : Int) := by
  have htext : ("0x" ++ Text.hex n).toList = '0' :: 'x' :: Nat.toDigits 16 n := by
    simp [Text.hex]
  rw [htext, number?, digits?_toDigits (by omega) (by omega)]
  rfl

/-- Bytes spell the number of their bits. -/
theorem number?_hexBytes {bytes : List UInt8} (h : bytes ≠ []) :
    number? ("0x" ++ Text.hexBytes bytes).toList =
      some (Bits.toNat (Bits.ofBytes bytes) : Int) := by
  have htext : ("0x" ++ Text.hexBytes bytes).toList = '0' :: 'x' :: (Text.hexBytes bytes).toList := by
    rw [String.toList_append]
    rfl
  have hne : (Text.hexBytes bytes).toList ≠ [] := by
    cases bytes with
    | nil => exact absurd rfl h
    | cons b rest => simp [Text.hexBytes, List.leftpad]
  rw [htext, number?, digits?_eq hne, digitsFrom?_bytes, Nat.zero_mul, Nat.zero_add]
  rfl

/-- A word that spells a number is no truth value. -/
theorem atom_of_number? {word : String} {i : Int} (h : number? word.toList = some i) :
    atom word = .int i := by
  have htrue : word ≠ "true" := by
    rintro rfl
    exact nomatch h
  have hfalse : word ≠ "false" := by
    rintro rfl
    exact nomatch h
  rw [atom, if_neg htrue, if_neg hfalse, h]

theorem atom_toString (i : Int) : atom (toString i) = .int i := atom_of_number? (number?_toString i)

/-- No number is the sign alone. -/
theorem toString_ne_minus (i : Int) : toString i ≠ "-" := by
  intro h
  have hnumber := number?_toString i
  rw [h] at hnumber
  exact nomatch hnumber

theorem atom_bool (b : Bool) : atom (toString b) = .int (if b then -1 else 0) := by
  cases b <;> rfl

/-- The literal of an opcode spells it in either base. -/
theorem atom_opcode (h : Header) : atom h.opcode = .int h.value.toNat := by
  unfold Header.opcode
  cases h.base with
  | dec => exact atom_of_number? (number?_toString (h.value.toNat : Int))
  | bin | oct | hex => exact atom_of_number? (number?_hex _)

theorem opcode_ne_minus (h : Header) : h.opcode ≠ "-" := by
  intro heq
  have hatom := atom_opcode h
  rw [heq] at hatom
  exact nomatch hatom

theorem atom_hexBytes {bytes : List UInt8} (h : bytes ≠ []) :
    atom ("0x" ++ Text.hexBytes bytes) = .int (Bits.toNat (Bits.ofBytes bytes)) :=
  atom_of_number? (number?_hexBytes h)

/-! ## Words -/

theorem isWordPart_append {x y : String} (hx : ∀ c ∈ x.toList, isWordPart c = true)
    (hy : ∀ c ∈ y.toList, isWordPart c = true) : ∀ c ∈ (x ++ y).toList, isWordPart c = true := by
  intro c hc
  rw [String.toList_append] at hc
  rcases List.mem_append.mp hc with hc | hc
  · exact hx c hc
  · exact hy c hc

theorem isWord_append {x y : String} (hx : IsWord x) (hy : ∀ c ∈ y.toList, isWordPart c = true) :
    IsWord (x ++ y) := by
  refine ⟨?_, isWordPart_append hx.parts hy⟩
  rw [String.toList_append]
  exact fun h => hx.ne_nil (List.append_eq_nil_iff.mp h).1

theorem isWord_toString_nat (n : Nat) : IsWord (toString n) := by
  constructor
  · rw [Nat.toString_eq_repr, Nat.toList_repr]
    exact Nat.toDigits_ne_nil
  · intro c hc
    rw [Nat.toString_eq_repr, Nat.toList_repr] at hc
    exact (digit_of_mem_toDigits (by omega) (by omega) hc).1

theorem isWord_toString (i : Int) : IsWord (toString i) := by
  cases i with
  | ofNat n => exact isWord_toString_nat n
  | negSucc n =>
    show IsWord ("-" ++ Nat.repr (n + 1))
    refine isWord_append ⟨by decide, by decide⟩ (isWord_toString_nat (n + 1)).parts

theorem isWord_bool (b : Bool) : IsWord (toString b) := by
  cases b <;> exact ⟨by decide, by decide⟩

theorem isWord_opcode (h : Header) : IsWord h.opcode := by
  unfold Header.opcode
  cases h.base with
  | dec => exact isWord_toString_nat _
  | bin | oct | hex =>
    refine isWord_append ⟨by decide, by decide⟩ fun c hc => ?_
    rw [Text.hex, String.toList_ofList] at hc
    exact (digit_of_mem_toDigits (by omega) (by omega) hc).1

/-! ## Names -/

/-- A name that starts with a dollar sign. -/
structure IsName (name : String) : Prop where
  head : ∃ rest, name.toList = '$' :: rest
  parts : ∀ c ∈ name.toList, isWordPart c = true

namespace IsName

variable {name : String}

theorem isWord (h : IsName name) : IsWord name := by
  obtain ⟨rest, hrest⟩ := h.head
  exact ⟨by simp [hrest], h.parts⟩

/-- A name is no text that starts otherwise. -/
theorem ne (h : IsName name) {other : String} (hother : other.toList.head? ≠ some '$') :
    name ≠ other := by
  obtain ⟨rest, hrest⟩ := h.head
  rintro rfl
  rw [hrest] at hother
  exact hother rfl

/-- A name is no number. -/
theorem number?_eq_none (h : IsName name) : number? name.toList = none := by
  obtain ⟨rest, hrest⟩ := h.head
  rw [hrest, number?]
  · rw [digits?, if_neg (by simp)]
    rfl
  · exact nofun
  · exact nofun

/-- A name is read as a variable. -/
theorem atom_eq (h : IsName name) : atom name = .var name := by
  rw [atom, if_neg (h.ne (by decide)), if_neg (h.ne (by decide)), h.number?_eq_none]

/-- A name goes on with the characters of words. -/
theorem of_append {x y : String} (hx : IsName x) (hy : ∀ c ∈ y.toList, isWordPart c = true) :
    IsName (x ++ y) := by
  obtain ⟨rest, hrest⟩ := hx.head
  refine ⟨⟨rest ++ y.toList, ?_⟩, isWordPart_append hx.parts hy⟩
  rw [String.toList_append, hrest]
  rfl

theorem dollar : IsName "$" := ⟨⟨[], rfl⟩, by decide⟩

end IsName

end Code
end MessageRouter

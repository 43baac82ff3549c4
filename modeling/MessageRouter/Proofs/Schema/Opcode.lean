import MessageRouter.Proofs.Schema.Header
/-!
# `Proofs.Schema.Opcode` — opcodes in generated code

* `Header.spells_toDigits`: the digits of a number spell it in any base.
* `Header.read_toDigits`: behind the mark of a base, the digits of a number are read as that number in that base.
* `Header.inCode`: the literal that stands for another one in generated code, and is read there.
* `Header.opcode_canonical`: what is written there keeps the number and is written the same again, and two literals are
  written alike exactly if they have one number and both or neither of them are decimal.
-/
namespace MessageRouter
namespace Header

variable {mark : List Char} {radix n : Nat} {base : Base}

/-! ## Digits that were written -/

theorem one_lt_radix (base : Base) : 1 < base.radix := by
  cases base <;> decide

/-- No digit is a blank or an underscore. -/
theorem digitChar_ne {d : Nat} (hd : d < 16) :
    Text.isBlank d.digitChar = false ∧ d.digitChar ≠ '_' := by
  interval_cases d <;> decide

theorem ne_of_mem_toDigits (hlow : 1 < radix) (hradix : radix ≤ 16) {c : Char}
    (hc : c ∈ Nat.toDigits radix n) : Text.isBlank c = false ∧ c ≠ '_' := by
  obtain ⟨d, hd, rfl⟩ := Code.exists_digit_of_mem_toDigits hlow hc
  exact digitChar_ne (Nat.lt_of_lt_of_le hd hradix)

/-- The digits of a number spell it. -/
theorem spells_toDigits (hlow : 1 < radix) (hradix : radix ≤ 16) (n : Nat) :
    Spells radix (Nat.toDigits radix n) n := by
  have hfilter : (Nat.toDigits radix n).filter (· ≠ '_') = Nat.toDigits radix n := by
    apply List.filter_eq_self.mpr
    intro c hc
    simpa using (ne_of_mem_toDigits hlow hradix hc).2
  rw [spells_iff hradix, hfilter, ← Code.digits?_eq Nat.toDigits_ne_nil]
  exact Code.digits?_toDigits hlow hradix n

theorem isBlank_of_isMark (h : base.IsMark mark) : ∀ c ∈ mark, Text.isBlank c = false := by
  cases h with
  | hex hx => rcases hx with rfl | rfl <;> decide
  | bin hb => rcases hb with rfl | rfl <;> decide
  | oct ho => rcases ho with rfl | rfl <;> decide
  | dec => exact nofun

/-- Behind the mark of a base, the digits of a number are read as that number in that base. -/
theorem read_toDigits (h : Header) (hmark : h.base.IsMark mark) :
    read (String.ofList (mark ++ Nat.toDigits h.base.radix h.value.toNat)) = .ok h := by
  have hlow := one_lt_radix h.base
  have hradix := (radix_le h.base).2
  have hdigit {c : Char} := ne_of_mem_toDigits (n := h.value.toNat) hlow hradix (c := c)
  have hblank : ∀ c ∈ mark ++ Nat.toDigits h.base.radix h.value.toNat, Text.isBlank c = false := by
    intro c hc
    rcases List.mem_append.mp hc with hc | hc
    · exact isBlank_of_isMark hmark c hc
    · exact (hdigit hc).1
  rw [read_eq_ok_iff, String.toList_ofList]
  refine ⟨[], .inl rfl, mark, _, hmark, ?_, ?_, spells_toDigits hlow hradix _⟩
  · apply Text.trim_eq_self
    · exact fun c hc => hblank c (List.mem_of_mem_head? hc)
    · exact fun c hc => hblank c (List.mem_of_mem_getLast? hc)
  · obtain ⟨c, hc⟩ := List.exists_mem_of_ne_nil _ (Nat.toDigits_ne_nil (b := h.base.radix))
    exact ⟨c, hc, (hdigit hc).2⟩

/-! ## Generated code -/

/-- The literal that stands for another one in generated code: the same number, which is decimal if it was and hexadecimal
otherwise. -/
def inCode (h : Header) : Header := ⟨h.value, if h.base = .dec then .dec else .hex⟩

theorem exists_isMark (base : Base) : ∃ mark, base.IsMark mark := by
  cases base with
  | bin => exact ⟨_, .bin (.inl rfl)⟩
  | oct => exact ⟨_, .oct (.inl rfl)⟩
  | dec => exact ⟨_, .dec⟩
  | hex => exact ⟨_, .hex (.inl rfl)⟩

/-- Every header is the one of some literal. -/
theorem exists_read (h : Header) : ∃ text, read text = .ok h := by
  obtain ⟨mark, hmark⟩ := exists_isMark h.base
  exact ⟨_, read_toDigits h hmark⟩

/-- An opcode is written as the mark and the digits of the literal in its place. -/
theorem exists_opcode_eq (h : Header) :
    ∃ mark, h.inCode.base.IsMark mark ∧
      h.opcode = String.ofList (mark ++ Nat.toDigits h.inCode.base.radix h.inCode.value.toNat) := by
  have hhex : ("0x" ++ Text.hex h.value.toNat) =
      String.ofList (['0', 'x'] ++ Nat.toDigits 16 h.value.toNat) := by
    rw [String.ofList_append]
    rfl
  obtain ⟨value, base⟩ := h
  cases base with
  | dec => exact ⟨[], .dec, Nat.toString_eq_ofList_toDigits⟩
  | bin | oct | hex => exact ⟨['0', 'x'], .hex (.inl rfl), hhex⟩

/-- The literal in generated code is read as the one that it stands for. -/
theorem read_opcode (h : Header) : read h.opcode = .ok h.inCode := by
  obtain ⟨mark, hmark, hopcode⟩ := exists_opcode_eq h
  rw [hopcode]
  exact read_toDigits h.inCode hmark

theorem opcode_inCode (h : Header) : h.inCode.opcode = h.opcode := by
  obtain ⟨value, base⟩ := h
  cases base <;> rfl

theorem inCode_eq_inCode_iff (a b : Header) :
    a.inCode = b.inCode ↔ a.value = b.value ∧ (a.base = .dec ↔ b.base = .dec) := by
  unfold inCode
  rw [Header.mk.injEq]
  apply and_congr_right
  intro _
  by_cases ha : a.base = .dec <;> by_cases hb : b.base = .dec <;> simp [ha, hb]

/-- Every header comes from a literal. Its literal in generated code is read as the same number, decimal if the header is and
hexadecimal otherwise, and is written the same again; two headers have one literal there exactly if they have one number and
both or neither of them are decimal. -/
theorem opcode_canonical (a b : Header) :
    (∃ text, read text = .ok a) ∧
      read a.opcode = .ok ⟨a.value, if a.base = .dec then .dec else .hex⟩ ∧
      opcode ⟨a.value, if a.base = .dec then .dec else .hex⟩ = a.opcode ∧
      (a.opcode = b.opcode ↔ a.value = b.value ∧ (a.base = .dec ↔ b.base = .dec)) := by
  refine ⟨exists_read a, read_opcode a, opcode_inCode a, ?_⟩
  rw [← inCode_eq_inCode_iff]
  constructor
  · intro h
    have hread : Except.ok a.inCode = (.ok b.inCode : Except Error Header) := by
      rw [← read_opcode a, ← read_opcode b, h]
    exact Except.ok.inj hread
  · intro h
    calc a.opcode = a.inCode.opcode := (opcode_inCode a).symm
      _ = b.inCode.opcode := by rw [h]
      _ = b.opcode := opcode_inCode b

/-- Generated code has neither binary literals nor underscores. -/
example : (read "0B10_1010").map opcode = .ok "0x2a" := by rfl

end Header
end MessageRouter

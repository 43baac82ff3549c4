import MessageRouter.Proofs.Code.Run
import MessageRouter.Simulator.Frame
/-!
# `Proofs.Receiver.Value` — simulated values in generated programs

* `Code.Val.ofValue`: true is `-1`, false is `0`, and integers lose their bounds.
* `Int128.toInt_and`, `toInt_or`, `toInt_not`: bitwise operations do not depend on the width.
* `Simulator.ofValue_applyUnary`, `ofValue_applyBinary`: operators give the value of what the simulation
  gives, wherever it gives something.
-/
namespace MessageRouter

/-! ## Bits -/

/-- Integers that agree in every bit are equal. -/
theorem int_eq_of_testBit_eq {a b : Int} (h : ∀ i, a.testBit i = b.testBit i) : a = b := by
  -- far out, the bits of a negative integer are set and those of another one are not
  have hfar (m n : Nat) : ∃ i, m.testBit i = false ∧ n.testBit i = false := by
    refine ⟨m + n, ?_, ?_⟩ <;> apply Nat.testBit_lt_two_pow
    · exact Nat.lt_of_lt_of_le Nat.lt_two_pow_self (Nat.pow_le_pow_right (by omega) (by omega))
    · exact Nat.lt_of_lt_of_le Nat.lt_two_pow_self (Nat.pow_le_pow_right (by omega) (by omega))
  cases a with
  | ofNat m =>
    cases b with
    | ofNat n => exact congrArg Int.ofNat (Nat.eq_of_testBit_eq h)
    | negSucc n =>
      obtain ⟨i, hm, hn⟩ := hfar m n
      have hi : m.testBit i = !n.testBit i := h i
      rw [hm, hn] at hi
      exact nomatch hi
  | negSucc m =>
    cases b with
    | ofNat n =>
      obtain ⟨i, hm, hn⟩ := hfar m n
      have hi : (!m.testBit i) = n.testBit i := h i
      rw [hm, hn] at hi
      exact nomatch hi
    | negSucc n =>
      refine congrArg Int.negSucc (Nat.eq_of_testBit_eq fun i => ?_)
      exact Bool.not_inj (h i)

namespace Int128

/-- A negative integer is the complement of a natural number. -/
theorem bitVec_toInt_of_msb {w : Nat} {x : BitVec w} (h : x.msb = true) :
    x.toInt = Int.negSucc (~~~x).toNat := by
  have hlt := x.isLt
  rw [BitVec.toInt_eq_msb_cond, if_pos h, BitVec.toNat_not, Int.negSucc_eq]
  have hpow : ((2 ^ w : Nat) : Int) = 2 ^ w := by simp
  omega

/-- The bits of an integer, with the sign for all bits beyond the width. -/
theorem testBit_toInt {w : Nat} (x : BitVec w) (i : Nat) :
    x.toInt.testBit i = if i < w then x.getLsbD i else x.msb := by
  cases hmsb : x.msb with
  | false =>
    rw [BitVec.toInt_eq_toNat_of_msb hmsb]
    show x.toNat.testBit i = _
    rw [BitVec.testBit_toNat]
    split
    · rfl
    · next hi => exact BitVec.getLsbD_of_ge x i (by omega)
  | true =>
    rw [bitVec_toInt_of_msb hmsb]
    show (!(~~~x).toNat.testBit i) = _
    rw [BitVec.testBit_toNat, BitVec.getLsbD_not]
    split
    · next hi => simp [hi]
    · next hi => simp [hi]

theorem toInt_and (a b : Int128) : (a.and b).toInt = a.toInt.land b.toInt := by
  refine int_eq_of_testBit_eq fun i => ?_
  rw [Int.testBit_land]
  simp only [toInt, and, testBit_toInt, BitVec.getLsbD_and, BitVec.msb_and]
  split <;> rfl

theorem toInt_or (a b : Int128) : (a.or b).toInt = a.toInt.lor b.toInt := by
  refine int_eq_of_testBit_eq fun i => ?_
  rw [Int.testBit_lor]
  simp only [toInt, or, testBit_toInt, BitVec.getLsbD_or, BitVec.msb_or]
  split <;> rfl

theorem toInt_not (a : Int128) : a.not.toInt = -a.toInt - 1 := by
  have hlnot : a.not.toInt = a.toInt.lnot := by
    refine int_eq_of_testBit_eq fun i => ?_
    rw [Int.testBit_lnot]
    simp only [toInt, not, testBit_toInt, BitVec.getLsbD_not]
    split
    · next hi => simp [hi]
    · simp [BitVec.msb_not]
  rw [hlnot]
  cases a.toInt with
  | ofNat n =>
    show Int.negSucc n = -(n : Int) - 1
    omega
  | negSucc n =>
    show (n : Int) = _
    omega

theorem toInt_inj {a b : Int128} (h : a.toInt = b.toInt) : a = b := by
  obtain ⟨x⟩ := a
  obtain ⟨y⟩ := b
  exact congrArg _ (BitVec.eq_of_toInt_eq h)

theorem toInt_ofInt64 (i : Int64) : (ofInt64 i).toInt = i.toInt := by
  have hlow := i.le_toInt
  have hhigh := i.toInt_lt
  exact toInt_ofInt ⟨by omega, by omega⟩

end Int128

/-! ## Values -/

namespace Code.Val

/-- A simulated value in a generated program. -/
def ofValue : Value → Val
  | .int i => .int i.toInt
  | .bool b => ofBool b
  | .slice s => .slice s

/-- The integer of a value that is no slice. -/
def intOf : Value → Int
  | .int i => i.toInt
  | .bool b => if b then -1 else 0
  | .slice _ => 0

theorem ofValue_eq {v : Value} (h : v.kind ≠ .slice) : ofValue v = .int (intOf v) := by
  cases v with
  | slice s => exact absurd rfl h
  | int i | bool b => rfl

/-- Values count as true in the same cases. -/
theorem truth_eq_ok {v : Value} {b : Bool} (h : Simulator.truth v = .ok b) :
    v.kind ≠ .slice ∧ (intOf v ≠ 0 ↔ b = true) := by
  cases v with
  | slice s => exact nomatch h
  | bool c =>
    obtain rfl := Except.ok.inj h
    refine ⟨nofun, ?_⟩
    cases c <;> decide
  | int i =>
    obtain rfl := Except.ok.inj h
    refine ⟨nofun, ?_⟩
    rw [decide_eq_true_eq]
    refine not_congr ⟨fun hi => Int128.toInt_inj hi, ?_⟩
    rintro rfl
    rfl

end Code.Val

/-! ## Operators -/

namespace Simulator

open Code (Val)

theorem inRange_eq_ok {i : Int} {v : Value} (h : inRange (Int128.ofInt? i) = .ok v) :
    Val.ofValue v = .int i := by
  cases hi : Int128.ofInt? i with
  | none =>
    rw [hi] at h
    exact nomatch h
  | some n =>
    rw [hi] at h
    obtain rfl := Except.ok.inj h
    exact congrArg Val.int (Int128.ofInt?_eq_some_iff.mp hi).2

/-- A sign or a complement gives what it gives without bounds. -/
theorem ofValue_applyUnary {op : UnaryOp} {v r : Value} (h : applyUnary op v = .ok r) :
    v.kind ≠ .slice ∧
      Val.ofValue r =
        .int (match op with
          | .neg => -Val.intOf v
          | .not => -Val.intOf v - 1) := by
  cases op with
  | neg =>
    cases v with
    | int i => exact ⟨nofun, inRange_eq_ok h⟩
    | bool b | slice s => exact nomatch h
  | not =>
    cases v with
    | int i =>
      obtain rfl := Except.ok.inj h
      exact ⟨nofun, congrArg Val.int (Int128.toInt_not i)⟩
    | bool b =>
      obtain rfl := Except.ok.inj h
      refine ⟨nofun, ?_⟩
      cases b <;> rfl
    | slice s => exact nomatch h

theorem ofValue_applyInt {op : BinaryOp} {a b : Int128} {r : Value} (h : applyInt op a b = .ok r) :
    Val.ofValue r = Code.applyBinary op a.toInt b.toInt := by
  have heq : a = b ↔ a.toInt = b.toInt := ⟨fun hab => hab ▸ rfl, Int128.toInt_inj⟩
  cases op with
  | add | sub | mul => exact inRange_eq_ok h
  | eq =>
    obtain rfl := Except.ok.inj h
    simp only [Val.ofValue, Code.applyBinary, heq]
  | ne =>
    obtain rfl := Except.ok.inj h
    simp only [Val.ofValue, Code.applyBinary, ne_eq, heq]
  | lt | le | gt | ge =>
    obtain rfl := Except.ok.inj h
    rfl
  | and =>
    obtain rfl := Except.ok.inj h
    exact congrArg Val.int (Int128.toInt_and a b)
  | or =>
    obtain rfl := Except.ok.inj h
    exact congrArg Val.int (Int128.toInt_or a b)

/-- Truth values are combined bit by bit. -/
theorem ofValue_applyBool? {op : BinaryOp} {a b c : Bool} (h : applyBool? op a b = some c) :
    Val.ofBool c = Code.applyBinary op (if a then -1 else 0) (if b then -1 else 0) := by
  cases op with
  | add | sub | mul | lt | le | gt | ge => exact nomatch h
  | eq | ne =>
    obtain rfl := Option.some.inj h
    cases a <;> cases b <;> rfl
  | and | or =>
    obtain rfl := Option.some.inj h
    cases a <;> cases b <;> exact congrArg Val.int (by decide +kernel)

/-- An operator gives what it gives on integers without bounds. -/
theorem ofValue_applyBinary {op : BinaryOp} {a b r : Value} (h : applyBinary op a b = .ok r) :
    a.kind ≠ .slice ∧ b.kind ≠ .slice ∧
      Val.ofValue r = Code.applyBinary op (Val.intOf a) (Val.intOf b) := by
  cases a with
  | slice s => cases b <;> exact nomatch h
  | int i =>
    cases b with
    | int j => exact ⟨nofun, nofun, ofValue_applyInt h⟩
    | bool j | slice s => exact nomatch h
  | bool i =>
    cases b with
    | int j | slice s => exact nomatch h
    | bool j =>
      refine ⟨nofun, nofun, ?_⟩
      unfold applyBinary at h
      simp only at h
      split at h
      · next c hc =>
        obtain rfl := Except.ok.inj h
        exact ofValue_applyBool? hc
      · exact nomatch h

end Simulator
end MessageRouter

import MessageRouter.Proofs.Fallible
import MessageRouter.Proofs.Receiver.Value
/-!
# `Proofs.Body.Arithmetic` — operands compute exactly or not at all

* `Exact`, `Operand.exactValue?`: values and operands over integers without bounds.
* `Operand.HasKind`: operands whose operators meet the kinds they have a meaning for.
* `Call.eval_ends_exact`: what an operand evaluates to is its exact value, and an overflow comes from a part of it that
  is out of range.
* `Call.not_leavesRange_of_eval`: an operand that has a value stays in range with all its parts.
* `Call.eval_kind`, `Call.hasKind_of_eval`: operands of some kind have a value of the kind unless one overflows.
* `Call.eval_exact`: operands never wrap, and leave the range only where a part of them does.
-/
namespace MessageRouter

/-! ## Exact values -/

/-- A value in which integers have no bounds. -/
inductive Exact where
  | int (i : Int)
  | bool (b : Bool)
  | slice (s : Slice)

namespace Exact

def ofValue : Value → Exact
  | .int i => int i.toInt
  | .bool b => bool b
  | .slice s => slice s

/-- The complement of an integer turns all of its infinitely many bits over. -/
def unary? : UnaryOp → Exact → Option Exact
  | .neg, int i => some (int (-i))
  | .not, int i => some (int i.lnot)
  | .not, bool b => some (bool !b)
  | _, _ => none

/-- An operator on integers; `and` and `or` work on infinitely many bits in two's complement. -/
def ofInts (op : BinaryOp) (a b : Int) : Exact :=
  match op with
  | .add => int (a + b)
  | .sub => int (a - b)
  | .mul => int (a * b)
  | .eq => bool (a = b)
  | .ne => bool (a ≠ b)
  | .lt => bool (a < b)
  | .le => bool (a ≤ b)
  | .gt => bool (b < a)
  | .ge => bool (b ≤ a)
  | .and => int (a.land b)
  | .or => int (a.lor b)

/-- An operator on truth values, which are not ordered. -/
def ofBools? (op : BinaryOp) (a b : Bool) : Option Exact :=
  match op with
  | .eq => some (bool (a = b))
  | .ne => some (bool (a ≠ b))
  | .and => some (bool (a ∧ b))
  | .or => some (bool (a ∨ b))
  | .add | .sub | .mul | .lt | .le | .gt | .ge => none

def binary? (op : BinaryOp) : Exact → Exact → Option Exact
  | int a, int b => some (ofInts op a b)
  | bool a, bool b => ofBools? op a b
  | _, _ => none

end Exact

namespace Operand

/-- The exact value of an operand, given what is found at its places. -/
def exactValue? (found : Place → Option Value) : Operand → Option Exact
  | int i => some (.int i.toInt)
  | bool b => some (.bool b)
  | place p => (found p).map .ofValue
  | bits p =>
    match found p with
    | some (.slice s) => some (.int s.remaining)
    | _ => none
  | unary op x => do Exact.unary? op (← x.exactValue? found)
  | binary op a b => do Exact.binary? op (← a.exactValue? found) (← b.exactValue? found)

/-- An operand and all the operands in it. -/
def parts : Operand → List Operand
  | unary op x => unary op x :: x.parts
  | binary op a b => binary op a b :: (a.parts ++ b.parts)
  | x => [x]

theorem self_mem_parts (x : Operand) : x ∈ x.parts := by cases x <;> exact List.mem_cons_self

/-- The parts of a part are parts. -/
theorem parts_subset {x y : Operand} (h : y ∈ x.parts) : y.parts ⊆ x.parts := by
  induction x with
  | int i | bool b | place p | bits p =>
    obtain rfl := List.mem_singleton.mp h
    exact List.Subset.refl _
  | unary op x ih =>
    rcases List.mem_cons.mp h with rfl | h
    · exact List.Subset.refl _
    · exact List.Subset.trans (ih h) (List.subset_cons_self _ _)
  | binary op a b iha ihb =>
    rcases List.mem_cons.mp h with rfl | h
    · exact List.Subset.refl _
    · refine List.Subset.trans ?_ (List.subset_cons_self _ _)
      rcases List.mem_append.mp h with h | h
      · exact List.Subset.trans (iha h) (List.subset_append_left _ _)
      · exact List.Subset.trans (ihb h) (List.subset_append_right _ _)

/-- The exact value of some part of an operand is an integer out of range. -/
def LeavesRange (found : Place → Option Value) (x : Operand) : Prop :=
  ∃ y ∈ x.parts, ∃ i, y.exactValue? found = some (.int i) ∧ ¬ Int128.InRange i

theorem LeavesRange.of_part {found : Place → Option Value} {x y : Operand} (h : y.LeavesRange found)
    (hsub : y.parts ⊆ x.parts) : x.LeavesRange found := by
  obtain ⟨z, hz, hout⟩ := h
  exact ⟨z, hsub hz, hout⟩

/-- An operand whose operators meet the kinds they have a meaning for, with the kind of its value. -/
inductive HasKind (found : Place → Option Value) : Operand → Value.Kind → Prop where
  | int (i : Int64) : HasKind found (.int i) .int
  | bool (b : Bool) : HasKind found (.bool b) .bool
  | place {p v} (h : found p = some v) : HasKind found (.place p) v.kind
  | bits {p s} (h : found p = some (.slice s)) : HasKind found (.bits p) .int
  | neg {x} (hx : HasKind found x .int) : HasKind found (.unary .neg x) .int
  | not {x k} (hk : k ≠ .slice) (hx : HasKind found x k) : HasKind found (.unary .not x) k
  | arithmetic {op a b} (hop : op ∈ [.add, .sub, .mul]) (ha : HasKind found a .int) (hb : HasKind found b .int) :
      HasKind found (.binary op a b) .int
  | order {op a b} (hop : op ∈ [.lt, .le, .gt, .ge]) (ha : HasKind found a .int) (hb : HasKind found b .int) :
      HasKind found (.binary op a b) .bool
  | equality {op a b k} (hop : op ∈ [.eq, .ne]) (hk : k ≠ .slice) (ha : HasKind found a k)
      (hb : HasKind found b k) : HasKind found (.binary op a b) .bool
  | logic {op a b k} (hop : op ∈ [.and, .or]) (hk : k ≠ .slice) (ha : HasKind found a k)
      (hb : HasKind found b k) : HasKind found (.binary op a b) k

end Operand

/-! ## Operators -/

/-- The complement of an integer is one less than its negative. -/
theorem Int128.toInt_not_eq_lnot (i : Int128) : i.not.toInt = i.toInt.lnot := by
  rw [toInt_not]
  cases i.toInt with
  | ofNat n =>
    show -(n : Int) - 1 = Int.negSucc n
    omega
  | negSucc n =>
    show -Int.negSucc n - 1 = (n : Int)
    omega

namespace Simulator

open Fallible (Ends)

/-- A result of arithmetic is exact, and there is none only where it is out of range. -/
theorem inRange_exact (i : Int) :
    Ends (fun r => Exact.ofValue r = .int i ∧ r.kind = .int) (fun e => e = .overflow ∧ ¬ Int128.InRange i)
      (inRange (Int128.ofInt? i)) := by
  cases h : Int128.ofInt? i with
  | some n => exact ⟨congrArg Exact.int (Int128.ofInt?_eq_some_iff.mp h).2, rfl⟩
  | none =>
    refine ⟨rfl, fun hi => ?_⟩
    have hsome := Int128.ofInt?_eq_some_iff.mpr ⟨hi, Int128.toInt_ofInt hi⟩
    rw [h] at hsome
    exact nomatch hsome

/-- An exit with the code of an overflow, if there is one, is for a result out of range. -/
def Exit.TellsRange (result : Option Exact) (e : Exit) : Prop :=
  e.code = Exit.overflow.code → ∃ i, result = some (.int i) ∧ ¬ Int128.InRange i

theorem inRange_tells {i : Int} {result : Option Exact} (h : result = some (.int i)) :
    Ends (fun r => result = some (.ofValue r)) (Exit.TellsRange result) (inRange (Int128.ofInt? i)) := by
  refine (inRange_exact i).imp (fun r hr => ?_) fun e he _ => ⟨i, h, he.2⟩
  rw [h, hr.1]

theorem applyUnary_exact (op : UnaryOp) (v : Value) :
    Ends (fun r => Exact.unary? op (.ofValue v) = some (.ofValue r))
      (Exit.TellsRange (Exact.unary? op (.ofValue v))) (applyUnary op v) := by
  cases op with
  | neg =>
    cases v with
    | int i => exact inRange_tells rfl
    | bool b | slice s => exact nofun
  | not =>
    cases v with
    | int i => exact congrArg (some ∘ Exact.int) (Int128.toInt_not_eq_lnot i).symm
    | bool b => exact rfl
    | slice s => exact nofun

theorem applyInt_exact (op : BinaryOp) (a b : Int128) :
    Ends (fun r => some (Exact.ofInts op a.toInt b.toInt) = some (.ofValue r))
      (Exit.TellsRange (some (Exact.ofInts op a.toInt b.toInt))) (applyInt op a b) := by
  have heq : a = b ↔ a.toInt = b.toInt := ⟨fun h => h ▸ rfl, Int128.toInt_inj⟩
  cases op with
  | add | sub | mul => exact inRange_tells rfl
  | eq | ne => simp [applyInt, Ends, Exact.ofInts, Exact.ofValue, heq]
  | lt | le | gt | ge => exact rfl
  | and => exact congrArg (some ∘ Exact.int) (Int128.toInt_and a b).symm
  | or => exact congrArg (some ∘ Exact.int) (Int128.toInt_or a b).symm

theorem applyBinary_exact (op : BinaryOp) (v w : Value) :
    Ends (fun r => Exact.binary? op (.ofValue v) (.ofValue w) = some (.ofValue r))
      (Exit.TellsRange (Exact.binary? op (.ofValue v) (.ofValue w))) (applyBinary op v w) := by
  cases v with
  | slice s => cases w <;> exact nofun
  | int a =>
    cases w with
    | int b => exact applyInt_exact op a b
    | bool b | slice s => exact nofun
  | bool a =>
    cases w with
    | int b | slice s => exact nofun
    | bool b =>
      cases op with
      | add | sub | mul | lt | le | gt | ge => exact nofun
      | eq | ne | and | or => cases a <;> cases b <;> rfl

/-! ## Operands -/

namespace Call

variable {c : Call} {f : Frame}

/-- What is found at a place, if it can be read. -/
def found (c : Call) (f : Frame) (p : Place) : Option Value := (c.read f p).toOption

theorem found_eq_some_iff {p : Place} {v : Value} : c.found f p = some v ↔ c.read f p = .ok v := by
  unfold found
  cases c.read f p with
  | ok w => exact ⟨fun h => congrArg Except.ok (Option.some.inj h), fun h => congrArg some (Except.ok.inj h)⟩
  | error e => exact ⟨nofun, nofun⟩

/-- Reading a place is no arithmetic. -/
theorem code_of_read_error {p : Place} {e : Exit} (h : c.read f p = .error e) : e.code = Exit.typeCheck := by
  unfold read at h
  split at h
  · unfold readState at h
    split at h
    · exact nomatch h
    · exact Except.error.inj h ▸ rfl
  · split at h
    · unfold readPayload at h
      split at h
      · split at h
        · exact nomatch h
        · exact Except.error.inj h ▸ rfl
      · exact nomatch h
      · exact Except.error.inj h ▸ rfl
    · unfold readLocal at h
      split at h
      · exact nomatch h
      · exact Except.error.inj h ▸ rfl

/-- The slices that an operand measures are no longer than an integer can tell. -/
def MeasuresInRange (c : Call) (f : Frame) (x : Operand) : Prop :=
  ∀ p s, .bits p ∈ x.parts → c.read f p = .ok (.slice s) → s.remaining < 2 ^ 127

theorem MeasuresInRange.part {x y : Operand} (h : c.MeasuresInRange f x) (hsub : y.parts ⊆ x.parts) :
    c.MeasuresInRange f y :=
  fun p s hp => h p s (hsub hp)

theorem measure_exact {p : Place} (hm : c.MeasuresInRange f (.bits p)) :
    Ends (fun r => (Operand.bits p).exactValue? (c.found f) = some (.ofValue r)) (·.code = Exit.typeCheck)
      (c.measure f p) := by
  unfold measure
  cases hread : c.read f p with
  | error e => exact code_of_read_error hread
  | ok v =>
    cases v with
    | int i | bool b => exact rfl
    | slice s =>
      have hshort := hm p s (Operand.self_mem_parts _) hread
      show Operand.exactValue? _ _ = _
      rw [Operand.exactValue?, found_eq_some_iff.mpr hread, Exact.ofValue, Int128.toInt_ofNat hshort]

/-- An operand has its exact value, or exits with another code than that of an overflow, or one of its parts is
out of range. -/
theorem eval_ends_exact (x : Operand) (hm : c.MeasuresInRange f x) :
    Ends (fun r => x.exactValue? (c.found f) = some (.ofValue r))
      (fun e => e.code = Exit.overflow.code → x.LeavesRange (c.found f)) (c.eval f x) := by
  induction x with
  | int i => exact congrArg (some ∘ Exact.int) (Int128.toInt_ofInt64 i).symm
  | bool b => exact rfl
  | place p =>
    rw [eval]
    cases hread : c.read f p with
    | error e =>
      intro he
      rw [code_of_read_error hread] at he
      exact nomatch he
    | ok v =>
      show Operand.exactValue? _ _ = _
      rw [Operand.exactValue?, found_eq_some_iff.mpr hread]
      rfl
  | bits p =>
    refine (measure_exact hm).imp (fun _ h => h) fun e he hcode => ?_
    rw [he] at hcode
    exact nomatch hcode
  | unary op x ih =>
    -- a part of the operand that leaves the range is a part of the whole
    have hsub : x.parts ⊆ (Operand.unary op x).parts := List.subset_cons_self _ _
    refine ((ih (hm.part hsub)).imp (fun _ h => h) fun e he hcode => (he hcode).of_part hsub).bind fun v hv => ?_
    have hexact : (Operand.unary op x).exactValue? (c.found f) = Exact.unary? op (.ofValue v) := by
      rw [Operand.exactValue?, hv]
      rfl
    rw [hexact]
    refine (applyUnary_exact op v).imp (fun _ h => h) fun e he hcode => ?_
    exact ⟨_, Operand.self_mem_parts _, hexact ▸ he hcode⟩
  | binary op a b iha ihb =>
    have hsuba : a.parts ⊆ (Operand.binary op a b).parts := fun y hy =>
      List.mem_cons_of_mem _ (List.mem_append_left _ hy)
    have hsubb : b.parts ⊆ (Operand.binary op a b).parts := fun y hy =>
      List.mem_cons_of_mem _ (List.mem_append_right _ hy)
    refine ((iha (hm.part hsuba)).imp (fun _ h => h) fun e he hcode => (he hcode).of_part hsuba).bind
      fun v hv => ?_
    refine ((ihb (hm.part hsubb)).imp (fun _ h => h) fun e he hcode => (he hcode).of_part hsubb).bind
      fun w hw => ?_
    have hexact : (Operand.binary op a b).exactValue? (c.found f) = Exact.binary? op (.ofValue v) (.ofValue w) := by
      rw [Operand.exactValue?, hv, hw]
      rfl
    rw [hexact]
    refine (applyBinary_exact op v w).imp (fun _ h => h) fun e he hcode => ?_
    exact ⟨_, Operand.self_mem_parts _, hexact ▸ he hcode⟩

/-- An operand has a value only if all of its parts have: both operands of an operator are evaluated. -/
theorem exists_eval_part {x y : Operand} {v : Value} (h : c.eval f x = .ok v) (hy : y ∈ x.parts) :
    ∃ w, c.eval f y = .ok w := by
  induction x generalizing v with
  | int i | bool b | place p | bits p =>
    obtain rfl := List.mem_singleton.mp hy
    exact ⟨v, h⟩
  | unary op x ih =>
    obtain ⟨w, hw, -⟩ := Fallible.bind_eq_ok_iff.mp h
    rcases List.mem_cons.mp hy with rfl | hy
    · exact ⟨v, h⟩
    · exact ih hw hy
  | binary op a b iha ihb =>
    obtain ⟨w, hw, hrest⟩ := Fallible.bind_eq_ok_iff.mp h
    obtain ⟨w', hw', -⟩ := Fallible.bind_eq_ok_iff.mp hrest
    rcases List.mem_cons.mp hy with rfl | hy
    · exact ⟨v, h⟩
    · rcases List.mem_append.mp hy with hy | hy
      · exact iha hw hy
      · exact ihb hw' hy

/-- An operand that has a value does not leave the range. -/
theorem not_leavesRange_of_eval {x : Operand} (hm : c.MeasuresInRange f x) {v : Value} (h : c.eval f x = .ok v) :
    ¬ x.LeavesRange (c.found f) := by
  rintro ⟨y, hy, i, hi, hout⟩
  obtain ⟨w, hw⟩ := exists_eval_part h hy
  have hsub : ∀ z ∈ y.parts, z ∈ x.parts := fun z hz => Operand.parts_subset hy hz
  have hends := eval_ends_exact y (hm.part hsub)
  rw [hw] at hends
  have hvalue : some (Exact.int i) = some (.ofValue w) := hi.symm.trans hends
  cases w with
  | int n =>
    injection hvalue with hvalue
    injection hvalue with hvalue
    exact hout (hvalue ▸ n.inRange_toInt)
  | bool b | slice s => exact nomatch hvalue

/-! ## Kinds -/

theorem inRange_kind (i : Int) : Ends (·.kind = .int) (· = .overflow) (inRange (Int128.ofInt? i)) :=
  (inRange_exact i).imp (fun _ h => h.2) fun _ h => h.1

theorem kind_of_inRange {i : Int} {r : Value} (h : inRange (Int128.ofInt? i) = .ok r) : r.kind = .int := by
  have hkind := inRange_kind i
  rwa [h] at hkind

theorem exists_int {v : Value} (h : v.kind = .int) : ∃ i, v = .int i := by
  cases v with
  | int i => exact ⟨i, rfl⟩
  | bool b | slice s => exact nomatch h

/-- Two values of one kind that is not that of slices. -/
theorem ints_or_bools {k : Value.Kind} (hk : k ≠ .slice) {v w : Value} (hv : v.kind = k) (hw : w.kind = k) :
    (∃ i j, v = .int i ∧ w = .int j ∧ k = .int) ∨ ∃ a b, v = .bool a ∧ w = .bool b ∧ k = .bool := by
  subst hv
  cases v with
  | slice s => exact absurd rfl hk
  | int i =>
    obtain ⟨j, rfl⟩ := exists_int hw
    exact .inl ⟨i, j, rfl, rfl, rfl⟩
  | bool a =>
    cases w with
    | bool b => exact .inr ⟨a, b, rfl, rfl, rfl⟩
    | int j | slice s => exact nomatch hw

/-- An operand of some kind has a value of it, or its arithmetic leaves the range. -/
theorem eval_kind {x : Operand} {k : Value.Kind} (h : x.HasKind (c.found f) k) :
    Ends (·.kind = k) (· = .overflow) (c.eval f x) := by
  induction h with
  | int | bool => exact rfl
  | place h =>
    rw [eval, found_eq_some_iff.mp h]
    exact rfl
  | bits h =>
    rw [eval, measure, found_eq_some_iff.mp h]
    exact rfl
  | neg _ ih =>
    refine ih.bind fun v hv => ?_
    obtain ⟨i, rfl⟩ := exists_int hv
    exact inRange_kind _
  | not hk _ ih =>
    refine ih.bind fun v hv => ?_
    cases v with
    | int i | bool b => exact hv
    | slice s => exact absurd hv.symm hk
  | @arithmetic op a b hop _ _ iha ihb =>
    -- both values are integers, so nothing but the range can fail
    refine iha.bind fun v hv => ihb.bind fun w hw => ?_
    obtain ⟨i, rfl⟩ := exists_int hv
    obtain ⟨j, rfl⟩ := exists_int hw
    cases op with
    | add | sub | mul => exact inRange_kind _
    | eq | ne | lt | le | gt | ge | and | or => simp at hop
  | @order op a b hop _ _ iha ihb =>
    refine iha.bind fun v hv => ihb.bind fun w hw => ?_
    obtain ⟨i, rfl⟩ := exists_int hv
    obtain ⟨j, rfl⟩ := exists_int hw
    cases op with
    | lt | le | gt | ge => exact rfl
    | add | sub | mul | eq | ne | and | or => simp at hop
  | @equality op a b k hop hk _ _ iha ihb =>
    refine iha.bind fun v hv => ihb.bind fun w hw => ?_
    cases op with
    | add | sub | mul | lt | le | gt | ge | and | or => simp at hop
    | eq | ne => rcases ints_or_bools hk hv hw with ⟨i, j, rfl, rfl, rfl⟩ | ⟨p, q, rfl, rfl, rfl⟩ <;> exact rfl
  | @logic op a b k hop hk _ _ iha ihb =>
    refine iha.bind fun v hv => ihb.bind fun w hw => ?_
    cases op with
    | add | sub | mul | lt | le | gt | ge | eq | ne => simp at hop
    | and | or => rcases ints_or_bools hk hv hw with ⟨i, j, rfl, rfl, rfl⟩ | ⟨p, q, rfl, rfl, rfl⟩ <;> exact rfl

theorem hasKind_unary {op : UnaryOp} {x : Operand} {v r : Value} (hx : x.HasKind (c.found f) v.kind)
    (h : applyUnary op v = .ok r) : (Operand.unary op x).HasKind (c.found f) r.kind := by
  cases v with
  | slice s => cases op <;> exact nomatch h
  | int i =>
    cases op with
    | neg => exact kind_of_inRange h ▸ .neg hx
    | not => exact Except.ok.inj h ▸ .not nofun hx
  | bool b =>
    cases op with
    | neg => exact nomatch h
    | not => exact Except.ok.inj h ▸ .not nofun hx

theorem hasKind_binary {op : BinaryOp} {a b : Operand} {v w r : Value} (ha : a.HasKind (c.found f) v.kind)
    (hb : b.HasKind (c.found f) w.kind) (h : applyBinary op v w = .ok r) :
    (Operand.binary op a b).HasKind (c.found f) r.kind := by
  cases v with
  | slice s => cases w <;> exact nomatch h
  | int i =>
    cases w with
    | bool j | slice s => exact nomatch h
    | int j =>
      cases op with
      | add | sub | mul => exact kind_of_inRange h ▸ .arithmetic (by decide) ha hb
      | lt | le | gt | ge => exact Except.ok.inj h ▸ .order (by decide) ha hb
      | eq | ne => exact Except.ok.inj h ▸ .equality (k := .int) (by decide) nofun ha hb
      | and | or => exact Except.ok.inj h ▸ .logic (by decide) nofun ha hb
  | bool i =>
    cases w with
    | int j | slice s => exact nomatch h
    | bool j =>
      cases op with
      | add | sub | mul | lt | le | gt | ge => exact nomatch h
      | eq | ne => exact Except.ok.inj h ▸ .equality (k := .bool) (by decide) nofun ha hb
      | and | or => exact Except.ok.inj h ▸ .logic (by decide) nofun ha hb

/-- Whatever has a value is of its kind. -/
theorem hasKind_of_eval {x : Operand} {v : Value} (h : c.eval f x = .ok v) : x.HasKind (c.found f) v.kind := by
  induction x generalizing v with
  | int i => exact Except.ok.inj h ▸ .int i
  | bool b => exact Except.ok.inj h ▸ .bool b
  | place p => exact .place (found_eq_some_iff.mpr h)
  | bits p =>
    obtain ⟨w, hw, h⟩ := Fallible.bind_eq_ok_iff.mp h
    cases w with
    | int i | bool b => exact nomatch h
    | slice s => exact Except.ok.inj h ▸ .bits (found_eq_some_iff.mpr hw)
  | unary op x ih =>
    obtain ⟨w, hw, h⟩ := Fallible.bind_eq_ok_iff.mp h
    exact hasKind_unary (ih hw) h
  | binary op a b iha ihb =>
    obtain ⟨w, hw, h⟩ := Fallible.bind_eq_ok_iff.mp h
    obtain ⟨w', hw', h⟩ := Fallible.bind_eq_ok_iff.mp h
    exact hasKind_binary (iha hw) (ihb hw') h

/-! ## Exactness -/

/-- Operands never wrap. A value is the exact one, which for an integer is in range. An exit with the code of an
overflow comes from a part whose exact value is out of range. An operand has a value of some kind exactly if its
places are found, its operators meet the kinds they have a meaning for, and all its parts are in range. -/
theorem eval_exact (c : Call) (f : Frame) (x : Operand) (hm : c.MeasuresInRange f x) :
    (∀ i, c.eval f x = .ok (.int i) →
        x.exactValue? (c.found f) = some (.int i.toInt) ∧ Int128.InRange i.toInt) ∧
      (∀ b, c.eval f x = .ok (.bool b) → x.exactValue? (c.found f) = some (.bool b)) ∧
      (∀ e, c.eval f x = .error e → e.code = 4 →
        ∃ y ∈ x.parts, ∃ i, y.exactValue? (c.found f) = some (.int i) ∧ ¬ Int128.InRange i) ∧
      ∀ k, (∃ v, c.eval f x = .ok v ∧ v.kind = k) ↔
        x.HasKind (c.found f) k ∧
          ∀ y ∈ x.parts, ∀ i, y.exactValue? (c.found f) = some (.int i) → Int128.InRange i := by
  have hexact := eval_ends_exact x hm
  refine ⟨fun i hi => ?_, fun b hb => ?_, fun e he => hexact.of_error he, fun k => ⟨?_, ?_⟩⟩
  · rw [hi] at hexact
    exact ⟨hexact, i.inRange_toInt⟩
  · rw [hb] at hexact
    exact hexact
  · rintro ⟨v, heval, rfl⟩
    refine ⟨hasKind_of_eval heval, fun y hy i hi => ?_⟩
    by_contra hout
    exact not_leavesRange_of_eval hm heval ⟨y, hy, i, hi, hout⟩
  · rintro ⟨hk, hall⟩
    -- by its kind it can fail only by an overflow, which its parts rule out
    have hkind := eval_kind hk
    cases heval : c.eval f x with
    | ok v =>
      rw [heval] at hkind
      exact ⟨v, rfl, hkind⟩
    | error e =>
      rw [heval] at hkind
      obtain rfl : e = .overflow := hkind
      obtain ⟨y, hy, i, hi, hout⟩ := hexact.of_error heval rfl
      exact absurd (hall y hy i hi) hout

/-- A receiver of any message, called with a message of one bit. -/
def gauge : Call where
  procedure := ⟨"Gauge", 0, .any .internal "rest", "$Gauge$_internal_any", [⟨"n", .int 128⟩], .slice "rest", [], true⟩
  received := .slice ⟨[true], []⟩

/-- The state at the end of the range. -/
def gaugeAtEnd : Frame := .ofState ⟨[("n", .int (.ofNat (2 ^ 127 - 1)))]⟩

/-- One more than the state, less the length of the message. -/
def stepOver : Operand :=
  .binary .sub (.binary .add (.place ⟨"self", some "n"⟩) (.int 1)) (.bits ⟨"rest", none⟩)

/-- At the end of the range, one more is out of range on the way to an exact value that is not: the operand is of the
kind of integers and has no value. -/
theorem eval_exact_gauge :
    gauge.MeasuresInRange gaugeAtEnd stepOver ∧
      stepOver.exactValue? (gauge.found gaugeAtEnd) = some (.int (2 ^ 127 - 1)) ∧
      stepOver.HasKind (gauge.found gaugeAtEnd) .int ∧
      ¬ ∃ v, gauge.eval gaugeAtEnd stepOver = .ok v ∧ v.kind = .int := by
  have hrest : gauge.read gaugeAtEnd ⟨"rest", none⟩ = .ok (.slice ⟨[true], []⟩) := rfl
  have hn : gauge.found gaugeAtEnd ⟨"self", some "n"⟩ = some (.int (.ofNat (2 ^ 127 - 1))) := rfl
  have hm : gauge.MeasuresInRange gaugeAtEnd stepOver := by
    intro p s hp hs
    obtain rfl : p = ⟨"rest", none⟩ := by simpa [stepOver, Operand.parts] using hp
    rw [hrest] at hs
    obtain rfl : (⟨[true], []⟩ : Slice) = s := Value.slice.inj (Except.ok.inj hs)
    decide
  have hsum : Operand.exactValue? (gauge.found gaugeAtEnd) (.binary .add (.place ⟨"self", some "n"⟩) (.int 1)) =
      some (.int (2 ^ 127)) := rfl
  refine ⟨hm, rfl, ?_, fun hv => ?_⟩
  · exact .arithmetic (by decide) (.arithmetic (by decide) (.place hn) (.int 1)) (.bits (found_eq_some_iff.mpr hrest))
  · have hall := (((eval_exact gauge gaugeAtEnd stepOver hm).2.2.2 .int).mp hv).2
    have hin := hall _ (by simp [stepOver, Operand.parts]) _ hsum
    exact absurd hin (by decide)

end Call
end Simulator
end MessageRouter

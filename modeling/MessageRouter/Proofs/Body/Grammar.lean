import MessageRouter.Body.Printer
import MessageRouter.Proofs.Body.Names
/-!
# `Proofs.Body.Grammar` — which expressions are bodies

* `bodyNesting`: how deep the blocks and operands of a body are nested.
* `BodyIsReadable`: the names, places and nesting that a body may have.
* `withElses`: the expressions of a body in which no else part is left out.
* `stmtsOfSexprs_printBody`: what is printed for a readable body is read back.
* `readable_of_body`: what is read is readable, and was printed for it, apart from else parts that were left out.
* `readBody_exact`: exactly the expressions that are printed for readable bodies are read, each as its body.
-/
namespace MessageRouter

open Identifier (IsValid)

/-! ## Readable bodies -/

/-- No operand is a bare truth value taken for a place; behind `bits` there is no operand. -/
def Operand.HasNoTruthPlace : Operand → Prop
  | .int _ | .bool _ | .bits _ => True
  | .place p => p ≠ ⟨"true", none⟩ ∧ p ≠ ⟨"false", none⟩
  | .unary _ x => x.HasNoTruthPlace
  | .binary _ a b => a.HasNoTruthPlace ∧ b.HasNoTruthPlace

mutual

/-- No operand of a statement is a bare truth value taken for a place. -/
def Stmt.HasNoTruthPlace : Stmt → Prop
  | .declare _ value | .set _ value => value.HasNoTruthPlace
  | .branch cond thenBody elseBody =>
    cond.HasNoTruthPlace ∧ BodyHasNoTruthPlace thenBody ∧ BodyHasNoTruthPlace elseBody
  | .throw _ | .ret => True

/-- No operand of a body is a bare truth value taken for a place. -/
def BodyHasNoTruthPlace : List Stmt → Prop
  | [] => True
  | s :: rest => s.HasNoTruthPlace ∧ BodyHasNoTruthPlace rest

end

/-- How far below an operand its deepest operand lies. -/
def Operand.nesting : Operand → Nat
  | .int _ | .bool _ | .place _ | .bits _ => 0
  | .unary _ x => x.nesting + 1
  | .binary _ a b => max a.nesting b.nesting + 1

mutual

/-- How far below the block of a statement its deepest block or operand lies. -/
def Stmt.nesting : Stmt → Nat
  | .declare _ value | .set _ value => value.nesting + 1
  | .branch cond thenBody elseBody =>
    max cond.nesting (max (bodyNesting thenBody) (bodyNesting elseBody)) + 1
  | .throw _ | .ret => 0

/-- How far below a block its deepest block or operand lies. -/
def bodyNesting : List Stmt → Nat
  | [] => 0
  | s :: rest => max s.nesting (bodyNesting rest)

end

/-- What can be said of an operand at some depth: its places have allowed names, none of them would be read as a truth
value, and it is not nested too deep. -/
structure Operand.IsReadable (depth : Nat) (x : Operand) : Prop where
  places : x.HasNamedPlaces
  truths : x.HasNoTruthPlace
  nesting : depth + x.nesting ≤ maxBodyDepth

/-- What can be said of a statement in a block at some depth. -/
structure Stmt.IsReadable (depth : Nat) (s : Stmt) : Prop where
  locals : s.IsNamed
  places : s.HasNamedPlaces
  truths : s.HasNoTruthPlace
  nesting : depth + s.nesting ≤ maxBodyDepth

/-- What can be said of the body of a block at some depth. -/
structure BodyIsReadableAt (depth : Nat) (body : List Stmt) : Prop where
  locals : BodyIsNamed body
  places : BodyHasNamedPlaces body
  truths : BodyHasNoTruthPlace body
  nesting : depth + bodyNesting body ≤ maxBodyDepth

/-- What can be said in expressions: locals and places have allowed names, no place of an operand would be read as a
truth value, and blocks and operands are not nested too deep. -/
structure BodyIsReadable (body : List Stmt) : Prop where
  locals : BodyIsNamed body
  places : BodyHasNamedPlaces body
  truths : BodyHasNoTruthPlace body
  nesting : bodyNesting body ≤ maxBodyDepth

mutual

/-- A statement in which no else part is left out: an empty one is written instead. -/
def Sexpr.withElse : Sexpr → Sexpr
  | .list [.word "if", cond, .list thenItems] =>
    .list [.word "if", cond, .list (withElses thenItems), .list []]
  | .list [.word "if", cond, .list thenItems, .list elseItems] =>
    .list [.word "if", cond, .list (withElses thenItems), .list (withElses elseItems)]
  | e => e

/-- The statements of a body, in none of which an else part is left out. -/
def withElses : List Sexpr → List Sexpr
  | [] => []
  | e :: rest => e.withElse :: withElses rest

end

/-! ## Places -/

namespace Place

/-- A text without a point is no field of anything. -/
theorem split_of_no_point {root : String} (h : '.' ∉ root.toList) : split root = (root, none) := by
  have hroot : ∀ c ∈ root.toList, decide (c ≠ '.') = true :=
    fun c hc => decide_eq_true (ne_of_mem_of_not_mem hc h)
  have hparts : root.toList.takeWhile (· ≠ '.') = root.toList := by
    rw [← List.append_nil root.toList, List.takeWhile_append_of_pos hroot, List.takeWhile_nil]
  have hrest : root.toList.dropWhile (· ≠ '.') = [] := by
    rw [← List.append_nil root.toList, List.dropWhile_append_of_pos hroot, List.dropWhile_nil]
  simp only [split, hparts, hrest, String.ofList_toList]

/-- A text is split at its first point. -/
theorem split_of_point {root : String} (h : '.' ∉ root.toList) (field : String) :
    split (root ++ "." ++ field) = (root, some field) := by
  have hroot : ∀ c ∈ root.toList, decide (c ≠ '.') = true :=
    fun c hc => decide_eq_true (ne_of_mem_of_not_mem hc h)
  have htext : (root ++ "." ++ field).toList = root.toList ++ '.' :: field.toList := by simp
  have hparts : (root.toList ++ '.' :: field.toList).takeWhile (· ≠ '.') = root.toList := by
    rw [List.takeWhile_append_of_pos hroot, List.takeWhile_cons_of_neg (by decide), List.append_nil]
  have hrest : (root.toList ++ '.' :: field.toList).dropWhile (· ≠ '.') = '.' :: field.toList := by
    rw [List.dropWhile_append_of_pos hroot, List.dropWhile_cons_of_neg (by decide)]
  simp only [split, htext, hparts, hrest, String.ofList_toList]

/-- The text of a place is split into its names. -/
theorem split_display {p : Place} (h : p.IsNamed) : split p.display = (p.root, p.field) := by
  have hroot : '.' ∉ p.root.toList := fun hmem => absurd (h.root.2 '.' hmem) (by decide)
  obtain ⟨root, field⟩ := p
  cases field with
  | none => exact split_of_no_point hroot
  | some field => exact split_of_point hroot field

/-- What a text is split into has that text. -/
theorem display_split (text : String) : display ⟨(split text).1, (split text).2⟩ = text := by
  by_cases hpoint : '.' ∈ text.toList
  · obtain ⟨root, field, htext, hroot⟩ := List.eq_append_cons_of_mem hpoint
    obtain rfl : text = String.ofList root ++ "." ++ String.ofList field :=
      String.toList_injective (by simpa using htext)
    rw [split_of_point (by simpa using hroot)]
    rfl
  · rw [split_of_no_point hpoint]
    rfl

/-- A text is read as the place of allowed names that it is the text of. -/
theorem readPlace_eq_ok_iff {text : String} {p : Place} :
    readPlace text = .ok p ↔ p.IsNamed ∧ p.display = text := by
  constructor
  · intro h
    obtain ⟨hsplit, hnamed⟩ := read_eq_ok_iff.mp (Fallible.mapError_eq_ok_iff.mp h)
    have htext := display_split text
    rw [hsplit] at htext
    exact ⟨hnamed, htext⟩
  · rintro ⟨hnamed, rfl⟩
    exact Fallible.mapError_eq_ok_iff.mpr (read_eq_ok_iff.mpr ⟨split_display hnamed, hnamed⟩)

end Place

/-! ## Operands -/

/-- The word of an operand is read as it: a truth value, or a place that is no bare truth value. -/
theorem operandOfWord_display {p : Place} (hp : p.IsNamed)
    (h : p ≠ ⟨"true", none⟩ ∧ p ≠ ⟨"false", none⟩) : operandOfWord p.display = .ok (.place p) := by
  have hread : readPlace p.display = .ok p := Place.readPlace_eq_ok_iff.mpr ⟨hp, rfl⟩
  have htrue : p.display ≠ "true" := by
    intro htext
    rw [htext] at hread
    exact h.1 (Except.ok.inj hread).symm
  have hfalse : p.display ≠ "false" := by
    intro htext
    rw [htext] at hread
    exact h.2 (Except.ok.inj hread).symm
  rw [operandOfWord, if_neg htrue, if_neg hfalse, hread]
  rfl

theorem readable_of_operandOfWord {depth : Nat} (hdepth : depth ≤ maxBodyDepth) {text : String} {x : Operand}
    (h : operandOfWord text = .ok x) : x.IsReadable depth ∧ x.toSexpr = .word text := by
  unfold operandOfWord at h
  split at h
  · next htext =>
    obtain rfl := Except.ok.inj h
    exact ⟨⟨trivial, trivial, hdepth⟩, htext ▸ rfl⟩
  · next htrue =>
    split at h
    · next htext =>
      obtain rfl := Except.ok.inj h
      exact ⟨⟨trivial, trivial, hdepth⟩, htext ▸ rfl⟩
    · next hfalse =>
      obtain ⟨p, hp, rfl⟩ := Fallible.map_eq_ok_iff.mp h
      obtain ⟨hnamed, rfl⟩ := Place.readPlace_eq_ok_iff.mp hp
      refine ⟨⟨hnamed, ⟨?_, ?_⟩, hdepth⟩, rfl⟩
      · rintro rfl
        exact htrue rfl
      · rintro rfl
        exact hfalse rfl

namespace Operand

/-- The expression of an operand is read as it. -/
theorem ofSexpr_toSexpr {depth : Nat} {x : Operand} (h : x.IsReadable depth) :
    ofSexpr depth x.toSexpr = .ok x := by
  induction x generalizing depth with
  | int => exact if_neg (Nat.not_lt.mpr h.nesting)
  | bool b =>
    refine (if_neg (Nat.not_lt.mpr h.nesting)).trans ?_
    cases b <;> rfl
  | place p =>
    exact (if_neg (Nat.not_lt.mpr h.nesting)).trans (operandOfWord_display h.places h.truths)
  | bits p =>
    have hread : readPlace p.display = .ok p := Place.readPlace_eq_ok_iff.mpr ⟨h.places, rfl⟩
    exact (if_neg (Nat.not_lt.mpr h.nesting)).trans (Fallible.map_eq_ok_iff.mpr ⟨p, hread, rfl⟩)
  | unary op x ih =>
    obtain ⟨hplaces, htruths, hnesting⟩ := h
    rw [nesting] at hnesting
    have hdepth : ¬maxBodyDepth < depth := by omega
    have hx : ofSexpr (depth + 1) x.toSexpr = .ok x := ih ⟨hplaces, htruths, by omega⟩
    cases op with
    | neg => exact (if_neg hdepth).trans (Fallible.map_eq_ok_iff.mpr ⟨x, hx, rfl⟩)
    | not => exact (if_neg hdepth).trans (Fallible.map_eq_ok_iff.mpr ⟨x, hx, rfl⟩)
  | binary op a b iha ihb =>
    obtain ⟨hplaces, htruths, hnesting⟩ := h
    rw [nesting] at hnesting
    have hdepth : ¬maxBodyDepth < depth := by omega
    have ha : ofSexpr (depth + 1) a.toSexpr = .ok a := iha ⟨hplaces.1, htruths.1, by omega⟩
    have hb : ofSexpr (depth + 1) b.toSexpr = .ok b := ihb ⟨hplaces.2, htruths.2, by omega⟩
    have hop : BinaryOp.ofWord? op.word = some op := BinaryOp.ofWord?_eq_some_iff.mpr rfl
    rw [toSexpr, ofSexpr, if_neg hdepth]
    simp only [hop]
    exact Fallible.bind_eq_ok_iff.mpr ⟨a, ha, Fallible.bind_eq_ok_iff.mpr ⟨b, hb, rfl⟩⟩

/-- What is read as an operand is readable, and its expression. -/
theorem readable_of_ofSexpr {depth : Nat} {e : Sexpr} {x : Operand} (h : ofSexpr depth e = .ok x) :
    x.IsReadable depth ∧ x.toSexpr = e := by
  unfold ofSexpr at h
  split at h
  · cases h
  · next hdepth =>
    replace hdepth := Nat.le_of_not_lt hdepth
    split at h
    · obtain rfl := Except.ok.inj h
      exact ⟨⟨trivial, trivial, hdepth⟩, rfl⟩
    · exact readable_of_operandOfWord hdepth h
    · split at h
      · -- of one operand: a measured place, or a sign in front of an operand one deeper
        split at h
        · next hbits =>
          split at h
          · obtain ⟨p, hp, rfl⟩ := Fallible.map_eq_ok_iff.mp h
            obtain ⟨hnamed, rfl⟩ := Place.readPlace_eq_ok_iff.mp hp
            exact ⟨⟨hnamed, trivial, hdepth⟩, hbits ▸ rfl⟩
          · cases h
        · split at h
          · next hneg =>
            obtain ⟨y, hy, rfl⟩ := Fallible.map_eq_ok_iff.mp h
            obtain ⟨⟨hplaces, htruths, hnesting⟩, rfl⟩ := readable_of_ofSexpr hy
            exact ⟨⟨hplaces, htruths, by rw [nesting]; omega⟩, hneg ▸ rfl⟩
          · split at h
            · next hnot =>
              obtain ⟨y, hy, rfl⟩ := Fallible.map_eq_ok_iff.mp h
              obtain ⟨⟨hplaces, htruths, hnesting⟩, rfl⟩ := readable_of_ofSexpr hy
              exact ⟨⟨hplaces, htruths, by rw [nesting]; omega⟩, hnot ▸ rfl⟩
            · cases h
      · -- of two operands, which are one deeper
        split at h
        · next op hop =>
          obtain ⟨a, ha, h⟩ := Fallible.bind_eq_ok_iff.mp h
          obtain ⟨b, hb, h⟩ := Fallible.bind_eq_ok_iff.mp h
          obtain rfl := Except.ok.inj h
          obtain rfl := BinaryOp.ofWord?_eq_some_iff.mp hop
          obtain ⟨⟨hplaces, htruths, hnesting⟩, rfl⟩ := readable_of_ofSexpr ha
          obtain ⟨⟨hplaces', htruths', hnesting'⟩, rfl⟩ := readable_of_ofSexpr hb
          exact ⟨⟨⟨hplaces, hplaces'⟩, ⟨htruths, htruths'⟩, by rw [nesting]; omega⟩, rfl⟩
        · cases h
      · cases h
    · cases h
termination_by sizeOf e

/-- Exactly the expressions of readable operands are read, each as its operand. -/
theorem ofSexpr_eq_ok_iff {depth : Nat} {e : Sexpr} {x : Operand} :
    ofSexpr depth e = .ok x ↔ x.IsReadable depth ∧ x.toSexpr = e := by
  constructor
  · exact readable_of_ofSexpr
  · rintro ⟨hreadable, rfl⟩
    exact ofSexpr_toSexpr hreadable

end Operand

/-! ## Statements -/

section ThrowCode

variable {e : Sexpr} {code : UInt16}

theorem toInt_ofNat_code (code : UInt16) : (Int64.ofNat code.toNat).toInt = code.toNat :=
  Int64.toInt_ofNat_of_lt (by have := code.toNat_lt; omega)

/-- Every code of a throw is read back. -/
theorem throwCode_ofNat (code : UInt16) : throwCode (.int (Int64.ofNat code.toNat)) = .ok code := by
  have hlt := code.toNat_lt
  have hrange : (0 : Int) ≤ code.toNat ∧ (code.toNat : Int) < 2 ^ 16 := by omega
  rw [throwCode, toInt_ofNat_code, if_pos hrange, Int.toNat_natCast, UInt16.ofNat_toNat]

theorem eq_of_throwCode (h : throwCode e = .ok code) : .int (Int64.ofNat code.toNat) = e := by
  unfold throwCode at h
  split at h
  · next i =>
    split at h
    · next hrange =>
      obtain rfl := Except.ok.inj h
      have hcode : (UInt16.ofNat i.toInt.toNat).toNat = i.toInt.toNat :=
        UInt16.toNat_ofNat_of_lt (by simp only [UInt16.size]; omega)
      refine congrArg Sexpr.int (Int64.toInt_inj.mp ?_)
      rw [toInt_ofNat_code, hcode]
      omega
    · cases h
  · cases h

end ThrowCode

/-! ### What is printed is read back -/

theorem isBlock_printBody (body : List Stmt) : isBlock (printBody body) = true := by
  cases body with
  | nil => rfl
  | cons s rest => cases s <;> rfl

mutual

/-- The expression of a statement is read as it. -/
theorem Stmt.ofSexpr_toSexpr {depth : Nat} (s : Stmt) (h : s.IsReadable depth) :
    Stmt.ofSexpr depth s.toSexpr = .ok s := by
  obtain ⟨hlocals, hplaces, htruths, hnesting⟩ := h
  cases s with
  | declare name value =>
    rw [Stmt.nesting] at hnesting
    have hname : (Identifier.check .localName name).mapError BodyError.identifier = .ok () :=
      Fallible.mapError_eq_ok_iff.mpr (Identifier.check_eq_ok_iff.mpr hlocals)
    have hvalue : Operand.ofSexpr (depth + 1) value.toSexpr = .ok value :=
      Operand.ofSexpr_toSexpr ⟨hplaces, htruths, by omega⟩
    exact Fallible.bind_eq_ok_iff.mpr ⟨(), hname, Fallible.bind_eq_ok_iff.mpr ⟨value, hvalue, rfl⟩⟩
  | set target value =>
    rw [Stmt.nesting] at hnesting
    have htarget : readPlace target.display = .ok target := Place.readPlace_eq_ok_iff.mpr ⟨hplaces.1, rfl⟩
    have hvalue : Operand.ofSexpr (depth + 1) value.toSexpr = .ok value :=
      Operand.ofSexpr_toSexpr ⟨hplaces.2, htruths, by omega⟩
    exact Fallible.bind_eq_ok_iff.mpr ⟨target, htarget, Fallible.bind_eq_ok_iff.mpr ⟨value, hvalue, rfl⟩⟩
  | branch cond thenBody elseBody =>
    rw [Stmt.nesting] at hnesting
    have hcond : Operand.ofSexpr (depth + 1) cond.toSexpr = .ok cond :=
      Operand.ofSexpr_toSexpr ⟨hplaces.1, htruths.1, by omega⟩
    have hthen : branchOfSexpr (depth + 1) (.list (printBody thenBody)) = .ok thenBody :=
      branchOfSexpr_printBody thenBody ⟨hlocals.1, hplaces.2.1, htruths.2.1, by omega⟩
    have helse : branchOfSexpr (depth + 1) (.list (printBody elseBody)) = .ok elseBody :=
      branchOfSexpr_printBody elseBody ⟨hlocals.2, hplaces.2.2, htruths.2.2, by omega⟩
    refine Fallible.bind_eq_ok_iff.mpr ⟨cond, hcond, ?_⟩
    exact Fallible.bind_eq_ok_iff.mpr ⟨thenBody, hthen, Fallible.bind_eq_ok_iff.mpr ⟨elseBody, helse, rfl⟩⟩
  | throw code => exact Fallible.map_eq_ok_iff.mpr ⟨code, throwCode_ofNat code, rfl⟩
  | ret => rfl

theorem branchOfSexpr_printBody {depth : Nat} (body : List Stmt) (h : BodyIsReadableAt depth body) :
    branchOfSexpr depth (.list (printBody body)) = .ok body := by
  have hnesting := h.nesting
  have hdepth : ¬maxBodyDepth < depth := by omega
  rw [branchOfSexpr, if_pos (isBlock_printBody body), if_neg hdepth]
  exact stmtsOfSexprs_printBody body h

/-- The expressions of a body are read as it. -/
theorem stmtsOfSexprs_printBody {depth : Nat} (body : List Stmt) (h : BodyIsReadableAt depth body) :
    stmtsOfSexprs depth (printBody body) = .ok body := by
  obtain ⟨hlocals, hplaces, htruths, hnesting⟩ := h
  cases body with
  | nil => rfl
  | cons s rest =>
    rw [bodyNesting] at hnesting
    have hs : Stmt.ofSexpr depth s.toSexpr = .ok s :=
      Stmt.ofSexpr_toSexpr s ⟨hlocals.1, hplaces.1, htruths.1, by omega⟩
    have hrest : stmtsOfSexprs depth (printBody rest) = .ok rest :=
      stmtsOfSexprs_printBody rest ⟨hlocals.2, hplaces.2, htruths.2, by omega⟩
    exact Fallible.bind_eq_ok_iff.mpr ⟨s, hs, Fallible.bind_eq_ok_iff.mpr ⟨rest, hrest, rfl⟩⟩

end

/-! ### What is read was printed -/

mutual

/-- What is read as a statement is readable, and its expression up to else parts that are left out. -/
theorem readable_of_stmt {depth : Nat} {e : Sexpr} {s : Stmt} (hdepth : depth ≤ maxBodyDepth)
    (h : Stmt.ofSexpr depth e = .ok s) : s.IsReadable depth ∧ s.toSexpr = e.withElse := by
  -- the cases are the forms of statements, in the order in which they are tried
  unfold Stmt.ofSexpr at h
  split at h
  · split at h
    · -- a declaration
      split at h
      · obtain ⟨_, hname, h⟩ := Fallible.bind_eq_ok_iff.mp h
        obtain ⟨value, hvalue, h⟩ := Fallible.bind_eq_ok_iff.mp h
        obtain rfl := Except.ok.inj h
        have hvalid := Identifier.check_eq_ok_iff.mp (Fallible.mapError_eq_ok_iff.mp hname)
        obtain ⟨⟨hplaces, htruths, hnesting⟩, rfl⟩ := Operand.ofSexpr_eq_ok_iff.mp hvalue
        exact ⟨⟨hvalid, hplaces, htruths, by rw [Stmt.nesting]; omega⟩, rfl⟩
      · exact nomatch h
    · -- an assignment
      split at h
      · obtain ⟨target, htarget, h⟩ := Fallible.bind_eq_ok_iff.mp h
        obtain ⟨value, hvalue, h⟩ := Fallible.bind_eq_ok_iff.mp h
        obtain rfl := Except.ok.inj h
        obtain ⟨hnamed, rfl⟩ := Place.readPlace_eq_ok_iff.mp htarget
        obtain ⟨⟨hplaces, htruths, hnesting⟩, rfl⟩ := Operand.ofSexpr_eq_ok_iff.mp hvalue
        exact ⟨⟨trivial, ⟨hnamed, hplaces⟩, htruths, by rw [Stmt.nesting]; omega⟩, rfl⟩
      · exact nomatch h
    · -- a branch whose else part is left out
      obtain ⟨cond, hcond, h⟩ := Fallible.bind_eq_ok_iff.mp h
      obtain ⟨thenBody, hthen, h⟩ := Fallible.bind_eq_ok_iff.mp h
      obtain rfl := Except.ok.inj h
      obtain ⟨⟨hplaces, htruths, hnesting⟩, rfl⟩ := Operand.ofSexpr_eq_ok_iff.mp hcond
      obtain ⟨items, rfl, ⟨hlocals', hplaces', htruths', hnesting'⟩, hitems⟩ := readable_of_branch hthen
      refine ⟨⟨⟨hlocals', trivial⟩, ⟨hplaces, hplaces', trivial⟩, ⟨htruths, htruths', trivial⟩, ?_⟩, ?_⟩
      · rw [Stmt.nesting, bodyNesting]
        omega
      · rw [Stmt.toSexpr, hitems]
        rfl
    · -- a branch with both parts
      obtain ⟨cond, hcond, h⟩ := Fallible.bind_eq_ok_iff.mp h
      obtain ⟨thenBody, hthen, h⟩ := Fallible.bind_eq_ok_iff.mp h
      obtain ⟨elseBody, helse, h⟩ := Fallible.bind_eq_ok_iff.mp h
      obtain rfl := Except.ok.inj h
      obtain ⟨⟨hplaces, htruths, hnesting⟩, rfl⟩ := Operand.ofSexpr_eq_ok_iff.mp hcond
      obtain ⟨items, rfl, ⟨hlocals₁, hplaces₁, htruths₁, hnesting₁⟩, hitems₁⟩ := readable_of_branch hthen
      obtain ⟨items', rfl, ⟨hlocals₂, hplaces₂, htruths₂, hnesting₂⟩, hitems₂⟩ := readable_of_branch helse
      refine ⟨⟨⟨hlocals₁, hlocals₂⟩, ⟨hplaces, hplaces₁, hplaces₂⟩, ⟨htruths, htruths₁, htruths₂⟩, ?_⟩, ?_⟩
      · rw [Stmt.nesting]
        omega
      · rw [Stmt.toSexpr, hitems₁, hitems₂]
        rfl
    · -- a throw, or a return
      obtain ⟨code, hcode, rfl⟩ := Fallible.map_eq_ok_iff.mp h
      obtain rfl := eq_of_throwCode hcode
      exact ⟨⟨trivial, trivial, trivial, hdepth⟩, rfl⟩
    · obtain rfl := Except.ok.inj h
      exact ⟨⟨trivial, trivial, trivial, hdepth⟩, rfl⟩
    · exact nomatch h
  · exact nomatch h
  · exact nomatch h
termination_by sizeOf e

theorem readable_of_branch {depth : Nat} {e : Sexpr} {body : List Stmt}
    (h : branchOfSexpr depth e = .ok body) :
    ∃ items, e = .list items ∧ BodyIsReadableAt depth body ∧ printBody body = withElses items := by
  unfold branchOfSexpr at h
  split at h
  · next items =>
    split at h
    · split at h
      · exact nomatch h
      · next hdepth => exact ⟨items, rfl, readable_of_body (Nat.le_of_not_lt hdepth) h⟩
    · exact nomatch h
  · exact nomatch h
termination_by sizeOf e

/-- What is read as a body is readable, and its expressions up to else parts that are left out. -/
theorem readable_of_body {depth : Nat} {items : List Sexpr} {body : List Stmt}
    (hdepth : depth ≤ maxBodyDepth) (h : stmtsOfSexprs depth items = .ok body) :
    BodyIsReadableAt depth body ∧ printBody body = withElses items := by
  unfold stmtsOfSexprs at h
  split at h
  · obtain rfl := Except.ok.inj h
    exact ⟨⟨trivial, trivial, trivial, hdepth⟩, rfl⟩
  · obtain ⟨s, hs, h⟩ := Fallible.bind_eq_ok_iff.mp h
    obtain ⟨ss, hss, h⟩ := Fallible.bind_eq_ok_iff.mp h
    obtain rfl := Except.ok.inj h
    obtain ⟨⟨hlocals, hplaces, htruths, hnesting⟩, hitem⟩ := readable_of_stmt hdepth hs
    obtain ⟨⟨hlocals', hplaces', htruths', hnesting'⟩, hitems⟩ := readable_of_body hdepth hss
    refine ⟨⟨⟨hlocals, hlocals'⟩, ⟨hplaces, hplaces'⟩, ⟨htruths, htruths'⟩, ?_⟩, ?_⟩
    · rw [bodyNesting]
      omega
    · rw [printBody, withElses, hitem, hitems]
termination_by sizeOf items

end

/-! ### Else parts that are left out -/

theorem isBlock_withElses (items : List Sexpr) : isBlock (withElses items) = isBlock items := by
  unfold withElses
  split
  · rfl
  · next e rest =>
    unfold Sexpr.withElse
    split
    · rfl
    · rfl
    · cases e <;> rfl

theorem eq_nil_of_branch {depth : Nat} {body : List Stmt} (h : branchOfSexpr depth (.list []) = .ok body) :
    body = [] := by
  rw [branchOfSexpr, if_pos (show isBlock [] = true from rfl)] at h
  split at h
  · exact nomatch h
  · exact (Except.ok.inj h).symm

mutual

/-- An else part that is left out is read as an empty one. -/
theorem stmt_of_withElse {depth : Nat} {e : Sexpr} {s : Stmt} (h : Stmt.ofSexpr depth e.withElse = .ok s) :
    Stmt.ofSexpr depth e = .ok s := by
  unfold Sexpr.withElse at h
  split at h
  · obtain ⟨cond, hcond, h⟩ := Fallible.bind_eq_ok_iff.mp h
    obtain ⟨thenBody, hthen, h⟩ := Fallible.bind_eq_ok_iff.mp h
    obtain ⟨elseBody, helse, h⟩ := Fallible.bind_eq_ok_iff.mp h
    have hthen' := branch_of_withElses hthen
    obtain rfl := eq_nil_of_branch helse
    exact Fallible.bind_eq_ok_iff.mpr ⟨cond, hcond, Fallible.bind_eq_ok_iff.mpr ⟨thenBody, hthen', h⟩⟩
  · obtain ⟨cond, hcond, h⟩ := Fallible.bind_eq_ok_iff.mp h
    obtain ⟨thenBody, hthen, h⟩ := Fallible.bind_eq_ok_iff.mp h
    obtain ⟨elseBody, helse, h⟩ := Fallible.bind_eq_ok_iff.mp h
    have hthen' := branch_of_withElses hthen
    have helse' := branch_of_withElses helse
    refine Fallible.bind_eq_ok_iff.mpr ⟨cond, hcond, ?_⟩
    exact Fallible.bind_eq_ok_iff.mpr ⟨thenBody, hthen', Fallible.bind_eq_ok_iff.mpr ⟨elseBody, helse', h⟩⟩
  · exact h
termination_by sizeOf e

theorem branch_of_withElses {depth : Nat} {items : List Sexpr} {body : List Stmt}
    (h : branchOfSexpr depth (.list (withElses items)) = .ok body) :
    branchOfSexpr depth (.list items) = .ok body := by
  rw [branchOfSexpr, isBlock_withElses] at h
  rw [branchOfSexpr]
  split at h
  · next hblock =>
    rw [if_pos hblock]
    split at h
    · exact nomatch h
    · next hdepth =>
      rw [if_neg hdepth]
      exact body_of_withElses h
  · exact nomatch h
termination_by sizeOf (Sexpr.list items)

theorem body_of_withElses {depth : Nat} {items : List Sexpr} {body : List Stmt}
    (h : stmtsOfSexprs depth (withElses items) = .ok body) : stmtsOfSexprs depth items = .ok body := by
  unfold withElses at h
  split at h
  · exact h
  · obtain ⟨s, hs, h⟩ := Fallible.bind_eq_ok_iff.mp h
    obtain ⟨ss, hss, h⟩ := Fallible.bind_eq_ok_iff.mp h
    have hs' := stmt_of_withElse hs
    have hss' := body_of_withElses hss
    exact Fallible.bind_eq_ok_iff.mpr ⟨s, hs', Fallible.bind_eq_ok_iff.mpr ⟨ss, hss', h⟩⟩
termination_by sizeOf items

end

/-! ## Bodies -/

/-- A readable body is read back from its expressions. -/
theorem readBody_printBody {body : List Stmt} (h : BodyIsReadable body) :
    readBody (printBody body) = .ok body := by
  have hnesting : 0 + bodyNesting body ≤ maxBodyDepth := by
    rw [Nat.zero_add]
    exact h.nesting
  exact stmtsOfSexprs_printBody body ⟨h.locals, h.places, h.truths, hnesting⟩

/-- Exactly the expressions of readable bodies are read, each as its body, up to else parts that are left out. -/
theorem readBody_eq_ok_iff {items : List Sexpr} {body : List Stmt} :
    readBody items = .ok body ↔ BodyIsReadable body ∧ printBody body = withElses items := by
  constructor
  · intro h
    obtain ⟨⟨hlocals, hplaces, htruths, hnesting⟩, hitems⟩ := readable_of_body (Nat.zero_le _) h
    rw [Nat.zero_add] at hnesting
    exact ⟨⟨hlocals, hplaces, htruths, hnesting⟩, hitems⟩
  · rintro ⟨hreadable, hitems⟩
    have hread := readBody_printBody hreadable
    rw [hitems] at hread
    exact body_of_withElses hread

/-- The reader of bodies is the inverse of their printer: every readable body is read back, exactly the
expressions of readable bodies are read, up to else parts that are left out, and all others are refused. -/
theorem readBody_exact :
    (∀ body, BodyIsReadable body → readBody (printBody body) = .ok body) ∧
      ∀ items,
        (∀ body, readBody items = .ok body ↔ BodyIsReadable body ∧ printBody body = withElses items) ∧
          ((∃ e, readBody items = .error e) ↔
            ∀ body, BodyIsReadable body → printBody body ≠ withElses items) := by
  refine ⟨fun _ => readBody_printBody, fun items => ⟨fun _ => readBody_eq_ok_iff, ?_⟩⟩
  cases hread : readBody items with
  | ok body =>
    obtain ⟨hreadable, hitems⟩ := readBody_eq_ok_iff.mp hread
    exact iff_of_false nofun fun h => h body hreadable hitems
  | error e =>
    refine iff_of_true ⟨e, rfl⟩ ?_
    intro body hreadable hitems
    have hok := readBody_eq_ok_iff.mpr ⟨hreadable, hitems⟩
    rw [hread] at hok
    cases hok

/-- In a branch without an else part, a local can be declared as a number behind 62 signs, which is as deep as an
operand can be; behind one more sign it is refused. -/
theorem readBody_exact_signs :
    readBody [.list [.word "if", .word "self.open",
        .list [.list [.word "let", .word "x", Nat.repeat (fun e => .list [.word "-", e]) 62 (.int 1)]]]] =
      .ok [.branch (.place ⟨"self", some "open"⟩)
        [.declare "x" (Nat.repeat (Operand.unary .neg) 62 (.int 1))] []] ∧
      ∃ e, readBody [.list [.word "if", .word "self.open",
        .list [.list [.word "let", .word "x", Nat.repeat (fun e => .list [.word "-", e]) 63 (.int 1)]]]] =
      .error e := by
  have hx : IsValid .localName "x" := Identifier.check_eq_ok_iff.mp rfl
  have hread : readPlace "self.open" = .ok ⟨"self", some "open"⟩ := rfl
  have hopen : Place.IsNamed ⟨"self", some "open"⟩ := (Place.readPlace_eq_ok_iff.mp hread).1
  refine ⟨((readBody_exact.2 _).1 _).mpr ⟨?_, rfl⟩, ⟨_, rfl⟩⟩
  exact {
    locals := ⟨⟨⟨hx, trivial⟩, trivial⟩, trivial⟩
    places := ⟨⟨hopen, ⟨trivial, trivial⟩, trivial⟩, trivial⟩
    truths := ⟨⟨⟨by decide, by decide⟩, ⟨trivial, trivial⟩, trivial⟩, trivial⟩
    nesting := by decide }

end MessageRouter

import MessageRouter.Proofs.Body.Conformance
import MessageRouter.Proofs.Delivery.Selection
import MessageRouter.Proofs.Plan.Route
/-!
# `Proofs.Delivery.Decoding` — what a receiver gets of a message's bits

* `Exit.IsReading`: too few bits, or an integer that no integer of the simulation holds.
* `readLayout_ends`: reading the struct of a message of the right opcode gives its fields, or ends so.
-/
namespace MessageRouter
namespace Simulator

open Fallible (Ends Leaves)

/-! ## Exits -/

/-- Too few bits, or an integer that no integer of the simulation holds. -/
inductive Exit.IsReading : Exit → Prop where
  | underflow (needed remaining : Nat) : IsReading (.codec (.cell (.underflow needed remaining)))
  | unsignedTooWide (width : Nat) : IsReading (.codec (.cell (.unsignedTooWide width)))
  | signedTooWide (width : Nat) : IsReading (.codec (.cell (.signedTooWide width)))
  | unsignedRange (value : Nat) : IsReading (.codec (.unsignedRange value))

theorem Exit.IsReading.code_eq {e : Exit} (h : e.IsReading) : e.code = 9 ∨ e.code = 4 := by
  cases h with
  | underflow => exact .inl rfl
  | unsignedTooWide | signedTooWide | unsignedRange => exact .inr rfl

/-! ## Numbers -/

section Numbers

variable {s : Slice}

theorem front_ends (n : Nat) :
    Ends (fun _ => True) (fun e => (Exit.codec (.cell e)).IsReading) (s.front n) := by
  unfold Slice.front
  split
  · trivial
  · exact .underflow _ _

theorem preloadUint_ends (width : Nat) :
    Ends (fun _ => True) (fun e => (Exit.codec (.cell e)).IsReading) (s.preloadUint width) := by
  refine (front_ends width).bind fun bits _ => ?_
  show Ends _ _ (if Bits.toNat bits < 2 ^ 128 then _ else _)
  split
  · trivial
  · exact .unsignedTooWide width

theorem preloadInt_ends (width : Nat) :
    Ends (fun _ => True) (fun e => (Exit.codec (.cell e)).IsReading) (s.preloadInt width) := by
  refine (front_ends width).bind fun bits _ => ?_
  cases Int128.ofInt? (Bits.toInt bits) with
  | some i => trivial
  | none => exact .signedTooWide width

/-- A look at some bits takes them if it succeeds. -/
theorem load_taking {α : Type} (n : Nat) (look : Slice → Except Cell.Fault α) :
    Codec.load (Slice.taking n look) s =
      match look s with
      | .ok a => .ok a (s.drop n)
      | .error e => .error (.cell e) s := by
  unfold Codec.load EStateM.adaptExcept Slice.taking
  cases look s <;> rfl

theorem load_leaves {α : Type} (n : Nat) (look : Slice → Except Cell.Fault α)
    (h : Ends (fun _ => True) (fun e => (Exit.codec (.cell e)).IsReading) (look s)) :
    Leaves (fun _ => True) (fun e => (Exit.codec e).IsReading)
      (Codec.load (Slice.taking n look) s) := by
  rw [load_taking]
  cases hlook : look s with
  | ok a => trivial
  | error e =>
    rw [hlook] at h
    exact h

theorem loadUint_leaves (width : Nat) :
    Leaves (fun _ => True) (fun e => (Exit.codec e).IsReading)
      (Codec.load (Slice.loadUint width) s) :=
  load_leaves width (Slice.preloadUint · width) (preloadUint_ends width)

theorem ofUnsigned_leaves (n : Nat) :
    Leaves (fun v => v.kind = .int) (fun e => (Exit.codec e).IsReading) (Codec.ofUnsigned n s) := by
  rw [Codec.ofUnsigned]
  cases Int128.ofInt? n with
  | some i => rfl
  | none => exact .unsignedRange n

end Numbers

/-! ## Fields -/

/-- A value that is read is of the kind of its type. -/
theorem decodeValue_leaves (t : FieldType) (s : Slice) :
    Leaves (fun v => v.kind = Value.Kind.ofType t) (fun e => (Exit.codec e).IsReading)
      (Codec.decodeValue t s) := by
  cases t with
  | bool =>
    refine (load_leaves 1 _ ?_).bind fun b _ _ => rfl
    have hfront := front_ends (s := s) 1
    show Ends _ _ (Except.map _ (s.front 1))
    cases hbits : s.front 1 with
    | ok bits => trivial
    | error e =>
      rw [hbits] at hfront
      exact hfront
  | int width =>
    have hint := load_leaves width (Slice.preloadInt · width) (preloadInt_ends (s := s) width)
    exact hint.bind fun i _ _ => rfl
  | uint width =>
    rw [Codec.decodeValue]
    refine (loadUint_leaves width).bind fun n t _ => ?_
    exact ofUnsigned_leaves n
  | coins =>
    rw [Codec.decodeValue]
    refine (loadUint_leaves _).bind fun length t _ => ?_
    refine (loadUint_leaves _).bind fun n u _ => ?_
    exact ofUnsigned_leaves n

/-- Fields are read one by one. -/
theorem decodeEntries_leaves (fields : List Field) (s : Slice) :
    Leaves (List.Forall₂ (fun f e => e.1 = f.name ∧ e.2.kind = Value.Kind.ofType f.type) fields)
      (fun e => (Exit.codec e).IsReading) (Codec.decodeEntries fields s) := by
  induction fields generalizing s with
  | nil => exact .nil
  | cons f rest ih =>
    refine (decodeValue_leaves f.type s).bind fun v t hv => ?_
    refine (ih t).bind fun es u hes => ?_
    exact .cons ⟨rfl, hv⟩ hes

theorem decodeFields_leaves (fields : List Field) (s : Slice) :
    Leaves (·.Holds fields) (fun e => (Exit.codec e).IsReading) (Codec.decodeFields fields s) :=
  (decodeEntries_leaves fields s).bind fun _ _ hes => Record.holds_of_forall₂ hes

/-! ## Structs -/

/-- The opcode that is read is the one that was looked at. -/
theorem loadOpcode_leaves (s : Slice) :
    Leaves (· = s.opcode) (fun e => (Exit.codec e).IsReading)
      (Codec.load (Slice.loadUint opcodeBits) s) := by
  rw [Slice.loadUint, load_taking, preloadUint_opcodeBits]
  by_cases h : opcodeBits ≤ s.remaining
  · rw [if_pos h]
    rfl
  · rw [if_neg h]
    exact .underflow _ _

/-- The struct of a message of the right opcode is read, unless bits are missing or a number is too wide. -/
theorem readLayout_ends {l : Layout} {s : Slice} (hop : l.header.value.toNat = s.opcode)
    (isPartial : Bool) :
    Ends (·.Holds (l.fields isPartial)) Exit.IsReading (readLayout l isPartial s) := by
  have hdecode : Leaves (·.Holds (l.fields isPartial)) (fun e => (Exit.codec e).IsReading)
      (Codec.decode l isPartial s) := by
    refine (loadOpcode_leaves s).bind fun n t hn => ?_
    show Leaves _ _ ((if n = l.header.value.toNat then _ else _ : Codec.Decode Record) t)
    rw [if_pos (hn.trans hop.symm)]
    exact decodeFields_leaves _ t
  unfold readLayout
  cases h : Codec.decode l isPartial s with
  | ok r t =>
    rw [h] at hdecode
    exact hdecode
  | error e t =>
    rw [h] at hdecode
    exact hdecode

end Simulator
end MessageRouter

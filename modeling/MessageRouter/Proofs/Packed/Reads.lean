import Mathlib.Tactic.Ring
import MessageRouter.Cell.Slice
import MessageRouter.Proofs.Cell.Stores
import MessageRouter.Proofs.Fallible
import MessageRouter.Proofs.Packed.Stores
/-!
# `Proofs.Packed.Reads` — what reads of packed bytes find

* `Slice.readUint_eq`, `Slice.readInt_eq`: the loops over the bits of a number.
* `SameLook`, `Same`: outcomes that are the same, of packed bytes and of bit strings.
* `Slice.preloadUint_same`, `Slice.preloadInt_same`: the number in front is the one that its bits spell.
* `Slice.toCell_ofBits`, `Slice.toCell_plain`: what is left, moved to the front.
-/
namespace MessageRouter
namespace Packed

/-! ## Outcomes that are the same -/

section Same

variable {α β σ τ : Type}

/-- What looks at packed bytes and at their bit string find is the same. -/
inductive SameLook (value : α → β) : Except Stop α → Except Cell.Fault β → Prop
  | ok (a : α) : SameLook value (.ok a) (.ok (value a))
  | error (e : Cell.Fault) : SameLook value (.error (.fault e)) (.error e)

/-- Where runs over packed bytes and over their bit strings end is the same. -/
inductive Same (state : σ → τ) (value : α → β) :
    EStateM.Result Stop σ α → EStateM.Result Cell.Fault τ β → Prop
  | ok (a : α) (s : σ) : Same state value (.ok a s) (.ok (value a) (state s))
  | error (e : Cell.Fault) (s : σ) : Same state value (.error (.fault e) s) (.error e (state s))

end Same

namespace Slice

/-! ## Numbers, bit by bit -/

/-- A bit behind those of a number doubles it and counts one if it is set. -/
theorem pushed_eq (v : BitVec 128) (bit : Bool) : pushed v bit = v + v + BitVec.ofNat 128 bit.toNat := by
  rw [pushed, ← BitVec.add_eq_or_of_and_eq_zero]
  · cases bit <;> bv_omega
  · apply BitVec.eq_of_getLsbD_eq
    intro i hi
    cases i <;> cases bit <;> simp

/-- Bits behind those of a number count as the number that they spell. -/
theorem foldl_pushed (bits : List Bool) (i : Int) :
    bits.foldl pushed (BitVec.ofInt 128 i) =
      BitVec.ofInt 128 (i * 2 ^ bits.length + Bits.toNat bits) := by
  induction bits generalizing i with
  | nil => simp
  | cons bit rest ih =>
    have hpushed : pushed (BitVec.ofInt 128 i) bit = BitVec.ofInt 128 (i + i + bit.toNat) := by
      rw [pushed_eq, BitVec.ofInt_add, BitVec.ofInt_add, BitVec.ofInt_natCast]
    rw [List.foldl_cons, hpushed, ih, Bits.toNat_cons, List.length_cons]
    congr 1
    push_cast
    ring

/-- The number that bits behind a sign spell with it. -/
def extended (sign : Bool) (bits : List Bool) : Int :=
  (if sign then -1 else 0) * 2 ^ bits.length + Bits.toNat bits

/-- A sign may be repeated. -/
theorem extended_cons (sign : Bool) (rest : List Bool) :
    extended sign (sign :: rest) = extended sign rest := by
  rw [extended, extended, Bits.toNat_cons, List.length_cons]
  push_cast
  cases sign with
  | true =>
    simp only [if_true, Bool.toNat_true]
    push_cast
    ring
  | false => simp

/-- A first bit is a sign. -/
theorem toInt_cons_eq_extended (sign : Bool) (rest : List Bool) :
    Bits.toInt (sign :: rest) = extended sign (sign :: rest) := by
  rw [Bits.toInt_cons, extended, List.length_cons]
  cases sign with
  | true =>
    simp only [if_true]
    ring
  | false => simp

/-- Beside a sign there is room for 127 bits. -/
theorem inRange_extended (sign : Bool) {bits : List Bool} (h : bits.length ≤ 127) :
    Int128.InRange (extended sign bits) := by
  have hlt : (Bits.toNat bits : Int) < 2 ^ bits.length := by exact_mod_cast Bits.toNat_lt bits
  have hpow : (2 : Int) ^ bits.length ≤ 2 ^ 127 := by
    exact_mod_cast Nat.pow_le_pow_right (n := 2) (by omega) h
  unfold extended Int128.InRange
  cases sign <;> simp <;> omega

/-- A bit that is not the sign counts for more than there is room for, if 127 others follow. -/
theorem not_inRange_extended_cons {sign bit : Bool} (hsign : bit ≠ sign) {rest : List Bool}
    (h : 127 ≤ rest.length) : ¬ Int128.InRange (extended sign (bit :: rest)) := by
  have hlt : (Bits.toNat rest : Int) < 2 ^ rest.length := by exact_mod_cast Bits.toNat_lt rest
  have hpow : (2 : Int) ^ 127 ≤ 2 ^ rest.length := by
    exact_mod_cast Nat.pow_le_pow_right (n := 2) (by omega) h
  have hdouble : (2 : Int) ^ (rest.length + 1) = 2 * 2 ^ rest.length := by ring
  rw [extended, Bits.toNat_cons, List.length_cons, hdouble]
  unfold Int128.InRange
  cases bit <;> cases sign <;> simp at hsign ⊢ <;> omega

section Loops

variable {s : Slice} {width : Nat} {rest : List Bool}

/-- The last bits of an unsigned number, of which 128 have room. -/
theorem readUint_of_le (h : s.ShowsLast width rest) (hsmall : rest.length ≤ 128) (v : BitVec 128) :
    s.readUint width rest.length v = .ok (rest.foldl pushed v) := by
  induction rest generalizing v with
  | nil => rfl
  | cons bit rest ih =>
    obtain ⟨hbit, hrest⟩ := h.of_cons
    rw [List.length_cons] at hsmall ⊢
    rw [readUint, hbit, List.foldl_cons, ← ih hrest (by omega)]
    exact if_neg (by omega)

/-- The last bits of a signed number, of which 127 have room beside the sign. -/
theorem readInt_of_le (h : s.ShowsLast width rest) (sign : Bool) (hsmall : rest.length ≤ 127)
    (v : BitVec 128) : s.readInt width sign rest.length v = .ok (rest.foldl pushed v) := by
  induction rest generalizing v with
  | nil => rfl
  | cons bit rest ih =>
    obtain ⟨hbit, hrest⟩ := h.of_cons
    rw [List.length_cons] at hsmall ⊢
    rw [readInt, hbit, List.foldl_cons, ← ih hrest (by omega)]
    exact if_neg (by omega)

/-- The last bits of an unsigned number are read if they spell one of 128 bits. -/
theorem readUint_eq (h : s.ShowsLast width rest) :
    s.readUint width rest.length 0 =
      if Bits.toNat rest < 2 ^ 128 then .ok (BitVec.ofNat 128 (Bits.toNat rest))
      else .error (.fault (.unsignedTooWide width)) := by
  induction rest with
  | nil => rfl
  | cons bit rest ih =>
    by_cases hsmall : (bit :: rest).length ≤ 128
    · have hfold := foldl_pushed (bit :: rest) 0
      rw [Int.zero_mul, Int.zero_add, BitVec.ofInt_natCast] at hfold
      have hlt : Bits.toNat (bit :: rest) < 2 ^ 128 :=
        Nat.lt_of_lt_of_le (Bits.toNat_lt _) (Nat.pow_le_pow_right (by omega) hsmall)
      rw [readUint_of_le h hsmall, if_pos hlt]
      exact congrArg Except.ok hfold
    · -- the first bit has no room, and has to be zero
      obtain ⟨hbit, hrest⟩ := h.of_cons
      rw [List.length_cons] at hsmall ⊢
      have hpow : 2 ^ 128 ≤ 2 ^ rest.length := Nat.pow_le_pow_right (by omega) (by omega)
      have hread : s.readUint width (rest.length + 1) 0 =
          if bit then .error (.fault (.unsignedTooWide width)) else s.readUint width rest.length 0 := by
        rw [readUint, hbit]
        exact if_pos (by omega)
      rw [hread, Bits.toNat_cons]
      cases bit with
      | true =>
        rw [if_pos rfl, Bool.toNat_true, if_neg (by omega)]
      | false =>
        rw [if_neg Bool.false_ne_true, ih hrest, Bool.toNat_false, Nat.zero_mul, Nat.zero_add]

/-- The last bits of a signed number are read if they go on with its sign to spell one of 128 bits. -/
theorem readInt_eq (h : s.ShowsLast width rest) (sign : Bool) :
    s.readInt width sign rest.length (if sign then -1 else 0) =
      if Int128.InRange (extended sign rest) then .ok (BitVec.ofInt 128 (extended sign rest))
      else .error (.fault (.signedTooWide width)) := by
  induction rest with
  | nil => cases sign <;> rfl
  | cons bit rest ih =>
    by_cases hsmall : (bit :: rest).length ≤ 127
    · have hstart : (if sign then -1 else 0 : BitVec 128) = BitVec.ofInt 128 (if sign then -1 else 0) := by
        cases sign <;> rfl
      rw [readInt_of_le h sign hsmall, hstart, foldl_pushed, if_pos (inRange_extended sign hsmall)]
      rfl
    · -- the first bit has no room, and has to be the sign again
      obtain ⟨hbit, hrest⟩ := h.of_cons
      rw [List.length_cons] at hsmall ⊢
      have hread : s.readInt width sign (rest.length + 1) (if sign then -1 else 0) =
          if bit = sign then s.readInt width sign rest.length (if sign then -1 else 0)
          else .error (.fault (.signedTooWide width)) := by
        rw [readInt, hbit]
        exact if_pos (by omega)
      rw [hread]
      by_cases hsign : bit = sign
      · rw [if_pos hsign, ih hrest, hsign, extended_cons]
      · have hout := not_inRange_extended_cons hsign (by omega : 127 ≤ rest.length)
        rw [if_neg hsign, if_neg hout]

end Loops

/-! ## Reads -/

section Reads

variable {bits : List Bool} {refs : List Packed} {position : Nat}

theorem plain_ofBits : plain ⟨ofBits bits refs, position⟩ = ⟨bits.drop position, refs.map Packed.plain⟩ := by
  simp only [plain, Slice.bits, Packed.bits_ofBits, Packed.refs_ofBits]

/-- If so many bits are left, they are the first of the bit string; if not, no read of them succeeds. -/
theorem ensure_cases (bits : List Bool) (refs : List Packed) (position n : Nat) :
    (∃ first, first.length = n ∧ ensure ⟨ofBits bits refs, position⟩ n = .ok () ∧
      (plain ⟨ofBits bits refs, position⟩).front n = .ok first ∧
      ShowsLast ⟨ofBits bits refs, position⟩ n first) ∨
    ∃ e, ensure ⟨ofBits bits refs, position⟩ n = .error (.fault e) ∧
      (plain ⟨ofBits bits refs, position⟩).front n = .error e := by
  simp only [ensure, remaining, Packed.length_ofBits, plain_ofBits, MessageRouter.Slice.front,
    MessageRouter.Slice.remaining, List.length_drop]
  by_cases hn : n ≤ bits.length - position
  · have hlength : ((bits.drop position).take n).length = n := by
      rw [List.length_take, List.length_drop]
      omega
    exact .inl ⟨_, hlength, if_neg (by omega), if_pos hn, showsLast_ofBits refs hn⟩
  · exact .inr ⟨_, if_pos (by omega), if_neg hn⟩

/-- The unsigned number in front is the one that its bits spell. -/
theorem preloadUint_same (bits : List Bool) (refs : List Packed) (position width : Nat) :
    SameLook BitVec.toNat (preloadUint ⟨ofBits bits refs, position⟩ width)
      ((plain ⟨ofBits bits refs, position⟩).preloadUint width) := by
  rcases ensure_cases bits refs position width with
    ⟨first, rfl, hensure, hfront, hshows⟩ | ⟨e, hensure, hfront⟩
  · have hread := readUint_eq hshows
    rw [preloadUint, hensure, MessageRouter.Slice.preloadUint, hfront]
    show SameLook BitVec.toNat (readUint _ _ _ _)
      (if Bits.toNat first < 2 ^ 128 then pure (Bits.toNat first) else throw _)
    rw [hread]
    by_cases hlt : Bits.toNat first < 2 ^ 128
    · rw [if_pos hlt, if_pos hlt]
      have hvalue : (BitVec.ofNat 128 (Bits.toNat first)).toNat = Bits.toNat first := by
        rw [BitVec.toNat_ofNat, Nat.mod_eq_of_lt hlt]
      have hsame : SameLook BitVec.toNat (.ok (BitVec.ofNat 128 (Bits.toNat first)))
          (.ok (BitVec.ofNat 128 (Bits.toNat first)).toNat) := .ok _
      rwa [hvalue] at hsame
    · rw [if_neg hlt, if_neg hlt]
      exact .error _
  · rw [preloadUint, hensure, MessageRouter.Slice.preloadUint, hfront]
    exact .error e

/-- The signed number in front of a bit string, if it has 128 bits. -/
theorem preloadInt_of_front {t : MessageRouter.Slice} {width : Nat} {first : List Bool}
    (hfront : t.front width = .ok first) :
    t.preloadInt width = if Int128.InRange (Bits.toInt first) then
        .ok ⟨BitVec.ofInt 128 (Bits.toInt first)⟩
      else .error (.signedTooWide width) := by
  rw [MessageRouter.Slice.preloadInt, hfront]
  by_cases hrange : Int128.InRange (Bits.toInt first)
  · have hfound : Int128.ofInt? (Bits.toInt first) = some ⟨BitVec.ofInt 128 (Bits.toInt first)⟩ := by
      rw [Int128.ofInt?, if_pos hrange]
    simp only [bind, Except.bind, hfound, if_pos hrange]
    rfl
  · have hnone : Int128.ofInt? (Bits.toInt first) = none := by
      rw [Int128.ofInt?, if_neg hrange]
    simp only [bind, Except.bind, hnone, if_neg hrange]
    rfl

/-- The signed number in front is the one that its bits spell. -/
theorem preloadInt_same (bits : List Bool) (refs : List Packed) (position width : Nat) :
    SameLook id (preloadInt ⟨ofBits bits refs, position⟩ width)
      ((plain ⟨ofBits bits refs, position⟩).preloadInt width) := by
  rcases ensure_cases bits refs position width with
    ⟨first, rfl, hensure, hfront, hshows⟩ | ⟨e, hensure, hfront⟩
  · rw [preloadInt_of_front hfront]
    cases first with
    | nil =>
      rw [preloadInt, if_pos List.length_nil, if_pos (by decide)]
      exact .ok 0
    | cons sign rest =>
      -- the sign in front is what the number is read onto, and is then read once more as a bit of it
      have hread := readInt_eq hshows sign
      have hsign := hshows.of_cons.1
      rw [List.length_cons, Nat.sub_self] at hsign
      rw [preloadInt, if_neg (List.length_cons ▸ Nat.succ_ne_zero _), hensure, hsign,
        toInt_cons_eq_extended]
      show SameLook id ((readInt _ _ sign _ _).bind _) _
      rw [hread]
      by_cases hrange : Int128.InRange (extended sign (sign :: rest))
      · rw [if_pos hrange, if_pos hrange]
        exact .ok _
      · rw [if_neg hrange, if_neg hrange]
        exact .error _
  · have hwidth : width ≠ 0 := by
      rintro rfl
      exact nomatch hensure
    rw [preloadInt, if_neg hwidth, hensure, MessageRouter.Slice.preloadInt, hfront]
    exact .error e

/-- A look that finds the same takes the same. -/
theorem taking_same {α β : Type} {value : α → β} {s : Slice} {look : Slice → Except Stop α}
    {look' : MessageRouter.Slice → Except Cell.Fault β} (n : Nat)
    (h : SameLook value (look s) (look' s.plain)) :
    Same plain value (taking n look s) (MessageRouter.Slice.taking n look' s.plain) := by
  unfold taking MessageRouter.Slice.taking
  generalize look s = found at h ⊢
  generalize look' s.plain = found' at h ⊢
  cases h with
  | ok a =>
    have hrest : plain { s with position := s.position + n } = s.plain.drop n := by
      simp only [plain, Slice.bits, MessageRouter.Slice.drop, List.drop_drop]
    show Same plain value (.ok a _) (.ok (value a) _)
    rw [← hrest]
    exact .ok a _
  | error e => exact .error e s

theorem loadUint_same (bits : List Bool) (refs : List Packed) (position width : Nat) :
    Same plain BitVec.toNat (loadUint width ⟨ofBits bits refs, position⟩)
      (MessageRouter.Slice.loadUint width (plain ⟨ofBits bits refs, position⟩)) :=
  taking_same width (preloadUint_same bits refs position width)

theorem loadInt_same (bits : List Bool) (refs : List Packed) (position width : Nat) :
    Same plain id (loadInt width ⟨ofBits bits refs, position⟩)
      (MessageRouter.Slice.loadInt width (plain ⟨ofBits bits refs, position⟩)) :=
  taking_same width (preloadInt_same bits refs position width)

theorem loadBit_same (bits : List Bool) (refs : List Packed) (position : Nat) :
    Same plain id (loadBit ⟨ofBits bits refs, position⟩)
      (MessageRouter.Slice.loadBit (plain ⟨ofBits bits refs, position⟩)) := by
  apply taking_same
  rcases ensure_cases bits refs position 1 with
    ⟨first, hlength, hensure, hfront, hshows⟩ | ⟨e, hensure, hfront⟩
  · obtain ⟨bit, rfl⟩ := List.length_eq_one_iff.mp hlength
    have hbit : Slice.bit ⟨ofBits bits refs, position⟩ 0 = .ok bit := hshows.of_cons.1
    rw [hensure, hfront]
    show SameLook id (Slice.bit _ 0) (.ok ([bit].head? == some true))
    rw [hbit]
    cases bit <;> exact .ok _
  · rw [hensure, hfront]
    exact .error e

theorem skipBits_same (bits : List Bool) (refs : List Packed) (position n : Nat) :
    Same plain id (skipBits n ⟨ofBits bits refs, position⟩)
      (MessageRouter.Slice.skipBits n (plain ⟨ofBits bits refs, position⟩)) := by
  apply taking_same
  rcases ensure_cases bits refs position n with
    ⟨first, hlength, hensure, hfront, hshows⟩ | ⟨e, hensure, hfront⟩
  · rw [hensure, hfront]
    exact .ok ()
  · rw [hensure, hfront]
    exact .error e

end Reads

/-! ## What is left -/

/-- The bits that are left are moved to the front one after the other. -/
theorem moveBits_eq {s : Slice} {moved rest : List Bool} (h : s.ShowsLast s.remaining rest)
    (hlength : moved.length + rest.length = s.remaining) {bytes : Array UInt8}
    (hsize : bytes.size = (s.remaining + 7) / 8)
    (hbits : ∀ i, bitOrZero bytes i = moved[i]?.getD false) :
    s.moveBits rest.length bytes = .ok (pack (moved ++ rest)) := by
  -- by induction on the bits that are still to be moved; the bytes hold those that were, and zeros behind them
  induction rest generalizing moved bytes with
  | nil =>
    rw [List.append_nil]
    apply congrArg Except.ok
    apply eq_pack_iff.mpr
    rw [List.length_nil, Nat.add_zero] at hlength
    exact ⟨hlength ▸ hsize, hbits⟩
  | cons bit rest ih =>
    obtain ⟨hbit, hrest⟩ := h.of_cons
    rw [List.length_cons] at hlength ⊢
    have hplace : s.remaining - (rest.length + 1) = moved.length := by omega
    have hnext : (moved ++ [bit]).length + rest.length = s.remaining := by
      rw [List.length_append, List.length_singleton]
      omega
    have hsplit : moved ++ bit :: rest = (moved ++ [bit]) ++ rest := by simp
    rw [hplace] at hbit
    rw [moveBits, hplace, hbit, hsplit]
    cases bit with
    | true =>
      have hinside : moved.length / 8 < bytes.size := by omega
      obtain ⟨changed, hchanged, hsize', hbits'⟩ := exists_orAt_eq_ok hinside
      show (orAt _ _ _).bind _ = _
      rw [hchanged]
      apply ih hrest hnext (hsize'.trans hsize)
      intro i
      rw [hbits', hbits, getD_append_singleton, Bool.true_and]
    | false =>
      apply ih hrest hnext hsize
      intro i
      rw [hbits, getD_append_singleton, Bool.false_and, Bool.or_false]

/-- What is left is the cell of the bits that are left, and of all references. -/
theorem toCell_ofBits (bits : List Bool) (refs : List Packed) (position : Nat) :
    toCell ⟨ofBits bits refs, position⟩ = .ok (ofBits (bits.drop position) refs) := by
  have hremaining : remaining ⟨ofBits bits refs, position⟩ = (bits.drop position).length :=
    List.length_drop.symm
  have hshows := showsLast_remaining bits refs position
  rw [← hremaining] at hshows
  have hnothing : ([] : List Bool).length + (bits.drop position).length =
      remaining ⟨ofBits bits refs, position⟩ := by rw [List.length_nil, Nat.zero_add, hremaining]
  have hmoved := moveBits_eq hshows hnothing Array.size_replicate (bitOrZero_replicate _)
  rw [toCell, hremaining]
  rw [hremaining] at hmoved
  rw [hmoved]
  rfl

/-- The same of bit strings. -/
theorem toCell_plain (bits : List Bool) (refs : List Packed) (position : Nat) :
    (plain ⟨ofBits bits refs, position⟩).toCell = (ofBits (bits.drop position) refs).plain := by
  apply Cell.ext
  · rw [bits_plain, Packed.bits_ofBits, plain_ofBits]
    rfl
  · rw [refs_plain, Packed.refs_ofBits, plain_ofBits]
    rfl

end Slice
end Packed
end MessageRouter

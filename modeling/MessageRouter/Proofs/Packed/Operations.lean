import MessageRouter.Proofs.Packed.Reads
import MessageRouter.Proofs.Packed.Representation
/-!
# `Proofs.Packed.Operations` — sequences of stores and reads

* `Store`: one store, with its bits, its references and its check of a range.
* `outcome`: where a store ends, of packed bytes and of bit strings.
* `Store.run_ofBits`, `Store.plainRun_mk`: every store ends there.
* `Made`: builders, cells and slices that come from the empty builder.
* `Made.sound`: their bytes are those of a bit string, and no more bits are taken than there are.
-/
namespace MessageRouter
namespace Packed

/-! ## Stores -/

/-- One store into a builder. -/
inductive Store where
  | bit (b : Bool)
  | uint (value : BitVec 128) (width : Nat)
  | int (value : Int128) (width : Nat)
  | bytes (data : List UInt8)
  | ref (c : Packed)
  | slice (s : Slice)

def Store.run : Store → Build Unit
  | .bit b => Builder.storeBit b
  | .uint value width => Builder.storeUint value width
  | .int value width => Builder.storeInt value width
  | .bytes data => Builder.storeBytes data
  | .ref c => Builder.storeRef c
  | .slice s => Builder.storeSlice s

/-- The same store of bit strings. -/
def Store.plainRun : Store → MessageRouter.Build Unit
  | .bit b => MessageRouter.Builder.storeBit b
  | .uint value width => MessageRouter.Builder.storeUint value.toNat width
  | .int value width => MessageRouter.Builder.storeInt value.toInt width
  | .bytes data => MessageRouter.Builder.storeBytes data
  | .ref c => MessageRouter.Builder.storeRef c.plain
  | .slice s => MessageRouter.Builder.storeCell s.plain.toCell

/-- The bits to store, the highest of a number or a byte first. -/
def Store.bits : Store → List Bool
  | .bit b => [b]
  | .uint value width => Bits.ofNat width value.toNat
  | .int value width => Bits.ofInt width value.toInt
  | .bytes data => Bits.ofBytes data
  | .ref _ => []
  | .slice s => s.bits

/-- The references to store. -/
def Store.refs : Store → List Packed
  | .ref c => [c]
  | .slice s => s.cell.refs
  | _ => []

/-- Why a number does not fit its width. -/
def Store.rangeFault? : Store → Option Cell.Fault
  | .uint value width => if value.toNat < 2 ^ width then none else some (.unsignedRange value.toNat width)
  | .int value width =>
    if -2 ^ width ≤ 2 * value.toInt ∧ 2 * value.toInt < 2 ^ width then none
    else some (.signedRange value.toInt width)
  | _ => none

/-- A store after a check of a range. -/
def checked {ε σ : Type} (fault : Cell.Fault → ε) (range? : Option Cell.Fault) (store : EStateM ε σ Unit) :
    EStateM ε σ Unit :=
  match range? with
  | some e => throw (fault e)
  | none => store

/-- Where a store ends that has `bits` and `refs` before it and `more` to store: a number out of range stores nothing;
the others store their bits and then their references, as many as fit. -/
def outcome {α ε σ : Type} (fault : Cell.Fault → ε) (state : List Bool → List α → σ)
    (range? : Option Cell.Fault) (bits more : List Bool) (refs moreRefs : List α) :
    EStateM.Result ε σ Unit :=
  match range? with
  | some e => .error (fault e) (state bits refs)
  | none =>
    if bits.length + more.length ≤ Cell.maxBits then
      if refs.length + moreRefs.length ≤ Cell.maxRefs then .ok () (state (bits ++ more) (refs ++ moreRefs))
      else .error (fault .tooManyRefs)
        (state (bits ++ more) (refs ++ moreRefs.take (Cell.maxRefs - refs.length)))
    else .error (fault .tooManyBits) (state (bits ++ more.take (Cell.maxBits - bits.length)) refs)

/-! ## Objects -/

/-- What is built and read. -/
inductive Object where
  | builder (b : Builder)
  | cell (c : Packed)
  | slice (s : Slice)

/-- The bytes are those of a bit string, and no more bits are taken than there are. -/
def Object.Sound : Object → Prop
  | .builder b => b.cell.Sound
  | .cell c => c.Sound
  | .slice s => s.cell.Sound ∧ s.position ≤ s.cell.length

/-- What a store needs besides the builder. -/
def Store.args : Store → List Object
  | .ref c => [.cell c]
  | .slice s => [.slice s]
  | _ => []

/-- What is left behind, also by a failure. -/
def after {α ε σ : Type} : EStateM.Result ε σ α → σ
  | .ok _ s => s
  | .error _ s => s

/-- Builders, cells and slices that come from the empty builder by stores and reads, of which any may fail. -/
inductive Made : Object → Prop
  | empty : Made (.builder .empty)
  | store {b : Builder} (op : Store) (hb : Made (.builder b)) (hargs : ∀ o ∈ op.args, Made o) :
      Made (.builder (after (op.run b)))
  | finish {b : Builder} (hb : Made (.builder b)) : Made (.cell b.cell)
  | ofCell {c : Packed} (hc : Made (.cell c)) : Made (.slice (.ofCell c))
  | loadUint {s : Slice} (width : Nat) (hs : Made (.slice s)) :
      Made (.slice (after (Slice.loadUint width s)))
  | loadInt {s : Slice} (width : Nat) (hs : Made (.slice s)) :
      Made (.slice (after (Slice.loadInt width s)))
  | loadBit {s : Slice} (hs : Made (.slice s)) : Made (.slice (after (Slice.loadBit s)))
  | skipBits {s : Slice} (n : Nat) (hs : Made (.slice s)) : Made (.slice (after (Slice.skipBits n s)))
  | toCell {s : Slice} {c : Packed} (hs : Made (.slice s)) (hc : s.toCell = .ok c) : Made (.cell c)

/-! ## Where a store ends -/

theorem Sound.exists_eq {c : Packed} (h : Sound c) :
    ∃ bits refs, c = ofBits bits refs ∧ bits.length ≤ Cell.maxBits ∧ refs.length ≤ Cell.maxRefs ∧
      ∀ r ∈ refs, Sound r := by
  cases h with
  | @intro bits refs hbits hcount hrefs => exact ⟨bits, refs, rfl, hbits, hcount, hrefs⟩

theorem Sound.exists_builder_eq {b : Builder} (h : Sound b.cell) :
    ∃ bits refs, b = Builder.ofBits bits refs ∧ bits.length ≤ Cell.maxBits ∧
      refs.length ≤ Cell.maxRefs ∧ ∀ r ∈ refs, Sound r := by
  obtain ⟨bits, refs, hcell, hbits, hcount, hrefs⟩ := h.exists_eq
  obtain ⟨bytes, length, refs'⟩ := b
  injection hcell with hbytes hlength hrefs'
  subst hbytes hlength hrefs'
  exact ⟨bits, refs', rfl, hbits, hcount, hrefs⟩

/-- A cell without its first bits. -/
theorem Sound.drop {bits : List Bool} {refs : List Packed} (n : Nat) (hbits : bits.length ≤ Cell.maxBits)
    (hcount : refs.length ≤ Cell.maxRefs) (hrefs : ∀ r ∈ refs, Sound r) :
    Sound (ofBits (bits.drop n) refs) := by
  apply Sound.intro _ hcount hrefs
  rw [List.length_drop]
  omega

/-- The references that a store stores are those of its arguments. -/
theorem Store.sound_of_mem_refs {op : Store} (hargs : ∀ o ∈ op.args, o.Sound) {c : Packed}
    (hc : c ∈ op.refs) : Sound c := by
  cases op with
  | ref r =>
    obtain rfl := List.mem_singleton.mp hc
    exact hargs (.cell c) (List.mem_singleton_self _)
  | slice s =>
    obtain ⟨hcell, -⟩ := hargs (.slice s) (List.mem_singleton_self _)
    obtain ⟨bits, refs, heq, -, -, hrefs⟩ := hcell.exists_eq
    rw [Store.refs, heq, refs_ofBits] at hc
    exact hrefs c hc
  | bit | uint | int | bytes => cases hc

/-- Every store is a check of a range, and then one of bits and of references. -/
theorem Store.run_eq {op : Store} (hargs : ∀ o ∈ op.args, o.Sound) :
    op.run = checked .fault op.rangeFault?
      (forM op.bits Builder.storeBit >>= fun _ => forM op.refs Builder.storeRef) := by
  cases op with
  | bit b => simp [checked, run, rangeFault?, Store.bits, Store.refs]
  | uint value width =>
    rw [run, Builder.storeUint_eq]
    by_cases h : value.toNat < 2 ^ width <;> simp [checked, rangeFault?, Store.bits, Store.refs, h]
  | int value width =>
    rw [run, Builder.storeInt_eq]
    simp only [Bits.fitsSigned_iff]
    by_cases h : -2 ^ width ≤ 2 * value.toInt ∧ 2 * value.toInt < 2 ^ width <;>
      simp [checked, rangeFault?, Store.bits, Store.refs, h]
  | bytes data =>
    rw [run, Builder.storeBytes_eq]
    simp [checked, rangeFault?, Store.bits, Store.refs]
  | ref c => simp [checked, run, rangeFault?, Store.bits, Store.refs]
  | slice s =>
    obtain ⟨hcell, -⟩ := hargs (.slice s) (List.mem_singleton_self _)
    obtain ⟨xs, rs, heq, -, -, -⟩ := hcell.exists_eq
    obtain ⟨c, position⟩ := s
    obtain rfl : c = ofBits xs rs := heq
    rw [run, Builder.storeSlice_eq xs rs position]
    simp only [checked, rangeFault?, Store.bits, Store.refs, Slice.bits, bits_ofBits, refs_ofBits]

/-- The same of bit strings. -/
theorem Store.plainRun_eq (op : Store) :
    op.plainRun = checked id op.rangeFault?
      (MessageRouter.Builder.storeBits op.bits >>= fun _ =>
        forM (op.refs.map Packed.plain) MessageRouter.Builder.storeRef) := by
  cases op with
  | bit b =>
    rw [plainRun, MessageRouter.Builder.storeBit]
    simp [checked, rangeFault?, Store.bits, Store.refs]
  | uint value width =>
    rw [plainRun, MessageRouter.Builder.storeUint_eq]
    by_cases h : value.toNat < 2 ^ width <;> simp [checked, rangeFault?, Store.bits, Store.refs, h]
  | int value width =>
    rw [plainRun, MessageRouter.Builder.storeInt_eq]
    simp only [Bits.fitsSigned_iff]
    by_cases h : -2 ^ width ≤ 2 * value.toInt ∧ 2 * value.toInt < 2 ^ width <;>
      simp [checked, rangeFault?, Store.bits, Store.refs, h]
  | bytes data =>
    rw [plainRun, MessageRouter.Builder.storeBytes]
    simp [checked, rangeFault?, Store.bits, Store.refs]
  | ref c =>
    -- a store of no bits does nothing
    have hnothing : MessageRouter.Builder.storeBits [] = pure () := by
      funext b
      simp [MessageRouter.Builder.storeBits]
      rfl
    simp [checked, plainRun, rangeFault?, Store.bits, Store.refs, hnothing]
  | slice s =>
    rw [plainRun, MessageRouter.Builder.storeCell, MessageRouter.Builder.storeRefs, List.forM_eq_forM]
    rfl

/-- Stores of bits and of references that stop where there is no more room end as they should. -/
theorem checked_eq_outcome {α ε σ : Type} {fault : Cell.Fault → ε} {state : List Bool → List α → σ}
    {storeBits storeRefs : EStateM ε σ Unit} {bits more : List Bool} {refs moreRefs : List α}
    (range? : Option Cell.Fault)
    (hbits : storeBits (state bits refs) =
      if bits.length + more.length ≤ Cell.maxBits then .ok () (state (bits ++ more) refs)
      else .error (fault .tooManyBits) (state (bits ++ more.take (Cell.maxBits - bits.length)) refs))
    (hrefs : storeRefs (state (bits ++ more) refs) =
      if refs.length + moreRefs.length ≤ Cell.maxRefs then .ok () (state (bits ++ more) (refs ++ moreRefs))
      else .error (fault .tooManyRefs)
        (state (bits ++ more) (refs ++ moreRefs.take (Cell.maxRefs - refs.length)))) :
    checked fault range? (storeBits >>= fun _ => storeRefs) (state bits refs) =
      outcome fault state range? bits more refs moreRefs := by
  unfold checked outcome
  cases range? with
  | some e => rfl
  | none =>
    by_cases hfits : bits.length + more.length ≤ Cell.maxBits
    · rw [if_pos hfits] at hbits
      simp only [if_pos hfits]
      rw [Fallible.stateful_bind_of_ok _ hbits, hrefs]
    · rw [if_neg hfits] at hbits
      simp only [if_neg hfits]
      rw [Fallible.stateful_bind_of_error _ hbits]

section Outcome

variable {bits : List Bool}

/-- Where a store of packed bytes ends. -/
theorem Store.run_ofBits {op : Store} (hargs : ∀ o ∈ op.args, o.Sound) (hbits : bits.length ≤ Cell.maxBits)
    {refs : List Packed} (hrefs : refs.length ≤ Cell.maxRefs) :
    op.run (Builder.ofBits bits refs) =
      outcome .fault Builder.ofBits op.rangeFault? bits op.bits refs op.refs := by
  rw [Store.run_eq hargs]
  apply checked_eq_outcome
  · exact Builder.forM_storeBit op.bits refs hbits
  · exact Builder.forM_storeRef op.refs (bits ++ op.bits) hrefs

/-- Where a store of bit strings ends. -/
theorem Store.plainRun_mk (op : Store) (hbits : bits.length ≤ Cell.maxBits) {plainRefs : List Cell}
    (hrefs : plainRefs.length ≤ Cell.maxRefs) :
    op.plainRun ⟨bits, plainRefs⟩ =
      outcome id MessageRouter.Builder.mk op.rangeFault? bits op.bits plainRefs (op.refs.map plain) := by
  rw [Store.plainRun_eq]
  apply checked_eq_outcome
  · have hroom : op.bits.length ≤ Cell.maxBits - bits.length ↔
        bits.length + op.bits.length ≤ Cell.maxBits := by omega
    simp only [MessageRouter.Builder.storeBits, hroom]
    rfl
  · exact forM_of_limit (MessageRouter.Builder.mk (bits ++ op.bits)) (fun _ _ => rfl) _ hrefs

end Outcome

/-! ## What is made -/

/-- A store leaves the beginnings of what it had to store, which fit. -/
theorem exists_after_outcome {α ε σ : Type} (fault : Cell.Fault → ε) (state : List Bool → List α → σ)
    (range? : Option Cell.Fault) {bits : List Bool} (more : List Bool) {refs : List α} (moreRefs : List α)
    (hbits : bits.length ≤ Cell.maxBits) (hrefs : refs.length ≤ Cell.maxRefs) :
    ∃ m n, after (outcome fault state range? bits more refs moreRefs) =
        state (bits ++ more.take m) (refs ++ moreRefs.take n) ∧
      (bits ++ more.take m).length ≤ Cell.maxBits ∧ (refs ++ moreRefs.take n).length ≤ Cell.maxRefs := by
  unfold outcome
  cases range? with
  | some e =>
    refine ⟨0, 0, ?_⟩
    simp only [List.take_zero, List.append_nil]
    exact ⟨rfl, hbits, hrefs⟩
  | none =>
    simp only [List.length_append, List.length_take]
    by_cases hfits : bits.length + more.length ≤ Cell.maxBits
    · by_cases hcount : refs.length + moreRefs.length ≤ Cell.maxRefs
      · refine ⟨more.length, moreRefs.length, ?_, by omega, by omega⟩
        rw [if_pos hfits, if_pos hcount, List.take_length, List.take_length]
        rfl
      · refine ⟨more.length, Cell.maxRefs - refs.length, ?_, by omega, by omega⟩
        rw [if_pos hfits, if_neg hcount, List.take_length]
        rfl
    · refine ⟨Cell.maxBits - bits.length, 0, ?_, by omega, by omega⟩
      rw [if_neg hfits, List.take_zero, List.append_nil]
      rfl

/-- A store into a builder keeps its bytes those of a bit string. -/
theorem Sound.store {b : Builder} (hb : Sound b.cell) {op : Store} (hargs : ∀ o ∈ op.args, o.Sound) :
    Sound (after (op.run b)).cell := by
  obtain ⟨bits, refs, rfl, hbits, hcount, hrefs⟩ := hb.exists_builder_eq
  rw [Store.run_ofBits hargs hbits hcount]
  obtain ⟨m, n, hafter, hbits', hcount'⟩ :=
    exists_after_outcome Stop.fault Builder.ofBits op.rangeFault? op.bits op.refs hbits hcount
  rw [hafter, Builder.cell_ofBits]
  apply Sound.intro hbits' hcount'
  intro c hc
  rcases List.mem_append.mp hc with hc | hc
  · exact hrefs c hc
  · exact Store.sound_of_mem_refs hargs (List.mem_of_mem_take hc)

section Taken

variable {s : Slice} {n : Nat}

theorem Slice.le_remaining_of_ensure (h : s.ensure n = .ok ()) : n ≤ s.remaining := by
  unfold Slice.ensure at h
  split at h
  · exact nomatch h
  · next hn => exact Nat.le_of_not_lt hn

/-- A read takes no more bits than there are, if it succeeds only where so many are left. -/
theorem Object.Sound.taking {α : Type} {look : Slice → Except Stop α} (hs : Object.Sound (.slice s))
    (hlook : ∀ a, look s = .ok a → n ≤ s.remaining) :
    Object.Sound (.slice (after (Slice.taking n look s))) := by
  obtain ⟨hcell, hposition⟩ := hs
  unfold Slice.taking
  cases hfound : look s with
  | ok a =>
    have hn := hlook a hfound
    rw [Slice.remaining] at hn
    have htaken : s.position + n ≤ s.cell.length := by omega
    exact ⟨hcell, htaken⟩
  | error e => exact ⟨hcell, hposition⟩

end Taken

/-- What is made has the bytes of a bit string, and no more bits are taken than there are. -/
theorem Made.sound {o : Object} (h : Made o) : o.Sound := by
  -- induction on how it is made
  induction h with
  | empty =>
    have hnone : ∀ c ∈ ([] : List Packed), Sound c := fun c hc => nomatch hc
    show Sound (ofBits [] [])
    exact .intro (Nat.zero_le _) (Nat.zero_le _) hnone
  | store op hb hargs ihb ihargs => exact Packed.Sound.store ihb ihargs
  | finish hb ih => exact ih
  | ofCell hc ih => exact ⟨ih, Nat.zero_le _⟩
  | loadUint width hs ih =>
    apply ih.taking
    intro v hv
    obtain ⟨_, hensure, -⟩ := Fallible.bind_eq_ok_iff.mp hv
    exact Slice.le_remaining_of_ensure hensure
  | loadInt width hs ih =>
    apply ih.taking
    intro v hv
    -- nothing is checked, and nothing taken, for a number of no bits
    by_cases hwidth : width = 0
    · rw [hwidth]
      exact Nat.zero_le _
    · rw [Slice.preloadInt, if_neg hwidth] at hv
      obtain ⟨_, hensure, -⟩ := Fallible.bind_eq_ok_iff.mp hv
      exact Slice.le_remaining_of_ensure hensure
  | loadBit hs ih =>
    apply ih.taking
    intro v hv
    obtain ⟨_, hensure, -⟩ := Fallible.bind_eq_ok_iff.mp hv
    exact Slice.le_remaining_of_ensure hensure
  | skipBits n hs ih => exact ih.taking fun _ => Slice.le_remaining_of_ensure
  | @toCell s c hs hc ih =>
    obtain ⟨hcell, hposition⟩ := ih
    obtain ⟨bits, refs, heq, hbits, hcount, hrefs⟩ := hcell.exists_eq
    obtain ⟨whole, position⟩ := s
    obtain rfl : whole = ofBits bits refs := heq
    rw [Slice.toCell_ofBits] at hc
    obtain rfl := Except.ok.inj hc
    exact .drop position hbits hcount hrefs

end Packed
end MessageRouter

import MessageRouter.Proofs.Packed.Refinement
/-!
# `Proofs.Packed.Integers` — integers of any width in packed bytes

* `Bits.IsSigned`: the integers that two's complement of a width can hold.
* `Store.exists_run_eq_ok_iff`: a store succeeds exactly if its number fits its width and there is room.
* `Builder.Later`: what more stores make of a builder; `Builder.Later.bits_prefix`: they keep its bits in front.
* `Slice.ReadsExactly`: where a look at a number and the read of it end.
* `Made.integers_exact`: whatever is made from the empty builder stores and reads integers exactly, and reads back
  those that it stored.
-/
namespace MessageRouter

/-! ## Two's complement -/

namespace Bits

/-- The integers that two's complement of a width can hold; no bits hold zero alone. -/
def IsSigned (i : Int) : (width : Nat) → Prop
  | 0 => i = 0
  | width + 1 => -2 ^ width ≤ i ∧ i < 2 ^ width

theorem fitsSigned_iff_isSigned {i : Int} {width : Nat} :
    Builder.fitsSigned i width = true ↔ IsSigned i width := by
  cases width with
  | zero => exact decide_eq_true_iff
  | succ width => exact fitsSigned_succ_iff

end Bits

namespace Packed

/-! ## Stores -/

section Stores

variable {b b' b'' : Builder} {op : Store}

theorem Builder.length_bits (b : Builder) : b.bits.length = b.length := length_unpack _ _

/-- A store that succeeds adds its bits behind the others. -/
theorem Store.bits_of_run (hb : Made (.builder b)) (hargs : ∀ o ∈ op.args, Made o)
    (h : op.run b = .ok () b') : b'.bits = b.bits ++ op.bits := by
  have hleads := hb.builder_refines.leads op hargs
  rw [h] at hleads
  cases hleads with
  | stored _ hbits => exact hbits

theorem Store.made_of_run (hb : Made (.builder b)) (hargs : ∀ o ∈ op.args, Made o)
    (h : op.run b = .ok () b') : Made (.builder b') := by
  have hmade := Made.store op hb hargs
  rwa [h] at hmade

/-- A store succeeds exactly if its number fits its width, and the cell has room for its bits and references. -/
theorem Store.exists_run_eq_ok_iff (hb : Made (.builder b)) (hargs : ∀ o ∈ op.args, Made o) :
    (∃ b', op.run b = .ok () b') ↔
      op.rangeFault? = none ∧ b.length + op.bits.length ≤ Cell.maxBits ∧
        b.refs.length + op.refs.length ≤ Cell.maxRefs := by
  have hleads := hb.builder_refines.leads op hargs
  rw [← b.length_bits, ← List.length_append, ← List.length_append]
  generalize op.run b = result at hleads ⊢
  cases hleads with
  | @stored b' hrange hbits hrefs hfits hcount =>
    rw [hbits] at hfits
    rw [hrefs] at hcount
    exact iff_of_true ⟨b', rfl⟩ ⟨hrange, hfits, hcount⟩
  | outOfRange hrange =>
    refine iff_of_false nofun ?_
    rintro ⟨hnone, -⟩
    rw [hrange] at hnone
    cases hnone
  | tooManyBits hrange hover =>
    refine iff_of_false nofun ?_
    rintro ⟨-, hfits, -⟩
    omega
  | tooManyRefs hrange hbits hfits hover =>
    refine iff_of_false nofun ?_
    rintro ⟨-, -, hcount⟩
    omega

/-- Whatever a store adds is put behind the bits that are there. -/
theorem Store.bits_prefix_after (hb : Made (.builder b)) (hargs : ∀ o ∈ op.args, Made o) :
    b.bits <+: (after (op.run b)).bits := by
  have hleads := hb.builder_refines.leads op hargs
  generalize op.run b = result at hleads ⊢
  cases hleads with
  | stored hrange hbits => exact hbits ▸ List.prefix_append _ _
  | outOfRange hrange => exact List.prefix_refl _
  | tooManyBits hrange hover hbits =>
    have hroom : b.bits.length ≤ Cell.maxBits := b.length_bits ▸ hb.builder_refines.length_le
    rw [take_append_of_le hroom] at hbits
    exact hbits ▸ List.prefix_append _ _
  | tooManyRefs hrange hbits => exact hbits ▸ List.prefix_append _ _

/-- What some more stores make of a builder, of which any may fail. -/
inductive Builder.Later (b : Builder) : Builder → Prop
  | refl : Later b b
  | store {b' : Builder} (op : Store) (h : Later b b') (hargs : ∀ o ∈ op.args, Made o) :
      Later b (after (op.run b'))

theorem Builder.Later.made (h : b.Later b') (hb : Made (.builder b)) : Made (.builder b') := by
  induction h with
  | refl => exact hb
  | store op _ hargs ih => exact .store op ih hargs

/-- Stores keep the bits that are there in front. -/
theorem Builder.Later.bits_prefix (h : b.Later b') (hb : Made (.builder b)) : b.bits <+: b'.bits := by
  induction h with
  | refl => exact List.prefix_refl _
  | store op hlater hargs ih => exact ih.trans (Store.bits_prefix_after (hlater.made hb) hargs)

end Stores

/-! ## Reads -/

section SameLook

variable {α β : Type} {value : α → β} {x : Except Stop α}

theorem SameLook.exists_eq_ok {b : β} (h : SameLook value x (.ok b)) : ∃ a, x = .ok a ∧ value a = b := by
  cases h with
  | ok a => exact ⟨a, rfl, rfl⟩

theorem SameLook.eq_error {e : Cell.Fault} (h : SameLook value x (.error e)) : x = .error (.fault e) := by
  cases h with
  | error => rfl

end SameLook

namespace Slice

section Taking

variable {α : Type} {n : Nat} {look : Slice → Except Stop α} {s : Slice}

theorem taking_of_ok {a : α} (h : look s = .ok a) :
    taking n look s = .ok a { s with position := s.position + n } := by
  rw [taking, h]

theorem taking_of_error {e : Stop} (h : look s = .error e) : taking n look s = .error e s := by
  rw [taking, h]

end Taking

/-- A look at the first `n` bits and the read of them find the integer that they spell; both fail with exit code 9 if
fewer bits are left, and with exit code 4 if the integer is out of range. A read that fails takes nothing. -/
structure ReadsExactly {α : Type} (value : α → Int) (InRange : Int → Prop) (s : Slice) (n : Nat)
    (spelled : Int) (look : Except Stop α) (read : EStateM.Result Stop Slice α) : Prop where
  short : s.remaining < n → ∃ e : Cell.Fault, e.code = 9 ∧ look = .error (.fault e) ∧
    read = .error (.fault e) s
  large : n ≤ s.remaining → ¬InRange spelled → ∃ e : Cell.Fault, e.code = 4 ∧ look = .error (.fault e) ∧
    read = .error (.fault e) s
  found : n ≤ s.remaining → InRange spelled → ∃ a, value a = spelled ∧ look = .ok a ∧
    read = .ok a { s with position := s.position + n }

variable {s : Slice} {n : Nat}

/-- What is read exactly from the bits of a slice is read exactly from its bytes. -/
theorem readsExactly_of_same {α β : Type} {value : α → Int} {InRange : Int → Prop} {spelled : Int}
    {shown : α → β} {plain : Except Cell.Fault β} (look : Slice → Except Stop α)
    (hsame : SameLook shown (look s) plain)
    (hshort : s.remaining < n → ∃ e : Cell.Fault, e.code = 9 ∧ plain = .error e)
    (hlarge : n ≤ s.remaining → ¬InRange spelled → ∃ e : Cell.Fault, e.code = 4 ∧ plain = .error e)
    (hfound : n ≤ s.remaining → InRange spelled → ∃ b, plain = .ok b ∧ ∀ a, shown a = b → value a = spelled) :
    ReadsExactly value InRange s n spelled (look s) (taking n look s) where
  short := by
    intro hleft
    obtain ⟨e, hcode, rfl⟩ := hshort hleft
    exact ⟨e, hcode, hsame.eq_error, taking_of_error hsame.eq_error⟩
  large := by
    intro hleft hrange
    obtain ⟨e, hcode, rfl⟩ := hlarge hleft hrange
    exact ⟨e, hcode, hsame.eq_error, taking_of_error hsame.eq_error⟩
  found := by
    intro hleft hrange
    obtain ⟨b, rfl, hvalue⟩ := hfound hleft hrange
    obtain ⟨a, ha, hshown⟩ := hsame.exists_eq_ok
    exact ⟨a, hvalue a hshown, ha, taking_of_ok ha⟩

theorem front_plain (hs : Made (.slice s)) (h : n ≤ s.remaining) : s.plain.front n = .ok (s.bits.take n) := by
  rw [hs.slice_refines.remaining_eq] at h
  exact if_pos h

theorem front_plain_short (hs : Made (.slice s)) (h : s.remaining < n) :
    ∃ left, s.plain.front n = .error (.underflow n left) := by
  rw [hs.slice_refines.remaining_eq] at h
  exact ⟨_, if_neg (Nat.not_le_of_lt h)⟩

/-- Of the first bits, an unsigned number is found. -/
theorem readsExactly_uint (hs : Made (.slice s)) (n : Nat) :
    ReadsExactly (fun v : BitVec 128 => v.toNat) (· < 2 ^ 128) s n (Bits.toNat (s.bits.take n))
      (s.preloadUint n) (loadUint n s) := by
  refine readsExactly_of_same (preloadUint · n) (hs.slice_refines.preloadUint n) ?_ ?_ ?_
  · intro hshort
    obtain ⟨left, hfront⟩ := front_plain_short hs hshort
    exact ⟨_, rfl, by rw [MessageRouter.Slice.preloadUint, hfront]; rfl⟩
  · intro hleft hlarge
    have hnot : ¬Bits.toNat (s.bits.take n) < 2 ^ 128 := by exact_mod_cast hlarge
    refine ⟨.unsignedTooWide n, rfl, ?_⟩
    rw [MessageRouter.Slice.preloadUint, front_plain hs hleft]
    exact if_neg hnot
  · intro hleft hsmall
    have hlt : Bits.toNat (s.bits.take n) < 2 ^ 128 := by exact_mod_cast hsmall
    refine ⟨Bits.toNat (s.bits.take n), ?_, fun _ => congrArg Nat.cast⟩
    rw [MessageRouter.Slice.preloadUint, front_plain hs hleft]
    exact if_pos hlt

/-- Of the first bits, a number in two's complement is found. -/
theorem readsExactly_int (hs : Made (.slice s)) (n : Nat) :
    ReadsExactly Int128.toInt Int128.InRange s n (Bits.toInt (s.bits.take n))
      (s.preloadInt n) (loadInt n s) := by
  refine readsExactly_of_same (preloadInt · n) (hs.slice_refines.preloadInt n) ?_ ?_ ?_
  · intro hshort
    obtain ⟨left, hfront⟩ := front_plain_short hs hshort
    exact ⟨_, rfl, by rw [MessageRouter.Slice.preloadInt, hfront]; rfl⟩
  · intro hleft hlarge
    exact ⟨_, rfl, by rw [preloadInt_of_front (front_plain hs hleft), if_neg hlarge]⟩
  · intro hleft hrange
    refine ⟨_, by rw [preloadInt_of_front (front_plain hs hleft), if_pos hrange], ?_⟩
    intro i hi
    rw [show i = _ from hi]
    exact Int128.toInt_ofInt hrange

end Slice

/-! ## Integers that are read back -/

section Back

variable {b b' b'' : Builder} {stored : List Bool}

/-- So many bits of a cell can be skipped. -/
theorem skipBits_ofCell {c : Packed} {n : Nat} (h : n ≤ c.length) :
    Slice.skipBits n (.ofCell c) = .ok () ⟨c, n⟩ := by
  have hensure : Slice.ensure (.ofCell c) n = .ok () := if_neg (Nat.not_lt_of_le h)
  rw [Slice.skipBits, Slice.taking_of_ok hensure, Slice.ofCell, Nat.zero_add]

theorem Made.slice_at {c : Packed} (hc : Made (.cell c)) {n : Nat} (h : n ≤ c.length) :
    Made (.slice ⟨c, n⟩) := by
  have hskipped := Made.skipBits n (.ofCell hc)
  rwa [skipBits_ofCell h] at hskipped

/-- Behind the bits before a store are the bits that it stored, whatever is stored after it. -/
theorem exists_stored (hb' : Made (.builder b')) (hbits : b'.bits = b.bits ++ stored)
    (hlater : b'.Later b'') :
    b.length ≤ b''.cell.length ∧ stored.length ≤ Slice.remaining ⟨b''.cell, b.length⟩ ∧
      (Slice.bits ⟨b''.cell, b.length⟩).take stored.length = stored := by
  obtain ⟨rest, hrest⟩ := hlater.bits_prefix hb'
  rw [hbits] at hrest
  have hlength := congrArg List.length hrest
  rw [List.length_append, List.length_append, b.length_bits, b''.length_bits] at hlength
  refine ⟨?_, ?_, ?_⟩
  · show b.length ≤ b''.length
    omega
  · show stored.length ≤ b''.length - b.length
    omega
  · show (b''.bits.drop b.length).take stored.length = stored
    rw [← hrest, List.append_assoc, ← b.length_bits, List.drop_left, List.take_left]

end Back

section Exact

variable {b b' b'' : Builder} {n : Nat}

/-- A number needs nothing besides the builder. -/
theorem Store.made_args_uint (v : BitVec 128) (n : Nat) : ∀ o ∈ (Store.uint v n).args, Made o := nofun

theorem Store.made_args_int (i : Int128) (n : Nat) : ∀ o ∈ (Store.int i n).args, Made o := nofun

theorem exists_storeUint_iff (hb : Made (.builder b)) {v : BitVec 128} :
    (∃ b', Builder.storeUint v n b = .ok () b') ↔ v.toNat < 2 ^ n ∧ b.length + n ≤ Cell.maxBits := by
  have hcount := hb.builder_refines.count_le
  have hrange : (Store.uint v n).rangeFault? = none ↔ v.toNat < 2 ^ n := by
    by_cases hfits : v.toNat < 2 ^ n <;> simp [Store.rangeFault?, hfits]
  refine (Store.exists_run_eq_ok_iff hb (Store.made_args_uint v n)).trans ?_
  simp only [hrange, Store.bits, Store.refs, Bits.length_ofNat, List.length_nil, Nat.add_zero, hcount,
    and_true]

theorem exists_storeInt_iff (hb : Made (.builder b)) {i : Int128} :
    (∃ b', Builder.storeInt i n b = .ok () b') ↔ Bits.IsSigned i.toInt n ∧ b.length + n ≤ Cell.maxBits := by
  have hcount := hb.builder_refines.count_le
  have hrange : (Store.int i n).rangeFault? = none ↔ Bits.IsSigned i.toInt n := by
    rw [← Bits.fitsSigned_iff_isSigned, Bits.fitsSigned_iff]
    by_cases hfits : -2 ^ n ≤ 2 * i.toInt ∧ 2 * i.toInt < 2 ^ n <;> simp [Store.rangeFault?, hfits]
  refine (Store.exists_run_eq_ok_iff hb (Store.made_args_int i n)).trans ?_
  simp only [hrange, Store.bits, Store.refs, Bits.length_ofInt, List.length_nil, Nat.add_zero, hcount,
    and_true]

/-- An unsigned number that was stored is read back. -/
theorem loadUint_stored (hb : Made (.builder b)) {v : BitVec 128} (h : Builder.storeUint v n b = .ok () b')
    (hlater : b'.Later b'') :
    Slice.skipBits b.length (.ofCell b''.cell) = .ok () ⟨b''.cell, b.length⟩ ∧
      Slice.loadUint n ⟨b''.cell, b.length⟩ = .ok v ⟨b''.cell, b.length + n⟩ := by
  have hfits : v.toNat < 2 ^ n := ((exists_storeUint_iff hb).mp ⟨b', h⟩).1
  have hb' : Made (.builder b') := Store.made_of_run hb (Store.made_args_uint v n) h
  have hbits : b'.bits = b.bits ++ Bits.ofNat n v.toNat := Store.bits_of_run hb (Store.made_args_uint v n) h
  obtain ⟨hlength, hleft, hfirst⟩ := exists_stored hb' hbits hlater
  have hslice : Made (.slice ⟨b''.cell, b.length⟩) := .slice_at (.finish (hlater.made hb')) hlength
  rw [Bits.length_ofNat] at hleft hfirst
  have hexact := Slice.readsExactly_uint hslice n
  rw [hfirst, Bits.toNat_ofNat, Nat.mod_eq_of_lt hfits] at hexact
  have hsmall : (v.toNat : Int) < 2 ^ 128 := by exact_mod_cast v.isLt
  obtain ⟨v', hvalue, -, hread⟩ := hexact.found hleft hsmall
  obtain rfl : v' = v := BitVec.eq_of_toNat_eq (by exact_mod_cast hvalue)
  exact ⟨skipBits_ofCell hlength, hread⟩

/-- A signed number that was stored is read back. -/
theorem loadInt_stored (hb : Made (.builder b)) {i : Int128} (h : Builder.storeInt i n b = .ok () b')
    (hlater : b'.Later b'') :
    Slice.skipBits b.length (.ofCell b''.cell) = .ok () ⟨b''.cell, b.length⟩ ∧
      Slice.loadInt n ⟨b''.cell, b.length⟩ = .ok i ⟨b''.cell, b.length + n⟩ := by
  have hfits : Bits.IsSigned i.toInt n := ((exists_storeInt_iff hb).mp ⟨b', h⟩).1
  have hb' : Made (.builder b') := Store.made_of_run hb (Store.made_args_int i n) h
  have hbits : b'.bits = b.bits ++ Bits.ofInt n i.toInt := Store.bits_of_run hb (Store.made_args_int i n) h
  obtain ⟨hlength, hleft, hfirst⟩ := exists_stored hb' hbits hlater
  have hslice : Made (.slice ⟨b''.cell, b.length⟩) := .slice_at (.finish (hlater.made hb')) hlength
  rw [Bits.length_ofInt] at hleft hfirst
  have hexact := Slice.readsExactly_int hslice n
  rw [hfirst, Bits.toInt_ofInt (Bits.fitsSigned_iff_isSigned.mpr hfits)] at hexact
  obtain ⟨⟨bits⟩, hvalue, -, hread⟩ := hexact.found hleft i.inRange_toInt
  obtain rfl : i = ⟨bits⟩ := congrArg Int128.mk (BitVec.eq_of_toInt_eq hvalue.symm)
  exact ⟨skipBits_ofCell hlength, hread⟩

end Exact

/-- A builder stores exactly the integers that fit their width, as long as there is room, and they are read back
whatever is stored after them. -/
structure Builder.StoresIntegers (b : Builder) : Prop where
  storeUint : ∀ (v : BitVec 128) (n : Nat),
    (∃ b', Builder.storeUint v n b = .ok () b') ↔ v.toNat < 2 ^ n ∧ b.length + n ≤ Cell.maxBits
  storeInt : ∀ (i : Int128) (n : Nat),
    (∃ b', Builder.storeInt i n b = .ok () b') ↔ Bits.IsSigned i.toInt n ∧ b.length + n ≤ Cell.maxBits
  loadUint : ∀ (v : BitVec 128) (n : Nat) (b' b'' : Builder), Builder.storeUint v n b = .ok () b' →
    b'.Later b'' → Slice.skipBits b.length (.ofCell b''.cell) = .ok () ⟨b''.cell, b.length⟩ ∧
      Slice.loadUint n ⟨b''.cell, b.length⟩ = .ok v ⟨b''.cell, b.length + n⟩
  loadInt : ∀ (i : Int128) (n : Nat) (b' b'' : Builder), Builder.storeInt i n b = .ok () b' →
    b'.Later b'' → Slice.skipBits b.length (.ofCell b''.cell) = .ok () ⟨b''.cell, b.length⟩ ∧
      Slice.loadInt n ⟨b''.cell, b.length⟩ = .ok i ⟨b''.cell, b.length + n⟩

/-- A slice reads the integers that its first bits spell, unsigned ones of 128 bits and signed ones of as many. -/
structure Slice.ReadsIntegers (s : Slice) : Prop where
  uint : ∀ n, ReadsExactly (fun v : BitVec 128 => v.toNat) (· < 2 ^ 128) s n (Bits.toNat (s.bits.take n))
    (s.preloadUint n) (loadUint n s)
  int : ∀ n, ReadsExactly Int128.toInt Int128.InRange s n (Bits.toInt (s.bits.take n))
    (s.preloadInt n) (loadInt n s)

/-- Whatever is made from the empty builder by stores and reads, of which any may fail, stores and reads integers of
any width exactly, and reads back those that were stored. -/
theorem Made.integers_exact :
    (∀ b, Made (.builder b) → b.StoresIntegers) ∧ ∀ s, Made (.slice s) → s.ReadsIntegers := by
  constructor
  · intro b hb
    exact {
      storeUint := fun _ _ => exists_storeUint_iff hb
      storeInt := fun _ _ => exists_storeInt_iff hb
      loadUint := fun _ _ _ _ h hlater => loadUint_stored hb h hlater
      loadInt := fun _ _ _ _ h hlater => loadInt_stored hb h hlater }
  · intro s hs
    exact { uint := Slice.readsExactly_uint hs, int := Slice.readsExactly_int hs }

/-- The integer `-1` is stored in 256 bits and read back, whatever bit comes behind it. Its bits spell no unsigned
number of 128 bits, and there is no other bit before that. -/
theorem Made.integers_exact_wide :
    ∃ b, Builder.storeInt ⟨-1⟩ 256 .empty = .ok () b ∧
      (∀ bit, Slice.loadInt 256 ⟨(after (Builder.storeBit bit b)).cell, 0⟩ =
        .ok ⟨-1⟩ ⟨(after (Builder.storeBit bit b)).cell, 256⟩) ∧
      (∃ e : Cell.Fault, e.code = 4 ∧ Slice.loadUint 256 ⟨b.cell, 0⟩ = .error (.fault e) ⟨b.cell, 0⟩) ∧
      ∃ e : Cell.Fault, e.code = 9 ∧ Slice.loadUint 257 ⟨b.cell, 0⟩ = .error (.fault e) ⟨b.cell, 0⟩ := by
  have hempty := Made.integers_exact.1 .empty .empty
  have hsigned : Bits.IsSigned (-1) 256 := by
    show -2 ^ 255 ≤ (-1 : Int) ∧ (-1 : Int) < 2 ^ 255
    decide
  obtain ⟨b, hb⟩ : ∃ b, Builder.storeInt ⟨-1⟩ 256 .empty = .ok () b :=
    (hempty.storeInt ⟨-1⟩ 256).mpr ⟨hsigned, by decide⟩
  have hmade : Made (.builder b) := Store.made_of_run .empty (Store.made_args_int ⟨-1⟩ 256) hb
  have hbits : b.bits = Bits.ofInt 256 (-1) := Store.bits_of_run .empty (Store.made_args_int ⟨-1⟩ 256) hb
  have hlength : b.length = 256 := by rw [← b.length_bits, hbits, Bits.length_ofInt]
  have hslice := Made.integers_exact.2 ⟨b.cell, 0⟩ (.ofCell (.finish hmade))
  have hremaining : Slice.remaining ⟨b.cell, 0⟩ = 256 := hlength
  refine ⟨b, hb, ?_, ?_, ?_⟩
  · intro bit
    have hlater : b.Later (after ((Store.bit bit).run b)) := .store (.bit bit) .refl nofun
    exact (hempty.loadInt ⟨-1⟩ 256 b _ hb hlater).2
  · have hspelled : Bits.toNat ((Slice.bits ⟨b.cell, 0⟩).take 256) = 2 ^ 256 - 1 := by
      show Bits.toNat (b.bits.take 256) = _
      rw [hbits, List.take_of_length_le (by rw [Bits.length_ofInt]), Bits.ofInt, Bits.toNat_ofNat]
      rfl
    obtain ⟨e, hcode, -, hread⟩ := (hslice.uint 256).large (by omega) (by rw [hspelled]; decide)
    exact ⟨e, hcode, hread⟩
  · obtain ⟨e, hcode, -, hread⟩ := (hslice.uint 257).short (by omega)
    exact ⟨e, hcode, hread⟩

end Packed
end MessageRouter

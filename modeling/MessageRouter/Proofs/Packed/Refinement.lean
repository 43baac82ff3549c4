import MessageRouter.Proofs.Packed.Operations
/-!
# `Proofs.Packed.Refinement` — packed cells behave like bit strings

* `IsPacked`: bytes that are as few as can hold so many bits, with zeros behind them.
* `Leads`: where a store may end.
* `Builder.Refines`, `Packed.Refines`, `Slice.Refines`: what packed bytes have in common with bit strings.
* `Made.refines_bit_strings`: whatever is made from the empty builder has it.
* `Made.representation_eq_representation_iff`: the bytes that are hashed tell everything but the references themselves.
-/
namespace MessageRouter
namespace Packed

/-! ## Bytes -/

/-- Bytes are as few as can hold so many bits, with zeros behind them. -/
structure IsPacked (bytes : Array UInt8) (length : Nat) : Prop where
  size_eq : bytes.size = (length + 7) / 8
  padding : ∀ i, length ≤ i → bitOrZero bytes i = false

theorem isPacked_pack (bits : List Bool) : IsPacked (pack bits) bits.length where
  size_eq := size_pack bits
  padding i hi := by rw [bitOrZero_pack, List.getElem?_eq_none hi, Option.getD_none]

/-! ## Equality -/

mutual

theorem beq_iff_same : (c d : Packed) → (beq c d = true ↔ c = d)
  | mk bytes length refs, mk bytes' length' refs' => by
    rw [beq, Bool.and_eq_true, Bool.and_eq_true, beqAll_iff_same refs refs']
    simp [and_assoc]

theorem beqAll_iff_same : (cs ds : List Packed) → (beqAll cs ds = true ↔ cs = ds)
  | [], [] => by simp [beqAll]
  | [], d :: ds => by simp [beqAll]
  | c :: cs, [] => by simp [beqAll]
  | c :: cs, d :: ds => by
    rw [beqAll, Bool.and_eq_true, beq_iff_same c d, beqAll_iff_same cs ds, List.cons.injEq]

end

instance : LawfulBEq Packed where
  eq_of_beq {c d} h := (beq_iff_same c d).mp h
  rfl {c} := (beq_iff_same c c).mpr rfl

/-- Cells whose bytes are those of bit strings are told by these. -/
theorem eq_of_map_plain_eq {cs ds : List Packed} (hcs : ∀ c ∈ cs, ∀ d, Sound d → c.plain = d.plain → c = d)
    (hds : ∀ d ∈ ds, Sound d) (h : cs.map plain = ds.map plain) : cs = ds := by
  induction cs generalizing ds with
  | nil => exact (List.map_eq_nil_iff.mp h.symm).symm
  | cons c cs ih =>
    cases ds with
    | nil => cases h
    | cons d ds =>
      rw [List.forall_mem_cons] at hcs hds
      obtain ⟨hfirst, hrest⟩ := List.cons.inj h
      rw [hcs.1 d hds.1 hfirst, ih hcs.2 hds.2 hrest]

theorem Sound.eq_of_plain_eq {c d : Packed} (hc : Sound c) (hd : Sound d) (h : c.plain = d.plain) :
    c = d := by
  induction hc generalizing d with
  | @intro bits refs hbits hcount hrefs ih =>
    obtain ⟨bits', refs', rfl, -, -, hrefs'⟩ := hd.exists_eq
    have hb := congrArg Cell.bits h
    have hr := congrArg Cell.refs h
    rw [bits_plain, bits_plain, bits_ofBits, bits_ofBits] at hb
    rw [refs_plain, refs_plain, refs_ofBits, refs_ofBits] at hr
    rw [hb, eq_of_map_plain_eq (fun c hc d hd => ih c hc hd) hrefs' hr]

/-- Cells of the same bits and references are the same, and have the same bit strings. -/
theorem Sound.eq_iff {c d : Packed} (hc : Sound c) (hd : Sound d) :
    (c = d ↔ c.bits = d.bits ∧ c.refs = d.refs) ∧ (c = d ↔ c.plain = d.plain) := by
  refine ⟨⟨fun h => h ▸ ⟨rfl, rfl⟩, ?_⟩, ⟨fun h => h ▸ rfl, hc.eq_of_plain_eq hd⟩⟩
  rintro ⟨hbits, hrefs⟩
  apply hc.eq_of_plain_eq hd
  apply Cell.ext
  · rw [bits_plain, bits_plain, hbits]
  · rw [refs_plain, refs_plain, hrefs]

/-! ## Stores -/

/-- Where a store into a builder ends: with everything stored; with nothing, if a number does not fit its width; or
with the longest beginning that fits of the bits, and then of the references. -/
inductive Leads (op : Store) (b : Builder) : EStateM.Result Stop Builder Unit → Prop
  | stored {b' : Builder} (hrange : op.rangeFault? = none) (hbits : b'.bits = b.bits ++ op.bits)
      (hrefs : b'.refs = b.refs ++ op.refs) (hfits : b'.bits.length ≤ Cell.maxBits)
      (hcount : b'.refs.length ≤ Cell.maxRefs) : Leads op b (.ok () b')
  | outOfRange {e : Cell.Fault} (hrange : op.rangeFault? = some e) : Leads op b (.error (.fault e) b)
  | tooManyBits {b' : Builder} (hrange : op.rangeFault? = none)
      (hover : Cell.maxBits < (b.bits ++ op.bits).length)
      (hbits : b'.bits = (b.bits ++ op.bits).take Cell.maxBits) (hrefs : b'.refs = b.refs) :
      Leads op b (.error (.fault .tooManyBits) b')
  | tooManyRefs {b' : Builder} (hrange : op.rangeFault? = none)
      (hbits : b'.bits = b.bits ++ op.bits) (hfits : b'.bits.length ≤ Cell.maxBits)
      (hover : Cell.maxRefs < (b.refs ++ op.refs).length)
      (hrefs : b'.refs = (b.refs ++ op.refs).take Cell.maxRefs) :
      Leads op b (.error (.fault .tooManyRefs) b')

section Stores

variable {bits : List Bool} {refs : List Packed}

/-- A limit above some elements cuts only what is put behind them. -/
theorem take_append_of_le {α : Type} {xs ys : List α} {limit : Nat} (h : xs.length ≤ limit) :
    (xs ++ ys).take limit = xs ++ ys.take (limit - xs.length) := by
  rw [List.take_append, List.take_of_length_le h]

theorem Store.leads_ofBits {op : Store} (hargs : ∀ o ∈ op.args, o.Sound)
    (hbits : bits.length ≤ Cell.maxBits) (hcount : refs.length ≤ Cell.maxRefs) :
    Leads op (Builder.ofBits bits refs) (op.run (Builder.ofBits bits refs)) := by
  rw [Store.run_ofBits hargs hbits hcount]
  unfold outcome
  cases hrange : op.rangeFault? with
  | some e => exact .outOfRange hrange
  | none =>
    by_cases hfits : bits.length + op.bits.length ≤ Cell.maxBits
    · simp only [if_pos hfits]
      by_cases hroom : refs.length + op.refs.length ≤ Cell.maxRefs
      · rw [if_pos hroom]
        apply Leads.stored hrange <;> simp [hfits, hroom]
      · rw [if_neg hroom]
        apply Leads.tooManyRefs hrange
        · simp
        · simpa using hfits
        · simp only [Builder.refs_ofBits, List.length_append]
          omega
        · simp only [Builder.refs_ofBits, take_append_of_le hcount]
    · simp only [if_neg hfits]
      apply Leads.tooManyBits hrange
      · simp only [Builder.bits_ofBits, List.length_append]
        omega
      · simp only [Builder.bits_ofBits, take_append_of_le hbits]
      · rfl

/-- Stores of packed bytes and of bit strings end the same. -/
theorem outcome_same (range? : Option Cell.Fault) (bits more : List Bool) (refs moreRefs : List Packed) :
    Same Builder.plain id (outcome .fault Builder.ofBits range? bits more refs moreRefs)
      (outcome id MessageRouter.Builder.mk range? bits more (refs.map plain) (moreRefs.map plain)) := by
  have hok (xs : List Bool) (rs : List Packed) : Same Builder.plain id (.ok () (Builder.ofBits xs rs))
      (.ok () ⟨xs, rs.map plain⟩) := by
    rw [← Builder.plain_ofBits]
    exact .ok () _
  have herror (e : Cell.Fault) (xs : List Bool) (rs : List Packed) :
      Same Builder.plain (id : Unit → Unit) (.error (.fault e) (Builder.ofBits xs rs))
        (.error e ⟨xs, rs.map plain⟩) := by
    rw [← Builder.plain_ofBits]
    exact .error e _
  unfold outcome
  cases range? with
  | some e => exact herror e bits refs
  | none =>
    simp only [List.length_map, ← List.map_append, ← List.map_take]
    by_cases hfits : bits.length + more.length ≤ Cell.maxBits
    · rw [if_pos hfits, if_pos hfits]
      by_cases hcount : refs.length + moreRefs.length ≤ Cell.maxRefs
      · rw [if_pos hcount, if_pos hcount]
        exact hok _ _
      · rw [if_neg hcount, if_neg hcount]
        exact herror _ _ _
    · rw [if_neg hfits, if_neg hfits]
      exact herror _ _ _

theorem Store.same_ofBits {op : Store} (hargs : ∀ o ∈ op.args, o.Sound)
    (hbits : bits.length ≤ Cell.maxBits) (hcount : refs.length ≤ Cell.maxRefs) :
    Same Builder.plain id (op.run (Builder.ofBits bits refs))
      (op.plainRun (Builder.ofBits bits refs).plain) := by
  rw [Store.run_ofBits hargs hbits hcount, Builder.plain_ofBits,
    Store.plainRun_mk op hbits (by rwa [List.length_map])]
  exact outcome_same _ _ _ _ _

end Stores

/-! ## Refinement -/

/-- A builder keeps bits as bit strings do, and every store ends where it ends for bit strings. -/
structure Builder.Refines (b : Builder) : Prop where
  packed : IsPacked b.bytes b.length
  length_le : b.length ≤ Cell.maxBits
  count_le : b.refs.length ≤ Cell.maxRefs
  leads : ∀ op : Store, (∀ o ∈ op.args, Made o) → Leads op b (op.run b)
  same : ∀ op : Store, (∀ o ∈ op.args, Made o) → Same plain id (op.run b) (op.plainRun b.plain)

/-- A cell keeps bits as bit strings do, and is told from others by these. -/
structure Refines (c : Packed) : Prop where
  packed : IsPacked c.bytes c.length
  length_le : c.length ≤ Cell.maxBits
  count_le : c.refs.length ≤ Cell.maxRefs
  beq_iff : ∀ d, Made (.cell d) → ((c == d) = true ↔ c.bits = d.bits ∧ c.refs = d.refs)
  beq_iff_plain : ∀ d, Made (.cell d) → ((c == d) = true ↔ c.plain = d.plain)
  depth : c.depth = c.plain.depth
  representation : c.representation = .ok c.plain.representation
  hash : c.hash = .ok c.plain.hash

/-- A slice finds what reads of its bit string find, and what is left of it is the cell of the bits that are left. -/
structure Slice.Refines (s : Slice) : Prop where
  position_le : s.position ≤ s.cell.length
  remaining_eq : s.remaining = s.bits.length
  shows : ∀ i (h : i < s.bits.length), s.bit i = .ok s.bits[i]
  preloadUint : ∀ width, SameLook BitVec.toNat (s.preloadUint width) (s.plain.preloadUint width)
  preloadInt : ∀ width, SameLook id (s.preloadInt width) (s.plain.preloadInt width)
  loadUint : ∀ width,
    Same plain BitVec.toNat (Slice.loadUint width s) (MessageRouter.Slice.loadUint width s.plain)
  loadInt : ∀ width, Same plain id (Slice.loadInt width s) (MessageRouter.Slice.loadInt width s.plain)
  loadBit : Same plain id (Slice.loadBit s) (MessageRouter.Slice.loadBit s.plain)
  skipBits : ∀ n, Same plain id (Slice.skipBits n s) (MessageRouter.Slice.skipBits n s.plain)
  toCell : ∃ c b, s.toCell = .ok c ∧ c.bits = s.bits ∧ c.refs = s.cell.refs ∧
    Builder.storeSlice s .empty = .ok () b ∧ b.cell = c
  data : s.data = .ok (Bits.toBytes s.bits)
  hash : ∀ d, Made (.cell d) → d.bits = s.bits → d.refs = s.cell.refs →
    ∃ bytes, s.hash = .ok bytes ∧ d.hash = .ok bytes ∧ bytes = s.plain.toCell.hash

def Object.Refines : Object → Prop
  | .builder b => b.Refines
  | .cell c => c.Refines
  | .slice s => s.Refines

theorem Made.builder_refines {b : Builder} (h : Made (.builder b)) : b.Refines := by
  obtain ⟨bits, refs, rfl, hbits, hcount, -⟩ := Packed.Sound.exists_builder_eq h.sound
  exact {
    packed := isPacked_pack bits
    length_le := hbits
    count_le := hcount
    leads := fun op hargs => Store.leads_ofBits (fun o ho => (hargs o ho).sound) hbits hcount
    same := fun op hargs => Store.same_ofBits (fun o ho => (hargs o ho).sound) hbits hcount }

theorem Made.cell_refines {c : Packed} (h : Made (.cell c)) : c.Refines := by
  have hc : Packed.Sound c := h.sound
  obtain ⟨bits, refs, rfl, hbits, hcount, -⟩ := hc.exists_eq
  exact {
    packed := isPacked_pack bits
    length_le := hbits
    count_le := hcount
    beq_iff := fun d hd => (beq_iff_same _ d).trans (hc.eq_iff hd.sound).1
    beq_iff_plain := fun d hd => (beq_iff_same _ d).trans (hc.eq_iff hd.sound).2
    depth := (depth_plain _).symm
    representation := hc.representation_eq
    hash := hc.hash_eq }

/-- What is left of a slice is stored into an empty builder. -/
theorem Slice.storeSlice_empty {bits : List Bool} {refs : List Packed} (position : Nat)
    (hbits : bits.length ≤ Cell.maxBits)
    (hcount : refs.length ≤ Cell.maxRefs) :
    Builder.storeSlice ⟨ofBits bits refs, position⟩ .empty =
      .ok () (Builder.ofBits (bits.drop position) refs) := by
  have hlength : (bits.drop position).length ≤ Cell.maxBits := by
    rw [List.length_drop]
    omega
  have hnothing {α : Type} (n : Nat) : ([] : List α).length ≤ n := Nat.zero_le n
  have hstored := Builder.forM_storeBit (bits.drop position) [] (hnothing _)
  rw [List.length_nil, Nat.zero_add, if_pos hlength, List.nil_append] at hstored
  have hreferences := Builder.forM_storeRef refs (bits.drop position) (hnothing _)
  rw [List.length_nil, Nat.zero_add, if_pos hcount, List.nil_append] at hreferences
  rw [Builder.storeSlice_eq bits refs position, Builder.empty_eq_ofBits,
    Fallible.stateful_bind_of_ok _ hstored, hreferences]

theorem Made.slice_refines {s : Slice} (h : Made (.slice s)) : s.Refines := by
  obtain ⟨hcell, hposition⟩ := h.sound
  obtain ⟨bits, refs, heq, hbits, hcount, hrefs⟩ := hcell.exists_eq
  obtain ⟨whole, position⟩ := s
  obtain rfl : whole = ofBits bits refs := heq
  have hleft : Slice.bits ⟨ofBits bits refs, position⟩ = bits.drop position := by
    rw [Slice.bits, bits_ofBits]
  have hcellOfRest := Slice.toCell_ofBits bits refs position
  have hrest : Packed.Sound (ofBits (bits.drop position) refs) := .drop position hbits hcount hrefs
  exact {
    position_le := hposition
    remaining_eq := by
      rw [hleft, List.length_drop]
      rfl
    shows := by
      intro i hi
      simp only [hleft, List.length_drop] at hi
      have hlt : position + i < bits.length := by omega
      simp only [hleft, List.getElem_drop]
      exact bitAt_pack hlt
    preloadUint := Slice.preloadUint_same bits refs position
    preloadInt := Slice.preloadInt_same bits refs position
    loadUint := Slice.loadUint_same bits refs position
    loadInt := Slice.loadInt_same bits refs position
    loadBit := Slice.loadBit_same bits refs position
    skipBits := Slice.skipBits_same bits refs position
    toCell := by
      refine ⟨_, _, hcellOfRest, ?_, rfl, Slice.storeSlice_empty position hbits hcount, rfl⟩
      rw [hleft, bits_ofBits]
    data := by
      rw [Slice.data, hcellOfRest, hleft]
      rfl
    hash := by
      intro d hd hdbits hdrefs
      -- what is made of the same bits and references is the same cell
      obtain rfl : d = ofBits (bits.drop position) refs := by
        apply (Sound.eq_iff hd.sound hrest).1.mpr
        rw [hdbits, hdrefs, hleft, bits_ofBits, refs_ofBits, refs_ofBits]
        exact ⟨rfl, rfl⟩
      refine ⟨_, ?_, hrest.hash_eq, by rw [Slice.toCell_plain]⟩
      rw [Slice.hash, hcellOfRest]
      exact hrest.hash_eq }

/-- Whatever is made from the empty builder by stores and reads, of which any may fail, refines bit strings. -/
theorem Made.refines_bit_strings {o : Object} (h : Made o) : o.Refines := by
  cases o with
  | builder b => exact h.builder_refines
  | cell c => exact h.cell_refines
  | slice s => exact h.slice_refines

/-- Four bits and a reference are stored, and one of the bits is skipped. -/
theorem Made.refines_bit_strings_skip :
    Made (.slice ⟨.mk #[0xb0] 4 [.empty], 1⟩) ∧ (Object.slice ⟨.mk #[0xb0] 4 [.empty], 1⟩).Refines := by
  have hempty : Made (.cell .empty) := .finish .empty
  have hnumber : Made (.builder ⟨#[0xb0], 4, []⟩) := .store (.uint 11 4) .empty fun o ho => nomatch ho
  have hreference : Made (.builder ⟨#[0xb0], 4, [.empty]⟩) :=
    .store (.ref .empty) hnumber fun o ho => List.mem_singleton.mp ho ▸ hempty
  have hslice : Made (.slice ⟨.mk #[0xb0] 4 [.empty], 1⟩) := .skipBits 1 (.ofCell (.finish hreference))
  exact ⟨hslice, Made.refines_bit_strings hslice⟩

/-! ## Representation -/

/-- The hashes of sound cells are those of their bit strings. -/
theorem map_hash_eq {cells : List Packed} (h : ∀ c ∈ cells, Sound c) :
    cells.map hash = ((cells.map plain).map Cell.hash).map Except.ok := by
  rw [List.map_map, List.map_map]
  exact List.map_congr_left fun c hc => (h c hc).hash_eq

theorem map_depth_eq (cells : List Packed) : cells.map depth = (cells.map plain).map Cell.depth := by
  rw [List.map_map]
  exact List.map_congr_left fun c _ => (depth_plain c).symm

/-- The bytes that are hashed of a cell tell its bits, how many references it has, and their depths and hashes: cells
of different lengths or of data that differ in zeros behind them never have the same ones. The second byte is never
too small for the length. -/
theorem Made.representation_eq_representation_iff {c d : Packed} (hc : Made (.cell c))
    (hd : Made (.cell d)) :
    ∃ xs ys, c.representation = .ok xs ∧ d.representation = .ok ys ∧
      (∀ r ∈ c.refs ++ d.refs, ∃ bytes, r.hash = .ok bytes) ∧
      (xs = ys ↔ c.bits = d.bits ∧ c.refs.length = d.refs.length ∧
        c.refs.map depth = d.refs.map depth ∧ c.refs.map hash = d.refs.map hash) ∧
      (c.length % 8 ≠ d.length % 8 → xs ≠ ys) ∧
      (∀ n, 0 < n → d.bits = c.bits ++ List.replicate n false → xs ≠ ys) ∧
      xs[1]?.map UInt8.toNat = some ((c.length + 7) / 8 + c.length / 8) := by
  have hcs : Packed.Sound c := hc.sound
  have hds : Packed.Sound d := hd.sound
  obtain ⟨bits, refs, rfl, hbits, hcount, hrefs⟩ := hcs.exists_eq
  obtain ⟨bits', refs', rfl, hbits', hcount', hrefs'⟩ := hds.exists_eq
  -- bytes of a cell that was made are hashed as those of the bits that they stand for
  have htold := Cell.representation_inj_iff (c := (ofBits bits refs).plain) (d := (ofBits bits' refs').plain)
    (by rwa [bits_plain, bits_ofBits]) (by rwa [bits_plain, bits_ofBits])
    (by rwa [refs_plain, List.length_map]) (by rwa [refs_plain, List.length_map])
  simp only [bits_plain, refs_plain, bits_ofBits, refs_ofBits, List.length_map, ← map_depth_eq] at htold
  have hhashes : refs.map hash = refs'.map hash ↔
      (refs.map plain).map Cell.hash = (refs'.map plain).map Cell.hash := by
    rw [map_hash_eq hrefs, map_hash_eq hrefs']
    exact List.map_inj_right fun _ _ => Except.ok.inj
  rw [← hhashes] at htold
  refine ⟨_, _, hcs.representation_eq, hds.representation_eq, ?_, ?_, ?_, ?_, ?_⟩
  · intro r hr
    rcases List.mem_append.mp hr with hr | hr
    · exact ⟨_, (hrefs r hr).hash_eq⟩
    · exact ⟨_, (hrefs' r hr).hash_eq⟩
  · simpa only [bits_ofBits, refs_ofBits] using htold
  · intro hlength h
    exact hlength (by rw [length_ofBits, length_ofBits, (htold.mp h).1])
  · intro n hn hzeros h
    rw [bits_ofBits, bits_ofBits, ← (htold.mp h).1] at hzeros
    have hlength := congrArg List.length hzeros
    rw [List.length_append, List.length_replicate] at hlength
    omega
  · rw [Cell.representation_eq, bits_plain, bits_ofBits]
    exact congrArg some (Cell.toNat_length_descriptor hbits)

/-- One bit and the same bit with a zero behind it. -/
theorem Made.representation_eq_representation_iff_bit :
    Made (.cell (.mk #[0x80] 1 [])) ∧ Made (.cell (.mk #[0x80] 2 [])) ∧
      ∃ xs ys, (mk #[0x80] 1 []).representation = .ok xs ∧ (mk #[0x80] 2 []).representation = .ok ys ∧
        xs ≠ ys := by
  have hone : Made (.builder ⟨#[0x80], 1, []⟩) := .store (.bit true) .empty fun o ho => nomatch ho
  have htwo : Made (.builder ⟨#[0x80], 2, []⟩) := .store (.bit false) hone fun o ho => nomatch ho
  obtain ⟨xs, ys, hxs, hys, -, -, hlength, -⟩ :=
    Made.representation_eq_representation_iff (.finish hone) (.finish htwo)
  exact ⟨.finish hone, .finish htwo, xs, ys, hxs, hys, hlength (by decide)⟩

end Packed
end MessageRouter

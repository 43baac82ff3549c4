import MessageRouter.Proofs.Fallible
import MessageRouter.Proofs.Packed.Stores
/-!
# `Proofs.Packed.Representation` — what is hashed of a packed cell

* `Packed.pack_append_true_inj`: bits that are closed by a set bit are told by their bytes.
* `Cell.representation_inj_iff`: a representation tells the bits, and the depths and hashes of the references.
* `Packed.Sound`: cells whose bytes are those of a bit string, down to the last reference.
* `Packed.Sound.hash_eq`, `Packed.Sound.representation_eq`: what is hashed of a packed cell is what is hashed of
  its bit string.
-/
namespace MessageRouter

/-! ## Closed bits -/

namespace Packed

/-- Bits are told by their number and their bytes. -/
theorem pack_inj {xs ys : List Bool} (hlength : xs.length = ys.length) (h : pack xs = pack ys) :
    xs = ys := by
  rw [← unpack_pack xs, h, hlength, unpack_pack]

/-- Bits that are closed by a set bit are told by their bytes. -/
theorem pack_append_true_inj {xs ys : List Bool} (h : pack (xs ++ [true]) = pack (ys ++ [true])) :
    xs = ys := by
  have hbits (i : Nat) : (xs[i]?.getD false || decide (i = xs.length)) =
      (ys[i]?.getD false || decide (i = ys.length)) := by
    have hi := congrArg (bitOrZero · i) h
    simpa only [bitOrZero_pack, getD_append_singleton, Bool.true_and] using hi
  -- the set bit of the longer one has no bit of the other beside it
  have hle {xs ys : List Bool} (hbits : ∀ i : Nat, (xs[i]?.getD false || decide (i = xs.length)) =
      (ys[i]?.getD false || decide (i = ys.length))) : ys.length ≤ xs.length := by
    apply Nat.le_of_not_lt
    intro hlt
    have hlast := hbits ys.length
    rw [List.getElem?_eq_none (Nat.le_of_lt hlt), decide_eq_false (by omega), decide_eq_true rfl,
      Bool.or_true] at hlast
    exact nomatch hlast
  have hlength : xs.length = ys.length := Nat.le_antisymm (hle fun i => (hbits i).symm) (hle hbits)
  apply List.ext_getElem hlength
  intro i hx hy
  have hi := hbits i
  rwa [List.getElem?_eq_getElem hx, List.getElem?_eq_getElem hy, decide_eq_false (by omega),
    decide_eq_false (by omega), Bool.or_false, Bool.or_false] at hi

end Packed

/-! ## Representation of bit strings -/

namespace Cell

/-- Two bytes tell a depth. -/
theorem depth_eq_of_depthBytes_eq {c d : Cell} (h : depthBytes c = depthBytes d) : c.depth = d.depth := by
  have hc : c.depth ≤ 2 ^ 16 - 1 := depth_le c
  have hd : d.depth ≤ 2 ^ 16 - 1 := depth_le d
  obtain ⟨hhigh, hrest⟩ := List.cons.inj h
  obtain ⟨hlow, -⟩ := List.cons.inj hrest
  have hhigh' := congrArg UInt8.toNat hhigh
  have hlow' := congrArg UInt8.toNat hlow
  rw [UInt8.toNat_ofNat', UInt8.toNat_ofNat'] at hhigh' hlow'
  omega

/-- The second byte of a descriptor does not wrap. -/
theorem toNat_length_descriptor {length : Nat} (h : length ≤ maxBits) :
    (UInt8.ofNat ((length + 7) / 8 + length / 8)).toNat = (length + 7) / 8 + length / 8 := by
  rw [maxBits] at h
  apply UInt8.toNat_ofNat_of_lt'
  show _ < 256
  omega

/-- As much closed data tells the bits, if their last bytes are both full or both not. -/
theorem closedData_inj {xs ys : List Bool} (hfull : xs.length % 8 = 0 ↔ ys.length % 8 = 0)
    (hlength : xs.length / 8 = ys.length / 8) (h : closedData xs = closedData ys) : xs = ys := by
  unfold closedData at h
  have hpack := congrArg List.toArray h
  by_cases hx : xs.length % 8 = 0
  · have hy := hfull.mp hx
    rw [if_pos hx, if_pos hy] at hpack
    exact Packed.pack_inj (by omega) hpack
  · have hy := fun hy => hx (hfull.mpr hy)
    rw [if_neg hx, if_neg hy] at hpack
    exact Packed.pack_append_true_inj hpack

/-- A representation tells the bits of a cell, how many references it has, and their depths and hashes. -/
theorem representation_inj_iff {c d : Cell} (hc : c.bits.length ≤ maxBits) (hd : d.bits.length ≤ maxBits)
    (hcrefs : c.refs.length ≤ maxRefs) (hdrefs : d.refs.length ≤ maxRefs) :
    c.representation = d.representation ↔
      c.bits = d.bits ∧ c.refs.length = d.refs.length ∧
        c.refs.map depth = d.refs.map depth ∧ c.refs.map hash = d.refs.map hash := by
  constructor
  · intro h
    rw [representation_eq, representation_eq] at h
    obtain ⟨hrefs, htail⟩ := List.cons.inj h
    obtain ⟨hsize, hcontent⟩ := List.cons.inj htail
    have hcount : c.refs.length = d.refs.length := by
      have hrefs' := congrArg UInt8.toNat hrefs
      rw [maxRefs] at hcrefs hdrefs
      rw [UInt8.toNat_ofNat', UInt8.toNat_ofNat'] at hrefs'
      omega
    have hsize' := congrArg UInt8.toNat hsize
    rw [toNat_length_descriptor hc, toNat_length_descriptor hd] at hsize'
    -- the second byte is even exactly if the last byte is full, and tells the number of full bytes
    have hfull : c.bits.length % 8 = 0 ↔ d.bits.length % 8 = 0 := by omega
    have hbytes : c.bits.length / 8 = d.bits.length / 8 := by omega
    have hdata : (closedData c.bits).length = (closedData d.bits).length := by
      rw [length_closedData, length_closedData, hbytes]
      simp only [hfull]
    simp only [content, List.append_assoc] at hcontent
    obtain ⟨hbits, hreferences⟩ := List.append_inj hcontent hdata
    obtain ⟨hdepths, hhashes⟩ := List.append_inj hreferences (by
      rw [length_flatMap_depthBytes, length_flatMap_depthBytes, hcount])
    rw [hashes_eq_flatMap, hashes_eq_flatMap] at hhashes
    refine ⟨closedData_inj hfull hbytes hbits, hcount, ?_, ?_⟩
    · have htwo (c : Cell) : (depthBytes c).length = 2 := rfl
      exact map_eq_of_flatMap_eq htwo (fun _ _ => depth_eq_of_depthBytes_eq) hcount hdepths
    · exact map_eq_of_flatMap_eq length_hash (fun _ _ hash => hash) hcount hhashes
  · rintro ⟨hbits, hcount, hdepths, hhashes⟩
    have hdepthBytes : c.refs.flatMap depthBytes = d.refs.flatMap depthBytes := by
      -- the two bytes of a depth are a function of it
      have hmap (refs : List Cell) : refs.map depthBytes =
          (refs.map depth).map fun n => [UInt8.ofNat (n / 256), UInt8.ofNat (n % 256)] := by
        rw [List.map_map]
        rfl
      rw [List.flatMap_def, List.flatMap_def, hmap, hmap, hdepths]
    have hhashBytes : hashes c.refs = hashes d.refs := by
      rw [hashes_eq_flatMap, hashes_eq_flatMap, List.flatMap_def, List.flatMap_def, hhashes]
    rw [representation_eq, representation_eq, content, content, hbits, hcount, hdepthBytes, hhashBytes]

end Cell

/-! ## Representation of packed cells -/

namespace Packed

/-- Cells whose bytes are those of a bit string, with no more bits and references than a cell holds, down to the last
reference. -/
inductive Sound : Packed → Prop
  | intro {bits : List Bool} {refs : List Packed} (hbits : bits.length ≤ Cell.maxBits)
      (hcount : refs.length ≤ Cell.maxRefs) (hrefs : ∀ c ∈ refs, Sound c) : Sound (ofBits bits refs)

mutual

theorem depth_plain : (c : Packed) → c.plain.depth = c.depth
  | mk bytes length refs => by rw [plain, Cell.depth, depth, depthAbove_plainAll refs]

theorem depthAbove_plainAll : (cells : List Packed) → Cell.depthAbove (plainAll cells) = depthAbove cells
  | [] => rfl
  | c :: rest => by
    rw [plainAll, Cell.depthAbove, depthAbove, depth_plain c, depthAbove_plainAll rest]

end

/-- Zeros behind the data of a byte are kept by the mask of the data. -/
theorem and_mask_eq {b : UInt8} {rest : Nat} (hrest : 0 < rest) (hlt : rest < 8)
    (h : ∀ k < 8, rest ≤ k → bitOf b k = false) : b &&& (0xff <<< UInt8.ofNat (8 - rest)) = b := by
  have hmask : ∀ rest < 8, 0 < rest → ∀ k < 8,
      bitOf (0xff <<< UInt8.ofNat (8 - rest)) k = decide (k < rest) := by decide
  apply eq_of_bitOf_eq
  intro k hk
  rw [bitOf_and _ _ hk, hmask rest hlt hrest k hk]
  by_cases hdata : k < rest
  · rw [decide_eq_true hdata, Bool.and_true]
  · rw [decide_eq_false hdata, Bool.and_false, h k hk (Nat.le_of_not_lt hdata)]

/-- The closed data of the bytes of a bit string are those of the bit string. -/
theorem closedData_pack (bits : List Bool) :
    closedData (pack bits) bits.length = .ok (Cell.closedData bits) := by
  have hsize := size_pack bits
  rw [closedData, Cell.closedData]
  simp only
  rw [if_pos (by omega)]
  by_cases hfull : bits.length % 8 = 0
  · have htake : (pack bits).toList.take (bits.length / 8) = (pack bits).toList := by
      apply List.take_of_length_le
      rw [Array.length_toList, hsize]
      omega
    rw [if_pos hfull, if_pos hfull, htake]
    rfl
  · have hlt : bits.length / 8 < (pack bits).size := by omega
    have hlast : (pack bits).size - 1 = bits.length / 8 := by omega
    have hgrown : pack (bits ++ [false]) = pack bits := by
      rw [← grown_pack, grown, if_neg hfull]
    -- the closing bit is put where another bit would be, into a byte that is there
    have hclosed := orAt_pack_append bits
    simp only [hgrown, hlast, orAt, if_pos hlt] at hclosed
    have hkept := and_mask_eq (b := (pack bits)[bits.length / 8]) (Nat.pos_of_ne_zero hfull)
      (Nat.mod_lt _ (by omega)) (fun k hk hrest => by
        have hbit := bitOrZero_mul_add (pack bits) (bits.length / 8) hk
        rw [bitOrZero_pack, List.getElem?_eq_none (by omega), Array.getElem?_eq_getElem hlt] at hbit
        exact hbit.symm)
    have hdrop : (pack bits).toList.drop (bits.length / 8 + 1) = [] := by
      apply List.drop_eq_nil_of_le
      rw [Array.length_toList]
      omega
    have hbytes := congrArg Array.toList (Except.ok.inj hclosed)
    rw [Array.toList_modify, List.modify_eq_take_cons_drop (by rwa [Array.length_toList]), hdrop] at hbytes
    rw [if_neg hfull, if_neg hfull, Array.getElem?_eq_getElem hlt]
    simp only [hkept]
    exact congrArg Except.ok hbytes

/-- The bytes that are hashed of a packed cell are those of its bit string, given the same hashes. -/
theorem represent_ofBits (bits : List Bool) (refs : List Packed) (hashes : List UInt8) :
    represent (ofBits bits refs) hashes = .ok ((ofBits bits refs).plain.represent hashes) := by
  have hdepths : refs.flatMap depthBytes = (refs.map plain).flatMap Cell.depthBytes := by
    have hbytes (c : Packed) : depthBytes c = Cell.depthBytes c.plain := by
      rw [depthBytes, Cell.depthBytes, depth_plain]
    rw [List.flatMap_map]
    exact congrArg (List.flatMap · refs) (funext hbytes)
  rw [represent, bytes_ofBits, length_ofBits, refs_ofBits, closedData_pack, hdepths, Cell.represent,
    descriptor, Cell.descriptor, bits_plain, refs_plain, bits_ofBits, refs_ofBits, length_ofBits,
    List.length_map]
  rfl

/-- The hashes of some cells are those of their bit strings if they are so one by one. -/
theorem hashes_eq {cells : List Packed} (h : ∀ c ∈ cells, c.hash = .ok c.plain.hash) :
    hashes cells = .ok (Cell.hashes (cells.map plain)) := by
  induction cells with
  | nil => rfl
  | cons c rest ih =>
    rw [List.forall_mem_cons] at h
    rw [hashes, h.1, ih h.2, List.map_cons, Cell.hashes]
    rfl

/-- The hash of a packed cell is that of its bit string. -/
theorem Sound.hash_eq {c : Packed} (h : Sound c) : c.hash = .ok c.plain.hash := by
  -- induction on the references, whose hashes are known
  induction h with
  | @intro bits refs hbits hcount hrefs ih =>
    have hrepresent := represent_ofBits bits refs (Cell.hashes (refs.map plain))
    rw [ofBits, hash, hashes_eq ih]
    show (represent (ofBits bits refs) _).bind _ = _
    rw [hrepresent, Cell.hash_eq, Cell.representation, refs_plain]
    rfl

/-- The bytes that are hashed of a packed cell are those of its bit string. -/
theorem Sound.representation_eq {c : Packed} (h : Sound c) :
    c.representation = .ok c.plain.representation := by
  cases h with
  | @intro bits refs hbits hcount hrefs =>
    rw [representation, refs_ofBits, hashes_eq fun c hc => (hrefs c hc).hash_eq]
    show represent _ _ = _
    rw [represent_ofBits, Cell.representation, refs_plain, refs_ofBits]

end Packed
end MessageRouter

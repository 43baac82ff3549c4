import MessageRouter.Cell.Basic
/-!
# `Proofs.Cell.Representation` — what the bytes that are hashed tell about a cell

* `map_eq_of_flatMap_eq`: pieces of one length are told by what they make together.
* `Bits.eq_of_toNat_eq`, `Bits.ofBytes_toBytes`: bits are told by their number and by their bytes.
* `Bits.ofBytes_inj`: bytes are told by their bits.
* `Cell.length_content`: how many bytes are hashed behind the descriptor.
* `Cell.representation_eq_iff`: a cell of at most 127 whole bytes and without references is told from all others.
-/
namespace MessageRouter

/-! ## Pieces -/

section Pieces

variable {α β γ : Type}

/-- Pieces of one length are told by what they make together. -/
theorem map_eq_of_flatMap_eq {piece : α → List β} {told : α → γ} {n : Nat}
    (hlength : ∀ a, (piece a).length = n) (htold : ∀ a b, piece a = piece b → told a = told b)
    {xs ys : List α} (hcount : xs.length = ys.length) (h : xs.flatMap piece = ys.flatMap piece) :
    xs.map told = ys.map told := by
  induction xs generalizing ys with
  | nil =>
    obtain rfl := List.length_eq_zero_iff.mp hcount.symm
    rfl
  | cons x xs ih =>
    cases ys with
    | nil => cases hcount
    | cons y ys =>
      rw [List.flatMap_cons, List.flatMap_cons] at h
      obtain ⟨hfirst, hrest⟩ := List.append_inj h (by rw [hlength, hlength])
      rw [List.map_cons, List.map_cons, htold x y hfirst, ih (Nat.succ.inj hcount) hrest]

end Pieces

/-! ## Bytes -/

namespace Bits

/-- As many bits of one number are the same. -/
theorem eq_of_toNat_eq {xs ys : List Bool} (hlength : xs.length = ys.length)
    (h : toNat xs = toNat ys) : xs = ys := by
  induction xs generalizing ys with
  | nil => exact (List.length_eq_zero_iff.mp hlength.symm).symm
  | cons x xs ih =>
    cases ys with
    | nil => cases hlength
    | cons y ys =>
      have hrest : xs.length = ys.length := Nat.succ.inj hlength
      have hx := toNat_lt xs
      have hy := toNat_lt ys
      rw [toNat_cons, toNat_cons, hrest] at h
      rw [hrest] at hx
      -- the first bits count for more than all the others together
      have hfirst : x = y := by
        cases x <;> cases y <;> simp at h ⊢ <;> omega
      subst hfirst
      rw [ih hrest (Nat.add_left_cancel h)]

/-- Bits are those of the number they spell. -/
theorem ofNat_toNat (bits : List Bool) : ofNat bits.length (toNat bits) = bits := by
  apply eq_of_toNat_eq (length_ofNat _ _)
  rw [toNat_ofNat, Nat.mod_eq_of_lt (toNat_lt bits)]

/-- Different bytes have different bits. -/
theorem ofBytes_inj {xs ys : List UInt8} (h : ofBytes xs = ofBytes ys) : xs = ys := by
  have hbits := congrArg List.length h
  rw [length_ofBytes, length_ofBytes] at hbits
  have hcount : xs.length = ys.length := by omega
  have htold (x y : UInt8) (hxy : ofNat 8 x.toNat = ofNat 8 y.toNat) : id x = id y := by
    have hnat := congrArg toNat hxy
    rw [toNat_ofNat, toNat_ofNat, Nat.mod_eq_of_lt x.toNat_lt, Nat.mod_eq_of_lt y.toNat_lt] at hnat
    exact UInt8.toNat_inj.mp hnat
  have hmap := map_eq_of_flatMap_eq (fun _ => length_ofNat _ _) htold hcount h
  rwa [List.map_id, List.map_id] at hmap

/-- As many bytes of one number are the same. -/
theorem eq_of_toNat_ofBytes {xs ys : List UInt8} (hlength : xs.length = ys.length)
    (h : toNat (ofBytes xs) = toNat (ofBytes ys)) : xs = ys :=
  ofBytes_inj (eq_of_toNat_eq (by rw [length_ofBytes, length_ofBytes, hlength]) h)

/-- The bits of a full byte. -/
theorem ofNat_byte {bits : List Bool} (h : bits.length = 8) : ofNat 8 (byte bits).toNat = bits := by
  have hlt : toNat bits < 2 ^ 8 := h ▸ toNat_lt bits
  have hbyte : (byte bits).toNat = toNat bits := by
    rw [byte, h, Nat.sub_self, Nat.shiftLeft_zero]
    exact UInt8.toNat_ofNat_of_lt hlt
  rw [hbyte, ← h, ofNat_toNat]

/-- Bits that do not begin with a full byte are less than one. -/
theorem length_lt_of_not_full {bits : List Bool}
    (h : ∀ b₀ b₁ b₂ b₃ b₄ b₅ b₆ b₇ rest,
      bits = b₀ :: b₁ :: b₂ :: b₃ :: b₄ :: b₅ :: b₆ :: b₇ :: rest → False) : bits.length < 8 := by
  rcases bits with _ | ⟨b₀, _ | ⟨b₁, _ | ⟨b₂, _ | ⟨b₃, _ | ⟨b₄, _ | ⟨b₅, _ | ⟨b₆, _ | ⟨b₇, rest⟩⟩⟩⟩⟩⟩⟩⟩
  case cons.cons.cons.cons.cons.cons.cons.cons => exact (h _ _ _ _ _ _ _ _ _ rfl).elim
  all_goals simp

theorem length_toBytes (bits : List Bool) : (toBytes bits).length = (bits.length + 7) / 8 := by
  induction bits using toBytes.induct with
  | case1 b₀ b₁ b₂ b₃ b₄ b₅ b₆ b₇ rest ih =>
    rw [toBytes, List.length_cons, ih]
    simp only [List.length_cons]
    omega
  | case2 => rfl
  | case3 bits hlong hnil =>
    have hlt := length_lt_of_not_full hlong
    have hpos : 0 < bits.length := List.length_pos_iff.mpr hnil
    rw [toBytes]
    · rw [List.length_singleton]
      omega
    · exact hlong
    · exact hnil

/-- Full bytes are read back. -/
theorem ofBytes_toBytes {bits : List Bool} (h : bits.length % 8 = 0) : ofBytes (toBytes bits) = bits := by
  induction bits using toBytes.induct with
  | case1 b₀ b₁ b₂ b₃ b₄ b₅ b₆ b₇ rest ih =>
    have hrest : rest.length % 8 = 0 := by
      simp only [List.length_cons] at h
      omega
    rw [toBytes, ofBytes, List.flatMap_cons, ofNat_byte rfl]
    exact congrArg _ (ih hrest)
  | case2 => rfl
  | case3 bits hlong hnil =>
    have hlt := length_lt_of_not_full hlong
    have hpos : 0 < bits.length := List.length_pos_iff.mpr hnil
    omega

end Bits

/-! ## Representation -/

namespace Cell

/-- Two bytes of depth and 32 of hash for each reference. -/
theorem length_flatMap_depthBytes (refs : List Cell) :
    (refs.flatMap depthBytes).length = 2 * refs.length := by
  induction refs with
  | nil => rfl
  | cons c rest ih =>
    rw [List.flatMap_cons, List.length_append, ih, List.length_cons, depthBytes]
    simp only [List.length_cons, List.length_nil]
    omega

theorem length_hashes (refs : List Cell) : (hashes refs).length = 32 * refs.length := by
  induction refs with
  | nil => rfl
  | cons c rest ih =>
    rw [hashes, List.length_append, length_hash, ih, List.length_cons]
    omega

theorem length_closedData (bits : List Bool) :
    (closedData bits).length = if bits.length % 8 = 0 then bits.length / 8 else bits.length / 8 + 1 := by
  rw [closedData, Bits.length_toBytes]
  split
  · omega
  · rw [List.length_append, List.length_singleton]
    omega

/-- The bytes after the two of the descriptor. -/
def content (c : Cell) : List UInt8 :=
  closedData c.bits ++ c.refs.flatMap depthBytes ++ hashes c.refs

/-- The descriptor tells the number of references and the length of the data, and the content follows. -/
theorem representation_eq (c : Cell) :
    c.representation = UInt8.ofNat c.refs.length ::
      UInt8.ofNat ((c.bits.length + 7) / 8 + c.bits.length / 8) :: c.content := by
  simp only [representation, represent, descriptor, content, List.cons_append, List.nil_append]

theorem length_content (c : Cell) :
    c.content.length = (closedData c.bits).length + 34 * c.refs.length := by
  simp only [content, List.length_append, length_flatMap_depthBytes, length_hashes]
  omega

theorem content_of_full {c : Cell} (hrefs : c.refs = []) (hfull : c.bits.length % 8 = 0) :
    c.content = Bits.toBytes c.bits := by
  rw [content, hrefs, closedData, if_pos hfull]
  simp only [List.flatMap_nil, hashes, List.append_nil]

/-- A cell of at most 127 full bytes and without references is told from all others by its representation. -/
theorem representation_eq_iff {c : Cell} {bits : List Bool} (hfull : bits.length % 8 = 0)
    (hlength : bits.length ≤ 1016) :
    (mk bits []).representation = c.representation ↔ c.refs = [] ∧ c.bits = bits := by
  constructor
  · intro h
    rw [representation_eq, representation_eq c] at h
    obtain ⟨hrefs, htail⟩ := List.cons.inj h
    obtain ⟨hsize, hcontent⟩ := List.cons.inj htail
    have hcount := congrArg List.length hcontent
    rw [length_content, length_content, length_closedData, length_closedData, bits_mk, refs_mk,
      if_pos hfull, List.length_nil] at hcount
    have hrefs' := congrArg UInt8.toNat hrefs
    have hsize' := congrArg UInt8.toNat hsize
    rw [refs_mk, List.length_nil, UInt8.toNat_ofNat', UInt8.toNat_ofNat'] at hrefs'
    rw [bits_mk, UInt8.toNat_ofNat', UInt8.toNat_ofNat'] at hsize'
    by_cases haligned : c.bits.length % 8 = 0
    · rw [if_pos haligned] at hcount
      -- a reference would need more bytes than there are
      have hnone : c.refs = [] := by
        apply List.length_eq_zero_iff.mp
        omega
      refine ⟨hnone, ?_⟩
      have hdata : (mk bits []).content = Bits.toBytes bits := content_of_full rfl hfull
      rw [hdata, content_of_full hnone haligned] at hcontent
      rw [← Bits.ofBytes_toBytes hfull, ← Bits.ofBytes_toBytes haligned]
      exact (congrArg Bits.ofBytes hcontent).symm
    · -- data that do not fill their last byte have an odd second byte
      rw [if_neg haligned] at hcount
      omega
  · rintro ⟨hrefs, hbits⟩
    have hc : c = mk bits [] := Cell.ext hbits hrefs
    rw [hc]

end Cell
end MessageRouter

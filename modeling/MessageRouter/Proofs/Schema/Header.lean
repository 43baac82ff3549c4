import Mathlib.Data.List.Induction
import MessageRouter.Proofs.Text.Digits
import MessageRouter.Schema.Header
/-!
# `Proofs.Schema.Header` — which texts are header literals

* `Header.Spells`: digits among underscores, and the number that they spell.
* `Header.IsLiteral`: the mark of a base, a sign, and digits of the base, which spell the opcode.
* `Header.readNat_marked_iff`: which characters after a mark are read as a number.
* `Header.splitBase_of_isMark`: no literal can be taken for one of another base.
* `Header.read_exact`: exactly the literals are read, and the only sign that one can have is a plus without effect.
-/
namespace MessageRouter
namespace Header

open Code (digitsFrom?)
open Text (IsDigit IsTrimmed digitValue_eq_some_iff)

variable {cs marked core sign : List Char} {radix limit n : Nat} {base : Base}

/-! ## The grammar -/

/-- The mark of a base, which decimal literals do without. -/
inductive Base.IsMark : Base → List Char → Prop where
  | hex {x : Char} (hx : x = 'x' ∨ x = 'X') : IsMark .hex ['0', x]
  | bin {b : Char} (hb : b = 'b' ∨ b = 'B') : IsMark .bin ['0', b]
  | oct {o : Char} (ho : o = 'o' ∨ o = 'O') : IsMark .oct ['0', o]
  | dec : IsMark .dec []

/-- Digits of a radix, with underscores wherever one likes, and the number that they spell. -/
inductive Spells (radix : Nat) : List Char → Nat → Prop where
  | nil : Spells radix [] 0
  | digit {cs : List Char} {n d : Nat} {c : Char} (hcs : Spells radix cs n) (hc : IsDigit radix c d) :
    Spells radix (cs ++ [c]) (n * radix + d)
  | underscore {cs : List Char} {n : Nat} (hcs : Spells radix cs n) : Spells radix (cs ++ ['_']) n

/-- A header literal: the mark of its base, a sign, and at least one digit of the base. -/
def IsLiteral (sign core : List Char) (h : Header) : Prop :=
  ∃ mark digits, h.base.IsMark mark ∧ core = mark ++ (sign ++ digits) ∧ (∃ c ∈ digits, c ≠ '_') ∧
    Spells h.base.radix digits h.value.toNat

/-- The signs that have no effect: none, or a plus, in front of which there may be underscores. -/
def IsSign (sign : List Char) : Prop := sign = [] ∨ ∃ k, sign = List.replicate k '_' ++ ['+']

/-! ## Digits and underscores -/

theorem radix_le (base : Base) : 0 < base.radix ∧ base.radix ≤ 16 := by
  cases base <;> decide

/-- Some digits spell a number exactly if they do so without their underscores. -/
theorem spells_iff (hradix : radix ≤ 16) :
    Spells radix cs n ↔ digitsFrom? radix 0 (cs.filter (· ≠ '_')) = some n := by
  have hsingle (v : Nat) (c : Char) :
      digitsFrom? radix v [c] = (Text.digitValue radix c).bind fun d => some (v * radix + d) :=
    Text.digitsFrom?_cons radix v c []
  constructor
  · intro h
    induction h with
    | nil => rfl
    | @digit cs n d c _ hc ih =>
      have hne : c ≠ '_' := by
        rintro rfl
        exact Text.not_isDigit_of_mem hradix (by simp) hc
      rw [List.filter_append, List.filter_cons_of_pos (by simpa using hne), List.filter_nil,
        Code.digitsFrom?_append, ih, Option.bind_some, hsingle, (digitValue_eq_some_iff hradix).mpr hc]
      rfl
    | underscore _ ih => simpa using ih
  · intro h
    -- digits count from the left, so a text is taken apart from its end
    induction cs using List.reverseRecOn generalizing n with
    | nil =>
      obtain rfl := Option.some.inj h
      exact .nil
    | append_singleton cs c ih =>
      by_cases hc : c = '_'
      · subst hc
        exact .underscore (ih (by simpa using h))
      · rw [List.filter_append, List.filter_cons_of_pos (by simpa using hc), List.filter_nil,
          Code.digitsFrom?_append] at h
        obtain ⟨v, hv, h⟩ := Option.bind_eq_some_iff.mp h
        rw [hsingle] at h
        obtain ⟨d, hd, h⟩ := Option.bind_eq_some_iff.mp h
        obtain rfl := Option.some.inj h
        exact .digit (ih hv) ((digitValue_eq_some_iff hradix).mp hd)

theorem filter_ne_nil_iff : cs.filter (· ≠ '_') ≠ [] ↔ ∃ c ∈ cs, c ≠ '_' := by
  rw [ne_eq, List.filter_eq_nil_iff]
  simp

/-- What is read as a number after a mark: a sign without effect, and at least one digit. -/
theorem readNat_marked_iff (hpos : 0 < radix) (hradix : radix ≤ 16) :
    Text.readNat radix limit (marked.filter (· ≠ '_')) = .ok n ↔
      ∃ sign digits, marked = sign ++ digits ∧ IsSign sign ∧ (∃ c ∈ digits, c ≠ '_') ∧
        Spells radix digits n ∧ n ≤ limit := by
  rw [Text.readNat_eq_ok_iff_digitsFrom? hpos hradix]
  constructor
  · rintro ⟨digits, hmarked, hne, hdigits, hle⟩
    rcases hmarked with rfl | hmarked
    · exact ⟨[], marked, rfl, .inl rfl, filter_ne_nil_iff.mp hne, (spells_iff hradix).mpr hdigits, hle⟩
    · -- whatever stands in front of the plus was left out
      obtain ⟨front, rest, rfl, hfront, -, rfl⟩ := List.filter_eq_cons_iff.mp hmarked
      have hunderscores : front = List.replicate front.length '_' :=
        List.eq_replicate_of_mem fun c hc => by simpa using hfront c hc
      refine ⟨front ++ ['+'], rest, by simp, .inr ⟨front.length, ?_⟩, filter_ne_nil_iff.mp hne,
        (spells_iff hradix).mpr hdigits, hle⟩
      rw [← hunderscores]
  · rintro ⟨sign, digits, rfl, hsign, hne, hdigits, hle⟩
    refine ⟨digits.filter (· ≠ '_'), ?_, filter_ne_nil_iff.mpr hne, (spells_iff hradix).mp hdigits, hle⟩
    rcases hsign with rfl | ⟨k, rfl⟩
    · exact .inl rfl
    · right
      simp [List.filter_append]

/-! ## Bases -/

/-- What follows a mark is what is left after it. -/
theorem exists_mark_of_splitBase (cs : List Char) :
    ∃ mark, (splitBase cs).1.IsMark mark ∧ cs = mark ++ (splitBase cs).2 := by
  unfold splitBase
  split
  · next mark rest =>
    split
    · next hmark => exact ⟨['0', mark], .hex hmark, rfl⟩
    · split
      · next hmark => exact ⟨['0', mark], .bin hmark, rfl⟩
      · split
        · next hmark => exact ⟨['0', mark], .oct hmark, rfl⟩
        · exact ⟨[], .dec, rfl⟩
  · exact ⟨[], .dec, rfl⟩

theorem mem_of_spells {c : Char} (h : Spells radix cs n) (hc : c ∈ cs) :
    c = '_' ∨ ∃ d, IsDigit radix c d := by
  induction h with
  | nil => cases hc
  | digit _ hdigit ih =>
    rcases List.mem_append.mp hc with hc | hc
    · exact ih hc
    · exact .inr ⟨_, List.mem_singleton.mp hc ▸ hdigit⟩
  | underscore _ ih =>
    rcases List.mem_append.mp hc with hc | hc
    · exact ih hc
    · exact .inl (List.mem_singleton.mp hc)

theorem mem_of_isSign {c : Char} (h : IsSign sign) (hc : c ∈ sign) : c = '_' ∨ c = '+' := by
  rcases h with rfl | ⟨k, rfl⟩
  · cases hc
  · rcases List.mem_append.mp hc with hc | hc
    · exact .inl (List.eq_of_mem_replicate hc)
    · exact .inr (List.mem_singleton.mp hc)

/-- No character of a decimal literal is the letter of a mark. -/
theorem notMem_marks_of_decimal {digits : List Char} {c : Char} (hsign : IsSign sign)
    (hdigits : Spells 10 digits n) (hc : c ∈ sign ++ digits) : c ∉ ['x', 'X', 'b', 'B', 'o', 'O'] := by
  have hletter : ∀ c ∈ ['x', 'X', 'b', 'B', 'o', 'O'],
      Text.digitValue 10 c = none ∧ c ≠ '_' ∧ c ≠ '+' := by decide
  intro hmark
  obtain ⟨hnone, hunderscore, hplus⟩ := hletter c hmark
  rcases List.mem_append.mp hc with hc | hc
  · rcases mem_of_isSign hsign hc with rfl | rfl
    · exact hunderscore rfl
    · exact hplus rfl
  · rcases mem_of_spells hdigits hc with rfl | ⟨d, hd⟩
    · exact hunderscore rfl
    · rw [(digitValue_eq_some_iff (by decide)).mpr hd] at hnone
      cases hnone

/-- A literal is split after its mark. -/
theorem splitBase_of_isMark {mark digits : List Char} (hmark : base.IsMark mark) (hsign : IsSign sign)
    (hdigits : Spells base.radix digits n) :
    splitBase (mark ++ (sign ++ digits)) = (base, sign ++ digits) := by
  cases hmark with
  | hex hx => exact if_pos hx
  | bin hb => rcases hb with rfl | rfl <;> rfl
  | oct ho => rcases ho with rfl | rfl <;> rfl
  | dec =>
    -- the second character would have to be the letter of a mark, and it is a digit, an underscore or a plus
    rw [List.nil_append]
    unfold splitBase
    split
    · next mark rest heq =>
      have hletter := notMem_marks_of_decimal hsign hdigits (c := mark) (by simp [heq])
      simp only [List.mem_cons, List.not_mem_nil, or_false, not_or] at hletter
      obtain ⟨hx, hX, hb, hB, ho, hO⟩ := hletter
      simp [hx, hX, hb, hB, ho, hO, heq]
    · rfl

/-! ## Literals -/

/-- A text is read exactly if what is left of it without its blanks is a literal, whose sign has no effect. -/
theorem read_eq_ok_iff {text : String} {h : Header} :
    read text = .ok h ↔ ∃ sign, IsSign sign ∧ IsLiteral sign (Text.trim text.toList) h := by
  unfold read
  constructor
  · intro hread
    -- the mark tells the radix of the number that is read behind it
    obtain ⟨mark, hmark, hcore⟩ := exists_mark_of_splitBase (Text.trim text.toList)
    rcases hsplit : splitBase (Text.trim text.toList) with ⟨base, marked⟩
    rw [hsplit] at hmark hcore
    simp only [hsplit] at hread
    split at hread
    · cases hread
    · split at hread
      · next n hn =>
        obtain rfl := Except.ok.inj hread
        obtain ⟨hpos, hradix⟩ := radix_le base
        obtain ⟨sign, digits, rfl, hsign, hne, hdigits, hle⟩ := (readNat_marked_iff hpos hradix).mp hn
        have hvalue : (UInt32.ofNat n).toNat = n := UInt32.toNat_ofNat_of_lt' (Nat.lt_of_le_sub_one (by decide) hle)
        refine ⟨sign, hsign, mark, digits, hmark, hcore, hne, ?_⟩
        rwa [hvalue]
      · cases hread
  · rintro ⟨sign, hsign, mark, digits, hmark, hcore, hne, hdigits⟩
    obtain ⟨hpos, hradix⟩ := radix_le h.base
    have hle : h.value.toNat ≤ UInt32.size - 1 := Nat.le_sub_one_of_lt h.value.toNat_lt_size
    have hn := (readNat_marked_iff hpos hradix).mpr ⟨sign, digits, rfl, hsign, hne, hdigits, hle⟩
    have hfilter : ((sign ++ digits).filter (· ≠ '_')).isEmpty = false := by
      obtain ⟨c, hc, hne⟩ := hne
      rw [List.isEmpty_eq_false_iff]
      exact filter_ne_nil_iff.mpr ⟨c, List.mem_append_right sign hc, hne⟩
    simp only [hcore, splitBase_of_isMark hmark hsign hdigits, hfilter, hn, UInt32.ofNat_toNat]
    rfl

theorem plus_notMem_of_isMark {mark : List Char} (h : base.IsMark mark) : '+' ∉ mark := by
  cases h with
  | hex hx => rcases hx with rfl | rfl <;> decide
  | bin hb => rcases hb with rfl | rfl <;> decide
  | oct ho => rcases ho with rfl | rfl <;> decide
  | dec => exact List.not_mem_nil

/-- Without a plus there is no sign. -/
theorem isLiteral_nil_iff {h : Header} :
    (∃ sign, IsSign sign ∧ IsLiteral sign core h) ∧ '+' ∉ core ↔ IsLiteral [] core h := by
  constructor
  · rintro ⟨⟨sign, hsign, hliteral⟩, hplus⟩
    rcases hsign with rfl | ⟨k, rfl⟩
    · exact hliteral
    · obtain ⟨mark, digits, -, rfl, -⟩ := hliteral
      exact absurd (by simp) hplus
  · rintro ⟨mark, digits, hmark, rfl, hne, hdigits⟩
    refine ⟨⟨[], .inl rfl, mark, digits, hmark, rfl, hne, hdigits⟩, ?_⟩
    intro hplus
    rcases List.mem_append.mp hplus with hplus | hplus
    · exact plus_notMem_of_isMark hmark hplus
    · rcases mem_of_spells hdigits hplus with h | ⟨d, hd⟩
      · cases h
      · exact Text.not_isDigit_of_mem (radix_le h.base).2 (by simp) hd

/-- The literals of opcodes are read, and nothing else is. One with a plus behind its mark is read as well, and means the
same without it; a text without a plus is read exactly if it is a literal without a sign. -/
theorem read_exact (text : String) (h : Header) :
    (read text = .ok h ↔
        ∃ core sign, IsTrimmed text.toList core ∧ IsSign sign ∧ IsLiteral sign core h) ∧
      (read text = .ok h ∧ '+' ∉ text.toList ↔
        ∃ core, IsTrimmed text.toList core ∧ IsLiteral [] core h) := by
  have htrim := Text.trim_eq_iff.mp (rfl : Text.trim text.toList = _)
  constructor
  · rw [read_eq_ok_iff]
    constructor
    · rintro ⟨sign, hliteral⟩
      exact ⟨_, sign, htrim, hliteral⟩
    · rintro ⟨core, sign, hcore, hliteral⟩
      rw [Text.trim_eq_iff.mpr hcore]
      exact ⟨sign, hliteral⟩
  · rw [read_eq_ok_iff, htrim.mem_iff (by decide), isLiteral_nil_iff]
    constructor
    · intro hliteral
      exact ⟨_, htrim, hliteral⟩
    · rintro ⟨core, hcore, hliteral⟩
      rwa [Text.trim_eq_iff.mpr hcore]

/-- The sign of a literal has no effect, wherever the digits begin. -/
example : read "0x_+1f" = .ok ⟨31, .hex⟩ := by rfl

end Header
end MessageRouter

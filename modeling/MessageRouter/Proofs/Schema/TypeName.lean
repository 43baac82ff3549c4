import Mathlib.Data.List.TakeWhile
import MessageRouter.Proofs.Text.Numeral
import MessageRouter.Schema.FieldType
/-!
# `Proofs.Schema.TypeName` — which texts are names of types

* `FieldType.nameWith`: the name of a type with something in front of the width.
* `FieldType.IsPadding`: what may stand there, an optional plus and zeros.
* `FieldType.width?_eq_some_iff`: which texts are read as a width.
* `FieldType.ofName?_exact`: the names of the types in range are read, also with padding, and nothing else is. A text without
  padding is read exactly if it is the name of a type in range, and as that type.
-/
namespace MessageRouter
namespace FieldType

variable {s front : String} {t : FieldType} {cs start rest : List Char} {limit w : Nat}

/-! ## Spellings -/

/-- What may stand in front of a width and has no effect: zeros, and a plus in front of them. -/
def IsPadding (front : String) : Prop :=
  ∃ zeros, front.toList = List.replicate zeros '0' ∨ front.toList = '+' :: List.replicate zeros '0'

/-- The name of a type with something in front of the width; some types have no width. -/
def nameWith (front : String) : FieldType → String
  | uint w => "uint" ++ (front ++ toString w)
  | int w => "int" ++ (front ++ toString w)
  | bool => "bool"
  | coins => "coins"

/-- Behind its letters a text goes on with neither a plus nor a zero. -/
def IsPlain (s : String) : Prop := ∀ c ∈ (s.toList.dropWhile Char.isAlpha).head?, c ≠ '+' ∧ c ≠ '0'

theorem nameWith_empty (t : FieldType) : t.nameWith "" = t.name := by
  cases t with
  | uint w | int w => simp [nameWith, name]
  | bool | coins => rfl

theorem toList_nameWith_uint (front : String) (w : Nat) :
    ((uint w).nameWith front).toList = ['u', 'i', 'n', 't'] ++ (front ++ toString w).toList :=
  String.toList_append

theorem toList_nameWith_int (front : String) (w : Nat) :
    ((int w).nameWith front).toList = ['i', 'n', 't'] ++ (front ++ toString w).toList :=
  String.toList_append

/-! ## Beginnings -/

theorem after?_eq_some_iff : after? start cs = some rest ↔ cs = start ++ rest := by
  induction start generalizing cs with
  | nil => simp [after?]
  | cons a start ih =>
    cases cs with
    | nil => simp [after?]
    | cons c cs =>
      by_cases h : a = c
      · simp [after?, h, ih]
      · simp [after?, h, Ne.symm h]

/-! ## Widths -/

theorem width?_eq_some_iff_readNat :
    width? limit cs = some w ↔ (1 ≤ w ∧ w ≤ limit) ∧ Text.readNat 10 (2 ^ 16 - 1) cs = .ok w := by
  unfold width?
  cases hread : Text.readNat 10 (2 ^ 16 - 1) cs with
  | error cause => simp
  | ok n =>
    by_cases hn : 1 ≤ n ∧ n ≤ limit
    · simp only [if_pos hn, Option.some.injEq, Except.ok.injEq]
      constructor
      · rintro rfl
        exact ⟨hn, rfl⟩
      · exact fun h => h.2
    · simp only [if_neg hn, Except.ok.injEq]
      refine iff_of_false nofun ?_
      rintro ⟨hw, rfl⟩
      exact hn hw

/-- A width is read from its digits, which may have padding in front. -/
theorem width?_eq_some_iff (hlimit : limit ≤ 2 ^ 16 - 1) :
    width? limit cs = some w ↔
      (1 ≤ w ∧ w ≤ limit) ∧ ∃ front, IsPadding front ∧ cs = (front ++ toString w).toList := by
  rw [width?_eq_some_iff_readNat, Text.readNat_eq_ok_iff]
  apply and_congr_right
  rintro ⟨hpos, hle⟩
  have hdigits : (toString w).toList = Nat.toDigits 10 w := by simp
  constructor
  · rintro ⟨digits, hcs, hdecimal, hw, -⟩
    obtain ⟨zeros, rfl⟩ := (Text.isDecimal_and_eq_iff hpos).mp ⟨hdecimal, hw⟩
    rcases hcs with rfl | rfl
    · exact ⟨String.ofList (List.replicate zeros '0'), ⟨zeros, .inl (by simp)⟩, by simp⟩
    · exact ⟨String.ofList ('+' :: List.replicate zeros '0'), ⟨zeros, .inr (by simp)⟩, by simp⟩
  · rintro ⟨front, ⟨zeros, hfront⟩, rfl⟩
    rw [String.toList_append, hdigits]
    obtain ⟨hdecimal, hw⟩ := (Text.isDecimal_and_eq_iff hpos).mpr ⟨zeros, rfl⟩
    refine ⟨_, ?_, hdecimal, hw, hle.trans hlimit⟩
    rcases hfront with hfront | hfront <;> simp [hfront]

/-! ## Names -/

theorem ofName?_of_uint (h : s.toList = ['u', 'i', 'n', 't'] ++ cs) :
    ofName? s = (width? maxUintWidth cs).map uint := by
  have hbool : s ≠ "bool" := by
    rintro rfl
    cases h
  have hcoins : s ≠ "coins" := by
    rintro rfl
    cases h
  rw [ofName?, if_neg hbool, if_neg hcoins, after?_eq_some_iff.mpr h]

theorem ofName?_of_int (h : s.toList = ['i', 'n', 't'] ++ cs) :
    ofName? s = (width? maxIntWidth cs).map int := by
  have hbool : s ≠ "bool" := by
    rintro rfl
    cases h
  have hcoins : s ≠ "coins" := by
    rintro rfl
    cases h
  have huint : after? ['u', 'i', 'n', 't'] s.toList = none := by
    rw [h]
    rfl
  rw [ofName?, if_neg hbool, if_neg hcoins, huint]
  simp only [after?_eq_some_iff.mpr h]

/-- A name says what kind of type it is of, and the rest of it is the width. -/
theorem start_of_ofName? (h : ofName? s = some t) :
    (s = "bool" ∧ t = bool) ∨ (s = "coins" ∧ t = coins) ∨
      (∃ cs, s.toList = ['u', 'i', 'n', 't'] ++ cs) ∨ ∃ cs, s.toList = ['i', 'n', 't'] ++ cs := by
  unfold ofName? at h
  split at h
  · next hs => exact .inl ⟨hs, (Option.some.inj h).symm⟩
  · split at h
    · next hs => exact .inr (.inl ⟨hs, (Option.some.inj h).symm⟩)
    · split at h
      · next cs hafter => exact .inr (.inr (.inl ⟨cs, after?_eq_some_iff.mp hafter⟩))
      · split at h
        · next cs hafter => exact .inr (.inr (.inr ⟨cs, after?_eq_some_iff.mp hafter⟩))
        · cases h

/-- The names of the types in range are read, also with padding, and nothing else is. -/
theorem ofName?_eq_some_iff :
    ofName? s = some t ↔ t.IsInRange ∧ ∃ front, IsPadding front ∧ s = t.nameWith front := by
  have hnone : IsPadding "" := ⟨0, .inl rfl⟩
  constructor
  · intro h
    rcases start_of_ofName? h with ⟨rfl, rfl⟩ | ⟨rfl, rfl⟩ | ⟨cs, hcs⟩ | ⟨cs, hcs⟩
    · exact ⟨trivial, "", hnone, rfl⟩
    · exact ⟨trivial, "", hnone, rfl⟩
    · rw [ofName?_of_uint hcs, Option.map_eq_some_iff] at h
      obtain ⟨w, hw, rfl⟩ := h
      obtain ⟨hrange, front, hfront, rfl⟩ := (width?_eq_some_iff (by decide)).mp hw
      exact ⟨hrange, front, hfront, String.toList_inj.mp (hcs.trans (toList_nameWith_uint front w).symm)⟩
    · rw [ofName?_of_int hcs, Option.map_eq_some_iff] at h
      obtain ⟨w, hw, rfl⟩ := h
      obtain ⟨hrange, front, hfront, rfl⟩ := (width?_eq_some_iff (by decide)).mp hw
      exact ⟨hrange, front, hfront, String.toList_inj.mp (hcs.trans (toList_nameWith_int front w).symm)⟩
  · rintro ⟨hrange, front, hfront, rfl⟩
    cases t with
    | bool | coins => rfl
    | uint w =>
      rw [ofName?_of_uint (toList_nameWith_uint front w),
        (width?_eq_some_iff (by decide)).mpr ⟨hrange, front, hfront, rfl⟩, Option.map_some]
    | int w =>
      rw [ofName?_of_int (toList_nameWith_int front w),
        (width?_eq_some_iff (by decide)).mpr ⟨hrange, front, hfront, rfl⟩, Option.map_some]

/-! ## Padding -/

/-- Padding is told by its first character, as no width begins with a plus or a zero. -/
theorem isPadding_head_iff (hpos : 0 < w) (hfront : IsPadding front) :
    (∀ c ∈ (front ++ toString w).toList.head?, c ≠ '+' ∧ c ≠ '0') ↔ front = "" := by
  have hdigits : (toString w).toList = Nat.toDigits 10 w := by simp
  obtain ⟨zeros, hfront⟩ := hfront
  rw [String.toList_append, hdigits]
  constructor
  · intro h
    rw [← String.toList_eq_nil_iff]
    rcases hfront with hfront | hfront
    · cases zeros with
      | zero => exact hfront
      | succ k => exact absurd rfl (h '0' (by simp [hfront, List.replicate_succ])).2
    · exact absurd rfl (h '+' (by simp [hfront])).1
  · rintro rfl c hc
    have hmem : c ∈ Nat.toDigits 10 w := List.mem_of_mem_head? hc
    constructor
    · rintro rfl
      exact absurd (Nat.isDigit_of_mem_toDigits (by decide) (by decide) hmem) (by decide)
    · rintro rfl
      exact Text.head?_toDigits_ne_zero hpos hc

theorem isAlpha_of_mem_width (hfront : IsPadding front) {c : Char} (hc : c ∈ (front ++ toString w).toList) :
    c.isAlpha = false := by
  have hletter {d : Nat} (hd : d < 10) : d.digitChar.isAlpha = false := by
    interval_cases d <;> decide
  obtain ⟨zeros, hfront⟩ := hfront
  have hmem : c = '+' ∨ c ∈ List.replicate zeros '0' ∨ c ∈ Nat.toDigits 10 w := by
    rcases hfront with hfront | hfront <;> simp_all
  -- a plus, a zero of the padding, or a digit of the width
  rcases hmem with rfl | hc | hc
  · rfl
  · rw [List.eq_of_mem_replicate hc]
    rfl
  · obtain ⟨d, hd, rfl⟩ := Code.exists_digit_of_mem_toDigits (by decide) hc
    exact hletter hd

/-- Behind the letters of a name comes its padding, if there is any. -/
theorem isPlain_iff_of_width {kind : List Char} (hs : s.toList = kind ++ (front ++ toString w).toList)
    (hkind : ∀ c ∈ kind, c.isAlpha = true) (hpos : 0 < w) (hfront : IsPadding front) :
    IsPlain s ↔ front = "" := by
  have hwidth : (front ++ toString w).toList.dropWhile Char.isAlpha = (front ++ toString w).toList := by
    cases hcs : (front ++ toString w).toList with
    | nil => rfl
    | cons c rest =>
      have hc : c.isAlpha = false := isAlpha_of_mem_width hfront (by rw [hcs]; exact List.mem_cons_self)
      simp [List.dropWhile, hc]
  -- all letters of the text are those of its kind
  rw [IsPlain, hs, List.dropWhile_append_of_pos hkind, hwidth]
  exact isPadding_head_iff hpos hfront

theorem isPlain_of_isAlpha (h : ∀ c ∈ s.toList, c.isAlpha = true) : IsPlain s := by
  intro c hc
  rw [List.dropWhile_eq_nil_iff.mpr h] at hc
  cases hc

/-- A name without padding is the name of its type. -/
theorem isPlain_nameWith_iff (hrange : t.IsInRange) (hfront : IsPadding front) :
    IsPlain (t.nameWith front) ↔ t.nameWith front = t.name := by
  cases t with
  | bool => exact iff_of_true (isPlain_of_isAlpha (s := "bool") (by decide)) rfl
  | coins => exact iff_of_true (isPlain_of_isAlpha (s := "coins") (by decide)) rfl
  | uint w =>
    rw [isPlain_iff_of_width (toList_nameWith_uint front w) (by decide) hrange.1 hfront]
    simp [nameWith, name]
  | int w =>
    rw [isPlain_iff_of_width (toList_nameWith_int front w) (by decide) hrange.1 hfront]
    simp [nameWith, name]

/-- The names of the types in range are read, also with padding, and nothing else is. A text without padding is read exactly
if it is the name of a type in range, and as that type. -/
theorem ofName?_exact (s : String) (t : FieldType) :
    (ofName? s = some t ↔ t.IsInRange ∧ ∃ front, IsPadding front ∧ s = t.nameWith front) ∧
      (ofName? s = some t ∧ IsPlain s ↔ t.IsInRange ∧ s = t.name) := by
  refine ⟨ofName?_eq_some_iff, ?_⟩
  rw [ofName?_eq_some_iff]
  constructor
  · rintro ⟨⟨hrange, front, hfront, rfl⟩, hplain⟩
    exact ⟨hrange, (isPlain_nameWith_iff hrange hfront).mp hplain⟩
  · rintro ⟨hrange, rfl⟩
    have hnone : IsPadding "" := ⟨0, .inl rfl⟩
    have hplain := (isPlain_nameWith_iff hrange hnone).mpr (nameWith_empty t)
    rw [nameWith_empty] at hplain
    exact ⟨⟨hrange, "", hnone, (nameWith_empty t).symm⟩, hplain⟩

/-- Neither a plus nor zeros in front of the width have an effect. -/
example : ofName? "uint+08" = some (.uint 8) := by rfl

end FieldType
end MessageRouter

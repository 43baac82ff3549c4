import MessageRouter.Proofs.Json.Scalars
/-!
# `Proofs.Json.Reading` — every text of a value is read as the value

* `Json.Gives`: a reading that gives something if it fits, and stops at the limit if it does not.
* `Json.items_of_isListing`: the pieces of a listing are read one by one, as long as they fit.
* `Json.value_of_isText`: a text of a value is read as the value, unless that is nested too deep.
* `Json.read_of_isDocument`: so is a document.
-/
namespace MessageRouter
namespace Json

open Reader

variable {c : Char} {rest t : List UInt8}

/-! ## Limited readings -/

/-- A reading that gives something if it fits, and stops at the limit if it does not. -/
structure Gives {α : Type} (fits : Prop) (a : α) (rest : List UInt8)
    (result : Except Stop (α × List UInt8)) : Prop where
  ok : fits → result = .ok (a, rest)
  limit : ¬ fits → ∃ left, result = .error ⟨.nestingLimit, left⟩

section Gives

variable {α β : Type} {fits fits' : Prop} {a : α} {b : β} {rest' : List UInt8}
variable {result : Except Stop (α × List UInt8)}

theorem Gives.of_eq (h : result = .ok (a, rest)) (hfits : fits) : Gives fits a rest result where
  ok _ := h
  limit hnot := absurd hfits hnot

theorem Gives.congr (h : Gives fits a rest result) (hiff : fits ↔ fits') : Gives fits' a rest result where
  ok hfits := h.ok (hiff.mpr hfits)
  limit hnot := h.limit (mt hiff.mp hnot)

theorem Gives.map (h : Gives fits a rest result) (f : α → β) :
    Gives fits (f a) rest (result.map fun (a, s) => (f a, s)) where
  ok hfits := by
    rw [h.ok hfits]
    rfl
  limit hnot := by
    obtain ⟨left, hleft⟩ := h.limit hnot
    rw [hleft]
    exact ⟨left, rfl⟩

/-- Of two readings, one after the other, both have to fit. -/
theorem Gives.bind {f : α × List UInt8 → Except Stop (β × List UInt8)} (h : Gives fits a rest result)
    (hf : Gives fits' b rest' (f (a, rest))) : Gives (fits ∧ fits') b rest' (result >>= f) where
  ok := by
    rintro ⟨hfits, hfits'⟩
    exact Fallible.bind_eq_ok_iff.mpr ⟨_, h.ok hfits, hf.ok hfits'⟩
  limit := by
    intro hnot
    by_cases hfits : fits
    · obtain ⟨left, hleft⟩ := hf.limit fun hfits' => hnot ⟨hfits, hfits'⟩
      exact ⟨left, Fallible.bind_eq_error_iff.mpr (.inr ⟨_, h.ok hfits, hleft⟩)⟩
    · obtain ⟨left, hleft⟩ := h.limit hfits
      exact ⟨left, Fallible.bind_eq_error_iff.mpr (.inl hleft)⟩

end Gives

/-! ## Listings -/

theorem isBlank_of_isBlanks {blanks : List UInt8} (h : IsBlanks blanks) :
    ∀ b ∈ blanks, Reader.isBlank b = true := by
  have hall : ∀ b ∈ [' ', '\n', '\r', '\t'].map byte, Reader.isBlank b = true :=
    List.forall_mem_map.mpr (by decide)
  exact fun b hb => hall b (h b hb)

theorem skipBlanks_append {blanks : List UInt8} (h : IsBlanks blanks) :
    skipBlanks (blanks ++ rest) = skipBlanks rest :=
  List.dropWhile_append_of_pos (isBlank_of_isBlanks h)

theorem skipBlanks_cons {b : UInt8} (h : Reader.isBlank b = false) : skipBlanks (b :: rest) = b :: rest :=
  List.dropWhile_cons_of_neg (by simp [h])

/-- A byte that closes a listing. -/
structure Closes (close : UInt8) : Prop where
  notBlank : Reader.isBlank close = false
  notComma : byte ',' ≠ close
  delimits : ∀ rest, Delimits (close :: rest)

/-- A piece does not begin with a blank, nor does it close the listing. -/
def Begins (close : UInt8) (piece : List UInt8) : Prop :=
  ∃ b rest, piece = b :: rest ∧ Reader.isBlank b = false ∧ b ≠ close

theorem delimits_of_isBlanks {blanks : List UInt8} (h : IsBlanks blanks) (hrest : Delimits rest) :
    Delimits (blanks ++ rest) := by
  have hall : ∀ b ∈ [' ', '\n', '\r', '\t'].map byte,
      isDigit b = false ∧ b ≠ byte '.' ∧ b ≠ byte 'e' ∧ b ≠ byte 'E' := List.forall_mem_map.mpr (by decide)
  cases blanks with
  | nil => exact hrest
  | cons b blanks =>
    rintro _ ⟨⟩
    exact hall b (h b List.mem_cons_self)

section Listing

variable {α : Type} {close : UInt8} {atEnd unexpected : Cause} {item : List UInt8 → Step α} {fits : α → Prop}
variable {pieces : List (α × List UInt8)} {listing : List UInt8}

/-- Whatever follows a piece delimits it. -/
theorem delimits_of_isMore {texts : List (List UInt8)} (hclose : Closes close) (h : IsMore texts listing) :
    Delimits (listing ++ close :: rest) := by
  cases h with
  | nil hblanks => exact delimits_of_isBlanks hblanks (hclose.delimits rest)
  | cons hbefore hafter hrest =>
    rw [List.append_assoc]
    refine delimits_of_isBlanks hbefore ?_
    rintro _ ⟨⟩
    decide

/-- A piece is read as what it stands for, whatever delimits it, if that fits. -/
def IsPiece (close : UInt8) (item : List UInt8 → Step α) (fits : α → Prop) (x : α × List UInt8) : Prop :=
  Begins close x.2 ∧ ∀ rest, Delimits rest → Gives (fits x.1) x.1 rest (item (x.2 ++ rest))

variable (atEnd unexpected rest)

/-- The pieces after the first one are read one by one, as long as they fit. -/
theorem moreItems_of_isMore (hclose : Closes close) {fuel : Nat} (kept : List α)
    (hpieces : ∀ x ∈ pieces, IsPiece close item fits x)
    (hmore : IsMore (pieces.map (·.2)) listing) (hfuel : pieces.length < fuel) :
    Gives (∀ x ∈ pieces, fits x.1) (kept.reverse ++ pieces.map (·.1)) rest
      (moreItems close atEnd unexpected item fuel kept (listing ++ close :: rest)) := by
  -- by induction on the pieces that are left; those that were read are kept in reverse order
  induction pieces generalizing fuel kept listing with
  | nil =>
    cases fuel with
    | zero => exact absurd hfuel (Nat.not_lt_zero _)
    | succ fuel =>
      cases hmore with
      | nil hblanks =>
        refine .of_eq ?_ nofun
        rw [moreItems, skipBlanks_append hblanks, skipBlanks_cons hclose.notBlank]
        simp
  | cons x pieces ih =>
    obtain ⟨a, piece⟩ := x
    obtain ⟨⟨hbegins, hread⟩, hrest⟩ := List.forall_mem_cons.mp hpieces
    obtain ⟨b, tail, rfl, hblank, hne⟩ := hbegins
    cases fuel with
    | zero => exact absurd hfuel (Nat.not_lt_zero _)
    | succ fuel =>
      cases hmore with
      | @cons before after _ more _ hbefore hafter hmore =>
        have hitem := hread (more ++ close :: rest) (delimits_of_isMore hclose hmore)
        have hnext := ih (a :: kept) hrest hmore (Nat.lt_of_succ_lt_succ hfuel)
        rw [moreItems, List.append_assoc, skipBlanks_append hbefore, List.cons_append,
          skipBlanks_cons (by decide)]
        dsimp only
        rw [if_neg (by simpa using hclose.notComma), if_pos (by decide), List.append_assoc, skipBlanks_append hafter,
          List.append_assoc, List.cons_append, skipBlanks_cons hblank]
        dsimp only
        rw [if_neg (by simpa using hne)]
        have hboth := hitem.bind (f := fun r => moreItems close atEnd unexpected item fuel (r.1 :: kept) r.2) hnext
        rw [List.reverse_cons, List.append_assoc] at hboth
        exact hboth.congr (List.forall_mem_cons (p := fun x : α × List UInt8 => fits x.1)).symm

theorem length_le_of_isMore {texts : List (List UInt8)} (h : IsMore texts listing) :
    texts.length ≤ listing.length := by
  induction h with
  | nil => exact Nat.zero_le _
  | cons _ _ _ ih =>
    simp only [List.length_cons, List.length_append]
    omega

/-- The pieces of a listing are read one by one, as long as they fit. -/
theorem items_of_isListing (hclose : Closes close) (hpieces : ∀ x ∈ pieces, IsPiece close item fits x)
    (hlisting : IsListing (pieces.map (·.2)) listing) :
    Gives (∀ x ∈ pieces, fits x.1) (pieces.map (·.1)) rest
      (items close atEnd unexpected item (listing ++ close :: rest)) := by
  cases pieces with
  | nil =>
    cases hlisting with
    | nil hblanks =>
      refine .of_eq ?_ nofun
      rw [items, skipBlanks_append hblanks, skipBlanks_cons hclose.notBlank]
      simp
  | cons x pieces =>
    obtain ⟨a, piece⟩ := x
    obtain ⟨⟨hbegins, hread⟩, hrest⟩ := List.forall_mem_cons.mp hpieces
    obtain ⟨b, tail, rfl, hblank, hne⟩ := hbegins
    cases hlisting with
    | @cons blanks _ more _ hblanks hmore =>
      -- each piece takes a byte at least, so what is left of the bytes is fuel enough
      have hfuel : pieces.length < (more ++ close :: rest).length + 1 := by
        have hlength := length_le_of_isMore hmore
        rw [List.length_map] at hlength
        rw [List.length_append]
        omega
      have hitem := hread (more ++ close :: rest) (delimits_of_isMore hclose hmore)
      have hnext := moreItems_of_isMore rest atEnd unexpected hclose [a] hrest hmore hfuel
      rw [items, List.append_assoc, skipBlanks_append hblanks, List.append_assoc, List.cons_append,
        skipBlanks_cons hblank]
      dsimp only
      rw [if_neg (by simpa using hne)]
      have hboth := hitem.bind (f := fun r => moreItems close atEnd unexpected item (r.2.length + 1) [r.1] r.2) hnext
      exact hboth.congr (List.forall_mem_cons (p := fun x : α × List UInt8 => fits x.1)).symm

end Listing

/-! ## Values -/

section Values

variable {v : Json} {depth : Nat}

theorem value_null (depth : Nat) : value depth (bytesOf "null" ++ rest) = .ok (.null, rest) := by
  rw [value.eq_def]
  rfl

theorem value_bool (depth : Nat) (b : Bool) : value depth (bytesOf (toString b) ++ rest) = .ok (.bool b, rest) := by
  rw [value.eq_def]
  cases b <;> rfl

theorem byte_mem_of_isDigit (hc : c.isDigit = true) :
    byte c ∈ ['0', '1', '2', '3', '4', '5', '6', '7', '8', '9'].map byte := by
  obtain ⟨-, hlow, hhigh⟩ := toNat_byte_of_isDigit hc
  rw [← Char.ofNat_toNat c]
  generalize c.toNat = n at hlow hhigh
  interval_cases n <;> decide

theorem value_digit (depth : Nat) (hc : c.isDigit = true) :
    value depth (byte c :: rest) = Reader.number true (byte c :: rest) := by
  have hall : ∀ b ∈ ['0', '1', '2', '3', '4', '5', '6', '7', '8', '9'].map byte,
      Reader.isBlank b = false ∧ (b == byte 'n') = false ∧ (b == byte 't') = false ∧ (b == byte 'f') = false ∧
        (b == byte '-') = false := List.forall_mem_map.mpr (by decide)
  obtain ⟨hblank, hn, ht, hf, hminus⟩ := hall _ (byte_mem_of_isDigit hc)
  rw [value.eq_def, skipBlanks_cons hblank]
  dsimp only
  rw [hn, ht, hf, hminus, isDigit_byte hc]
  rfl

theorem value_minus (depth : Nat) : value depth (byte '-' :: rest) = Reader.number false rest := by
  rw [value.eq_def]
  rfl

theorem value_quote (depth : Nat) :
    value depth (byte '"' :: rest) = (Reader.string rest).map fun (text, s) => (.string text, s) := by
  rw [value.eq_def]
  rfl

theorem value_bracket (depth : Nat) :
    value (depth + 1) (byte '[' :: rest) =
      (items (byte ']') .endInList .expectedListCommaOrEnd (value depth) rest).map fun (vs, s) => (.array vs, s) := rfl

theorem value_brace (depth : Nat) :
    value (depth + 1) (byte '\x7b' :: rest) =
      (items (byte '\x7d') .endInObject .expectedObjectCommaOrEnd (member (value depth)) rest).map
        fun (ms, s) => (ofMembers ms, s) := rfl

/-- Blanks in front of a value do not count. -/
theorem value_blanks {blanks : List UInt8} (depth : Nat) (h : IsBlanks blanks) :
    value depth (blanks ++ rest) = value depth rest := by
  rw [value.eq_def, skipBlanks_append h, ← value.eq_def]

theorem closes_bracket : Closes (byte ']') where
  notBlank := by decide
  notComma := by decide
  delimits rest := by
    rintro _ ⟨⟩
    decide

theorem closes_brace : Closes (byte '\x7d') where
  notBlank := by decide
  notComma := by decide
  delimits rest := by
    rintro _ ⟨⟩
    decide

/-- No text of a value begins with a blank or with a closing bracket. -/
theorem begins_of_isText (h : IsText v t) : Begins (byte ']') t := by
  have hdigits : ∀ b ∈ ['0', '1', '2', '3', '4', '5', '6', '7', '8', '9'].map byte,
      Reader.isBlank b = false ∧ b ≠ byte ']' := List.forall_mem_map.mpr (by decide)
  have hnat (n : Nat) : Begins (byte ']') ((Nat.toDigits 10 n).map byte) := by
    obtain ⟨c, cs, hcons, hc⟩ := exists_first_digit n
    rw [hcons]
    exact ⟨byte c, _, rfl, hdigits _ (byte_mem_of_isDigit hc)⟩
  cases h with
  | null => exact ⟨byte 'n', _, rfl, by decide⟩
  | bool b =>
    cases b with
    | false => exact ⟨byte 'f', _, rfl, by decide⟩
    | true => exact ⟨byte 't', _, rfl, by decide⟩
  | @int i =>
    cases i with
    | ofNat n => exact bytesOf_nat n ▸ hnat n
    | negSucc n => exact bytesOf_negSucc n ▸ ⟨byte '-', _, rfl, by decide⟩
  | string h =>
    obtain ⟨body, -, rfl⟩ := h
    exact ⟨byte '"', _, rfl, by decide⟩
  | array => exact ⟨byte '[', _, rfl, by decide⟩
  | object => exact ⟨byte '\x7b', _, rfl, by decide⟩

/-- An integer is read as itself. -/
theorem value_int {i : Int} (hlow : -2 ^ 63 ≤ i) (hhigh : i < 2 ^ 64) (hrest : Delimits rest) :
    value depth (bytesOf (toString i) ++ rest) = .ok (.int i, rest) := by
  cases i with
  | ofNat n =>
    have hn : n ≤ maxSignificand := by
      have hlt : (n : Int) < 2 ^ 64 := hhigh
      unfold maxSignificand
      omega
    have hnumber := number_toDigits true hn hrest
    obtain ⟨c, cs, hcons, hc⟩ := exists_first_digit n
    show value depth (bytesOf (toString n) ++ rest) = _
    rw [bytesOf_nat]
    rw [hcons] at hnumber ⊢
    rw [List.map_cons, List.cons_append, value_digit depth hc]
    exact hnumber
  | negSucc n =>
    have hle : n + 1 ≤ 2 ^ 63 := by
      rw [Int.negSucc_eq] at hlow
      omega
    have hn : n + 1 ≤ maxSignificand := by
      unfold maxSignificand
      omega
    have hinteger : integer false (n + 1) = .int (Int.negSucc n) := by
      rw [integer, if_neg (by decide), if_neg (by omega)]
      rfl
    rw [bytesOf_negSucc, List.cons_append, value_minus, number_toDigits false hn hrest, hinteger]
    rfl

/-- A member is read if its value fits. -/
theorem member_of_isWellFormed {m : WrittenMember} {fits : Prop} (hm : m.IsWellFormed)
    (hvalue : Gives fits m.value rest (value depth (m.text ++ rest))) :
    Gives fits m.entry rest (member (value depth) (m.bytes ++ rest)) := by
  obtain ⟨body, hkey, hread⟩ :=
    string_of_isStringText (m.beforeColon ++ byte ':' :: (m.afterColon ++ (m.text ++ rest))) hm.key
  have hbytes : m.bytes ++ rest =
      byte '"' :: (body ++ (m.beforeColon ++ byte ':' :: (m.afterColon ++ (m.text ++ rest)))) := by
    rw [WrittenMember.bytes, hkey]
    simp
  have hdone : Gives True m.entry rest (.ok ((m.key, m.value), rest)) := .of_eq rfl trivial
  have hentry := hvalue.bind (f := fun r => .ok ((m.key, r.1), r.2)) hdone
  rw [← value_blanks depth hm.afterColon] at hentry
  rw [hbytes, member, if_pos (by decide), hread]
  dsimp only [bind, Except.bind]
  rw [skipBlanks_append hm.beforeColon, skipBlanks_cons (by decide)]
  dsimp only
  rw [if_pos (by decide)]
  exact hentry.congr (and_iff_left trivial)

/-- No member begins with a blank or with a closing brace. -/
theorem begins_of_isWellFormed {m : WrittenMember} (hm : m.IsWellFormed) : Begins (byte '\x7d') m.bytes := by
  obtain ⟨body, -, hkey⟩ := hm.key
  rw [WrittenMember.bytes, hkey]
  exact ⟨byte '"', _, rfl, by decide⟩

/-- A text of a value is read as the value, whatever delimits it, if the value is not nested too deep. -/
theorem value_of_isText (depth : Nat) (h : IsText v t) (hrest : Delimits rest) :
    Gives (v.nesting ≤ depth) v rest (value depth (t ++ rest)) := by
  -- a list or an object takes one level of the depth, which is why the depth varies in the induction
  induction h generalizing depth rest with
  | null => exact .of_eq (value_null depth) (Nat.zero_le _)
  | bool b => exact .of_eq (value_bool depth b) (Nat.zero_le _)
  | int hlow hhigh => exact .of_eq (value_int hlow hhigh hrest) (Nat.zero_le _)
  | @string s t h =>
    obtain ⟨body, rfl, hread⟩ := string_of_isStringText rest h
    refine .of_eq ?_ (Nat.zero_le _)
    rw [List.cons_append, value_quote, hread]
    rfl
  | @array items listing hitems hlisting ih =>
    cases depth with
    | zero => exact ⟨fun hfits => absurd hfits (Nat.not_succ_le_zero _), fun _ => ⟨_, rfl⟩⟩
    | succ depth =>
      have hpieces : ∀ x ∈ items, IsPiece (byte ']') (value depth) (·.nesting ≤ depth) x :=
        fun x hx => ⟨begins_of_isText (hitems x hx), fun _ hrest => ih x hx depth hrest⟩
      have hlist := items_of_isListing rest .endInList .expectedListCommaOrEnd closes_bracket hpieces hlisting
      rw [List.cons_append, List.append_assoc, List.singleton_append, value_bracket]
      refine (hlist.map Json.array).congr ?_
      rw [nesting_array_le_iff, List.forall_mem_map]
  | @object members listing hvalues hmembers hkeys hlisting ih =>
    cases depth with
    | zero => exact ⟨fun hfits => absurd hfits (Nat.not_succ_le_zero _), fun _ => ⟨_, rfl⟩⟩
    | succ depth =>
      have hpieces : ∀ x ∈ members.map fun m => (m.entry, m.bytes),
          IsPiece (byte '\x7d') (member (value depth)) (·.2.nesting ≤ depth) x :=
        List.forall_mem_map.mpr fun m hm => ⟨begins_of_isWellFormed (hmembers m hm),
          fun _ hrest => member_of_isWellFormed (hmembers m hm) (ih m hm depth hrest)⟩
      have hlist := items_of_isListing rest .endInObject .expectedObjectCommaOrEnd closes_brace hpieces
        (by rw [List.map_map]; exact hlisting)
      have hnodup : ((members.map (·.entry)).map (·.1)).Nodup := by
        rw [List.map_map]
        exact hkeys
      rw [List.map_map] at hlist
      rw [List.cons_append, List.append_assoc, List.singleton_append, value_brace]
      refine (hlist.map ofMembers).congr ?_
      rw [nesting_ofMembers_le_iff hnodup, List.forall_mem_map, List.forall_mem_map]

end Values

/-! ## Documents -/

/-- Every text of a document is read as the document, if that is not nested too deep; if it is, nothing else is wrong
with the text. -/
theorem read_of_isDocument {doc : Json} {bytes : List UInt8} (h : doc.IsDocument bytes) :
    (doc.nesting ≤ maxNesting → read bytes = .ok doc) ∧
      (maxNesting < doc.nesting → ∃ e, read bytes = .error e ∧ e.cause = .nestingLimit) := by
  obtain ⟨before, text, after, hbefore, htext, hafter, rfl⟩ := h
  have hdelimits : Delimits after := by
    have hempty : Delimits [] := nofun
    simpa using delimits_of_isBlanks hafter hempty
  have hend : skipBlanks after = [] := by
    rw [← List.append_nil after, skipBlanks_append hafter]
    rfl
  have hvalue := value_of_isText maxNesting htext hdelimits
  rw [← value_blanks maxNesting hbefore] at hvalue
  constructor
  · intro hfits
    unfold read
    rw [hvalue.ok hfits]
    dsimp only [bind, Except.bind]
    rw [hend]
    rfl
  · intro hdeep
    obtain ⟨left, hleft⟩ := hvalue.limit (Nat.not_le.mpr hdeep)
    unfold read
    rw [hleft]
    exact ⟨_, rfl, rfl⟩

end Json
end MessageRouter

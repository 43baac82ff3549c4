import MessageRouter.Proofs.Document.Nesting
import MessageRouter.Proofs.Json.Printing
/-!
# `Proofs.Document.Loading` — which programs can be read from the bytes of their documents

The reader of JSON texts and the reader of bodies each have a limit of their own. The first one is spent by the five
levels of a document above a body, and then twice by each nested block.

* `Program.ofBytes_of_isDocument`: the bytes of a document are read as the document is, unless it is nested too deep.
* `bodyLists_le_maxBodyLists`: which bodies are not nested too deep for that.
* `Program.ofBytes_exact`: a program is read from the bytes of its document exactly if its bodies are not.
* `ofBytes_blocksDocument_iff`: of the blocks that may be nested in a body, the innermost four are out of reach.
-/
namespace MessageRouter

/-! ## Bytes -/

/-- How many lists of a body may stand in one another in the bytes of a document. -/
def maxBodyLists : Nat := Json.maxNesting - 5

/-- The bytes of a document that is not nested too deep are read as the document is; those of others are refused. -/
theorem Program.ofBytes_of_isDocument {doc : Json} {bytes : List UInt8} {limit : Nat} (h : doc.IsDocument bytes)
    (hsize : bytes.length ≤ limit) :
    (doc.nesting ≤ Json.maxNesting → Program.ofBytes limit bytes = Program.ofJson doc) ∧
      (Json.maxNesting < doc.nesting →
        ∃ e, Program.ofBytes limit bytes = .error (.ofCause (.json e)) ∧ e.cause = .nestingLimit) := by
  obtain ⟨hread, hlimit⟩ := Json.read_of_isDocument h
  have hbytes : Program.ofBytes limit bytes =
      ((Json.read bytes).mapError fun cause => .ofCause (.json cause)) >>= Program.ofJson := by
    rw [Program.ofBytes, if_neg (Nat.not_lt.mpr hsize)]
  constructor
  · intro hfits
    rw [hbytes, hread hfits]
    rfl
  · intro hdeep
    obtain ⟨e, he, hcause⟩ := hlimit hdeep
    rw [hbytes, he]
    exact ⟨e, rfl, hcause⟩

/-- A program is read from the bytes of its document exactly if none of its bodies is nested too deep for them. -/
theorem Program.ofBytes_eq_ok_iff {doc : Json} {p : Program} {bytes : List UInt8} {limit : Nat}
    (h : Program.ofJson doc = .ok p) (hown : Document.UsesOwnKeys doc) (hbytes : doc.IsDocument bytes)
    (hsize : bytes.length ≤ limit) :
    Program.ofBytes limit bytes = .ok p ↔
      ∀ c ∈ p.contracts, ∀ r ∈ c.receivers, bodyLists r.body ≤ maxBodyLists := by
  obtain ⟨hread, hlimit⟩ := Program.ofBytes_of_isDocument hbytes hsize
  have hnesting : doc.nesting ≤ Json.maxNesting ↔
      ∀ c ∈ p.contracts, ∀ r ∈ c.receivers, bodyLists r.body ≤ maxBodyLists :=
    Program.nesting_of_ofJson h hown (by decide)
  rw [← hnesting]
  constructor
  · intro hok
    by_contra hdeep
    obtain ⟨e, he, -⟩ := hlimit (Nat.not_le.mp hdeep)
    rw [he] at hok
    cases hok
  · exact fun hfits => (hread hfits).trans h

/-- Bodies with blocks and operands down to level 60 are not nested too deep, and those with blocks below it are. -/
theorem bodyLists_le_maxBodyLists {body : List Stmt} :
    (bodyNesting body ≤ 60 → bodyLists body ≤ maxBodyLists) ∧
      (60 < bodyBlockDepth body → maxBodyLists < bodyLists body) := by
  have hle := bodyLists_le body
  have hge := le_bodyLists body
  have hmax : maxBodyLists = 122 := rfl
  constructor <;> omega

/-- A document whose keys are all read and which gives a program gives that program from each of its texts, exactly if
no body has more than `maxBodyLists` lists in one another; any other text is refused for its nesting. Bodies may be
nested deeper than that: those with blocks and operands down to level 60 can be loaded, those with blocks below it can
not. -/
theorem Program.ofBytes_exact {doc : Json} {p : Program} {bytes : List UInt8} {limit : Nat}
    (h : Program.ofJson doc = .ok p) (hown : Document.UsesOwnKeys doc) (hbytes : doc.IsDocument bytes)
    (hsize : bytes.length ≤ limit) :
    (Program.ofBytes limit bytes = .ok p ↔
        ∀ c ∈ p.contracts, ∀ r ∈ c.receivers, bodyLists r.body ≤ maxBodyLists) ∧
      (Program.ofBytes limit bytes ≠ .ok p →
        ∃ e, Program.ofBytes limit bytes = .error (.ofCause (.json e)) ∧ e.cause = .nestingLimit) ∧
      ((∀ c ∈ p.contracts, ∀ r ∈ c.receivers, bodyNesting r.body ≤ 60) → Program.ofBytes limit bytes = .ok p) ∧
      ((∃ c ∈ p.contracts, ∃ r ∈ c.receivers, 60 < bodyBlockDepth r.body) → Program.ofBytes limit bytes ≠ .ok p) := by
  have hexact := Program.ofBytes_eq_ok_iff h hown hbytes hsize
  obtain ⟨hread, hlimit⟩ := Program.ofBytes_of_isDocument hbytes hsize
  refine ⟨hexact, ?_, ?_, ?_⟩
  · intro hrefused
    apply hlimit
    by_contra hfits
    exact hrefused ((hread (Nat.not_lt.mp hfits)).trans h)
  · intro hbodies
    rw [hexact]
    exact fun c hc r hr => bodyLists_le_maxBodyLists.1 (hbodies c hc r hr)
  · rintro ⟨c, hc, r, hr, hblocks⟩ hok
    exact absurd (hexact.mp hok c hc r hr) (Nat.not_le.mpr (bodyLists_le_maxBodyLists.2 hblocks))

/-! ## Nested blocks -/

/-- A body of blocks in one another, the innermost of which is empty. -/
def nestedBody : Nat → List Stmt
  | 0 => []
  | depth + 1 => [.branch (.bool true) (nestedBody depth) []]

def nestedSexprs : Nat → List Sexpr
  | 0 => []
  | depth + 1 => [.list [.word "if", .word "true", .list (nestedSexprs depth)]]

def nestedBlocks : Nat → Json
  | 0 => .array []
  | depth + 1 => .array [.array [.string "if", .bool true, nestedBlocks depth]]

/-- A document of one receiver with such a body. -/
def blocksDocument (depth : Nat) : Json :=
  .object [("contracts", .array [.object [("name", .string "Gate"),
      ("receivers", .array [.object [("body", nestedBlocks depth),
        ("selector", .object [("kind", .string "internal-empty")])]])]]),
    ("schema_version", .string documentSchema)]

def Program.ofBlocks (depth : Nat) : Program :=
  ⟨.empty, [⟨"Gate", [], [⟨.empty .internal, nestedBody depth, none⟩]⟩]⟩

open Json in
theorem isPrintable_blocksDocument (depth : Nat) : (blocksDocument depth).IsPrintable := by
  have hblocks : (nestedBlocks depth).IsPrintable := by
    induction depth with
    | zero => trivial
    | succ depth ih => exact ⟨⟨trivial, trivial, ih, trivial⟩, trivial⟩
  have hselector : (Json.object [("kind", .string "internal-empty")]).IsPrintable := ⟨⟨trivial, trivial⟩, by decide⟩
  have hreceiver : ["body", "selector"].Pairwise (· < ·) := by decide
  have hcontract : ["name", "receivers"].Pairwise (· < ·) := by decide
  have hdocument : ["contracts", "schema_version"].Pairwise (· < ·) := by decide
  have hreceivers : ItemsArePrintable [.object [("body", nestedBlocks depth),
      ("selector", .object [("kind", .string "internal-empty")])]] :=
    ⟨⟨⟨hblocks, hselector, trivial⟩, hreceiver⟩, trivial⟩
  exact ⟨⟨⟨⟨⟨trivial, hreceivers, trivial⟩, hcontract⟩, trivial⟩, trivial, trivial⟩, hdocument⟩

open Document in
theorem usesOwnKeys_blocksDocument (depth : Nat) : UsesOwnKeys (blocksDocument depth) := by
  have hselector : OwnSelector (.object [("kind", .string "internal-empty")]) := by
    rintro _ name kind ⟨⟩ hname hkind
    obtain rfl : "internal-empty" = name := Json.string.inj (Option.some.inj hname)
    obtain rfl : SelectorKind.empty .internal = kind := Option.some.inj hkind
    exact hasMembers_iff.mpr (by simp [SelectorKind.keys, Plain])
  have hreceiver : OwnReceiver (.object [("body", nestedBlocks depth),
      ("selector", .object [("kind", .string "internal-empty")])]) :=
    hasMembers_iff.mpr (by simp [hselector, Plain])
  have hcontract : OwnContract (.object [("name", .string "Gate"),
      ("receivers", .array [.object [("body", nestedBlocks depth),
        ("selector", .object [("kind", .string "internal-empty")])]])]) :=
    hasMembers_iff.mpr (by simp [each_iff, hreceiver, Plain])
  exact hasMembers_iff.mpr (by simp [each_iff, hcontract, Plain])

theorem sexpr_nestedBlocks (depth : Nat) : Sexpr.ofJson (nestedBlocks depth) = .ok (.list (nestedSexprs depth)) := by
  induction depth with
  | zero => rfl
  | succ depth ih =>
    simp only [nestedBlocks, Sexpr.ofJson, Sexpr.ofJsonItems, ih]
    rfl

theorem stmts_nestedSexprs {level depth : Nat} (h : level + depth ≤ maxBodyDepth) :
    stmtsOfSexprs level (nestedSexprs depth) = .ok (nestedBody depth) := by
  induction depth generalizing level with
  | zero => rfl
  | succ depth ih =>
    have hlevel : ¬ maxBodyDepth < level + 1 := by omega
    have hcond : Operand.ofSexpr (level + 1) (.word "true") = .ok (.bool true) := by
      rw [Operand.ofSexpr, if_neg hlevel]
      rfl
    have hblock : isBlock (nestedSexprs depth) = true := by
      cases depth <;> rfl
    have hthen : branchOfSexpr (level + 1) (.list (nestedSexprs depth)) = .ok (nestedBody depth) := by
      rw [branchOfSexpr, if_pos hblock, if_neg hlevel]
      exact ih (by omega)
    have hs : Stmt.ofSexpr level (.list [.word "if", .word "true", .list (nestedSexprs depth)]) =
        .ok (.branch (.bool true) (nestedBody depth) []) :=
      Fallible.bind_eq_ok_iff.mpr ⟨_, hcond, Fallible.bind_eq_ok_iff.mpr ⟨_, hthen, rfl⟩⟩
    exact Fallible.bind_eq_ok_iff.mpr ⟨_, hs, rfl⟩

theorem bodyBlockDepth_nestedBody (depth : Nat) : bodyBlockDepth (nestedBody depth) = depth := by
  induction depth with
  | zero => rfl
  | succ depth ih => simp [nestedBody, bodyBlockDepth, Stmt.blockDepth, ih]

theorem bodyNesting_nestedBody (depth : Nat) : bodyNesting (nestedBody depth) = depth := by
  induction depth with
  | zero => rfl
  | succ depth ih => simp [nestedBody, bodyNesting, Stmt.nesting, Operand.nesting, ih]

open Document in
/-- As a value, the document is read if blocks may be nested so deep. -/
theorem ofJson_blocksDocument {depth : Nat} (h : depth ≤ maxBodyDepth) :
    Program.ofJson (blocksDocument depth) = .ok (.ofBlocks depth) := by
  have hbody (pointer : Pointer) : readReceiverBody pointer [("body", nestedBlocks depth),
      ("selector", .object [("kind", .string "internal-empty")])] = .ok (nestedBody depth) := by
    refine Fallible.bind_eq_ok_iff.mpr ⟨_, placed_eq_ok_iff.mpr (sexpr_nestedBlocks depth), ?_⟩
    exact placed_eq_ok_iff.mpr (stmts_nestedSexprs (by omega))
  have hreceiver (pointer : Pointer) : readReceiver (.object [("body", nestedBlocks depth),
      ("selector", .object [("kind", .string "internal-empty")])]) pointer =
        .ok ⟨.empty .internal, nestedBody depth, none⟩ := by
    refine Fallible.bind_eq_ok_iff.mpr ⟨_, rfl, Fallible.bind_eq_ok_iff.mpr ⟨none, rfl, ?_⟩⟩
    exact Fallible.bind_eq_ok_iff.mpr ⟨.empty .internal, rfl, Fallible.bind_eq_ok_iff.mpr ⟨_, hbody pointer, rfl⟩⟩
  have hcontract (pointer : Pointer) : readContract (.object [("name", .string "Gate"),
      ("receivers", .array [.object [("body", nestedBlocks depth),
        ("selector", .object [("kind", .string "internal-empty")])]])]) pointer =
        .ok ⟨"Gate", [], [⟨.empty .internal, nestedBody depth, none⟩]⟩ := by
    refine Fallible.bind_eq_ok_iff.mpr ⟨_, rfl, Fallible.bind_eq_ok_iff.mpr ⟨"Gate", rfl, ?_⟩⟩
    refine Fallible.bind_eq_ok_iff.mpr ⟨[], rfl, Fallible.bind_eq_ok_iff.mpr ⟨_, rfl, ?_⟩⟩
    exact Fallible.bind_eq_ok_iff.mpr ⟨_, Fallible.mapM_eq_ok_iff.mpr (.cons (hreceiver _) .nil), rfl⟩
  have hadd (pointer : Pointer) : addContract .empty [] (.object [("name", .string "Gate"),
      ("receivers", .array [.object [("body", nestedBlocks depth),
        ("selector", .object [("kind", .string "internal-empty")])]])]) pointer =
        .ok [⟨"Gate", [], [⟨.empty .internal, nestedBody depth, none⟩]⟩] :=
    Fallible.bind_eq_ok_iff.mpr ⟨_, hcontract pointer, rfl⟩
  refine Fallible.bind_eq_ok_iff.mpr ⟨_, rfl, Fallible.bind_eq_ok_iff.mpr ⟨documentSchema, rfl, ?_⟩⟩
  rw [if_neg (not_not_intro rfl)]
  refine Fallible.bind_eq_ok_iff.mpr ⟨[], rfl, Fallible.bind_eq_ok_iff.mpr ⟨.empty, rfl, ?_⟩⟩
  refine Fallible.bind_eq_ok_iff.mpr ⟨_, rfl, Fallible.bind_eq_ok_iff.mpr ⟨_, ?_, rfl⟩⟩
  exact Fallible.bind_eq_ok_iff.mpr ⟨_, hadd _, rfl⟩

/-- Of the blocks that may be nested in a body the innermost four are out of reach of bytes. -/
theorem ofBytes_blocksDocument_iff {depth : Nat} {bytes : List UInt8} {limit : Nat} (h : depth ≤ maxBodyDepth)
    (hbytes : (blocksDocument depth).IsDocument bytes) (hsize : bytes.length ≤ limit) :
    Program.ofBytes limit bytes = .ok (.ofBlocks depth) ↔ depth ≤ 60 := by
  rw [Program.ofBytes_eq_ok_iff (ofJson_blocksDocument h) (usesOwnKeys_blocksDocument depth) hbytes hsize]
  simp only [Program.ofBlocks, List.forall_mem_singleton]
  constructor
  · intro hfits
    by_contra hdeep
    rw [← bodyBlockDepth_nestedBody depth] at hdeep
    exact absurd hfits (Nat.not_le.mpr (bodyLists_le_maxBodyLists.2 (Nat.not_le.mp hdeep)))
  · intro hdepth
    rw [← bodyNesting_nestedBody depth] at hdepth
    exact bodyLists_le_maxBodyLists.1 hdepth

theorem ofBytes_exact_blocks :
    ∃ bytes e, Program.ofJson (blocksDocument 61) = .ok (.ofBlocks 61) ∧ (blocksDocument 61).IsDocument bytes ∧
      Program.ofBytes bytes.length bytes = .error (.ofCause (.json e)) ∧ e.cause = .nestingLimit := by
  have hdepth : 61 ≤ maxBodyDepth := by decide
  have hread := ofJson_blocksDocument hdepth
  have hbytes := Json.isDocument_compact (isPrintable_blocksDocument 61)
  obtain ⟨-, hrefused, -, hblocks⟩ :=
    Program.ofBytes_exact hread (usesOwnKeys_blocksDocument 61) hbytes (Nat.le_refl _)
  have hdeep : 60 < bodyBlockDepth (nestedBody 61) := by
    rw [bodyBlockDepth_nestedBody]
    decide
  obtain ⟨e, he, hcause⟩ := hrefused (hblocks ⟨_, List.mem_singleton_self _, _, List.mem_singleton_self _, hdeep⟩)
  exact ⟨_, e, hread, hbytes, he, hcause⟩

end MessageRouter

import MessageRouter.Func.Router
import MessageRouter.Proofs.Code.Header
import MessageRouter.Proofs.Code.Name
import MessageRouter.Proofs.Plan.Routes
/-!
# `Proofs.Router.Text` — the text of a router is read as its program

* `Question.code`, `RouterStmt.code`: the program of what a router asks and does.
* `RouterStmt.IsNamed`: every function it calls starts with a dollar sign, and every remark is one line.
* `RouterStmt.wrote`: named statements are written as lines that are read as their program.
* `routerProgram`, `wroteFunction_router`: the text of a router is read as its program.
* `Contract.allNamed_ofPlan`: the plans of well-formed contracts are named.
-/
namespace MessageRouter

open Code (IsName IsWord SpellsOperand SpellsPart SpellsStmt Spells WroteStmts)

namespace Func

/-! ## Programs -/

/-- What a receiver is called on. -/
def Argument.code : Argument → List Code.Expr
  | nothing => []
  | struct => [.var "msg"]
  | rest => [.var "in_msg"]
  | restAfterOpcode => [.method "in_msg" "skip_bits" [.int opcodeBits]]

/-- The bits that are left of the message. -/
def messageBits : Code.Expr := .call "slice_bits" [.var "in_msg"]

/-- The condition of a question. -/
def Question.code : Question → Code.Expr
  | isBounced => .var "msg_bounced"
  | hasOpcode => .binary .ge messageBits (.int opcodeBits)
  | opcodeIs header => .binary .eq (.var "op") (.int header.value.toNat)
  | isEmpty =>
    .binary .and (.binary .eq (.var "op") (.int 0)) (.binary .le messageBits (.int opcodeBits))
  | opcodeIsZero => .binary .eq (.var "op") (.int 0)
  | commentIs hash => .binary .eq (.var "text_op") (Code.atom ("0x" ++ hash))

namespace RouterStmt

mutual

/-- The program of a statement; remarks do nothing. -/
def code : RouterStmt → List Code.Stmt
  | remark _ | blank => []
  | declareOpcode => [.declare ["op"] (.int 0)]
  | peekOpcode => [.assign "op" (.method "in_msg" "preload_uint" [.int opcodeBits])]
  | skipMarker => [.modify none "in_msg" "skip_bits" [.int bounceMarkerBits]]
  | readStruct reader => [.modify (some "msg") "in_msg" reader []]
  | hashMessage => [.declare ["text_op"] (.call "slice_hash" [.var "in_msg"])]
  | call function argument => [.modify none "self" function argument.code]
  | answer handled => [.ret (.tensor [.var "self", .int (if handled then -1 else 0)])]
  | branch question body => [.branch question.code (codeAll body) []]

/-- The program of some statements. -/
def codeAll : List RouterStmt → List Code.Stmt
  | [] => []
  | s :: rest => s.code ++ codeAll rest

end

theorem codeAll_append (ss tt : List RouterStmt) : codeAll (ss ++ tt) = codeAll ss ++ codeAll tt := by
  induction ss with
  | nil => rfl
  | cons s rest ih => rw [List.cons_append, codeAll, codeAll, ih, List.append_assoc]

end RouterStmt

/-- A hash is one word. -/
def Question.IsNamed : Question → Prop
  | commentIs hash => ∀ c ∈ hash.toList, Code.isWordPart c = true
  | isBounced | hasOpcode | opcodeIs _ | isEmpty | opcodeIsZero => True

namespace RouterStmt

mutual

/-- Every function starts with a dollar sign, and every remark is one line. -/
def IsNamed : RouterStmt → Prop
  | remark text => '\n' ∉ text.toList
  | readStruct function | call function _ => IsName function
  | branch question body => question.IsNamed ∧ AllNamed body
  | blank | declareOpcode | peekOpcode | skipMarker | hashMessage | answer _ => True

/-- Every function starts with a dollar sign, and every remark is one line. -/
def AllNamed : List RouterStmt → Prop
  | [] => True
  | s :: rest => s.IsNamed ∧ AllNamed rest

end

theorem allNamed_append {ss tt : List RouterStmt} (hs : AllNamed ss) (ht : AllNamed tt) :
    AllNamed (ss ++ tt) := by
  induction ss with
  | nil => exact ht
  | cons s rest ih => exact ⟨hs.1, ih hs.2⟩

theorem allNamed_flatMap {α : Type} {f : α → List RouterStmt} {xs : List α}
    (h : ∀ x ∈ xs, AllNamed (f x)) : AllNamed (xs.flatMap f) := by
  induction xs with
  | nil => trivial
  | cons x rest ih =>
    rw [List.flatMap_cons]
    exact allNamed_append (h x List.mem_cons_self) (ih fun y hy => h y (List.mem_cons_of_mem _ hy))

end RouterStmt

/-! ## Lines -/

theorem isWord_self : IsWord "self" := ⟨by decide, by decide⟩

theorem isWord_message : IsWord "in_msg" := ⟨by decide, by decide⟩

theorem isWord_op : IsWord "op" := ⟨by decide, by decide⟩

theorem spells_message : SpellsOperand "in_msg".toList [.word "in_msg"] (.var "in_msg") :=
  .word isWord_message (by decide)

theorem spells_opcode : SpellsOperand "op".toList [.word "op"] (.var "op") :=
  .word isWord_op (by decide)

theorem spells_nat (n : Nat) : SpellsOperand (toString n).toList [.word (toString n)] (.int n) :=
  .number (n : Int)

theorem spells_messageBits :
    SpellsOperand "slice_bits(in_msg)".toList [.word "slice_bits", .group [.var "in_msg"]]
      messageBits :=
  SpellsOperand.call (f := "slice_bits") ⟨by decide, by decide⟩ (by decide) spells_message.part

/-- What a receiver is called on is read as such. -/
theorem Argument.exists_spells (a : Argument) :
    ∃ is, Spells a.text.toList is ∧ Code.exprs? is = some a.code := by
  cases a with
  | nothing => exact ⟨[], .nil, rfl⟩
  | struct =>
    have hmsg : SpellsOperand "msg".toList [.word "msg"] (.var "msg") :=
      .word ⟨by decide, by decide⟩ (by decide)
    exact ⟨_, hmsg.spells, hmsg.part.exprs⟩
  | rest => exact ⟨_, spells_message.spells, spells_message.part.exprs⟩
  | restAfterOpcode =>
    have hcall := SpellsOperand.method (f := "skip_bits") isWord_message (by decide)
      ⟨by decide, by decide⟩ (spells_nat opcodeBits).part
    have htext (n : String) : ("in_msg.skip_bits(" ++ n ++ ")").toList =
        "in_msg".toList ++ '.' :: ("skip_bits".toList ++ '(' :: (n.toList ++ [')'])) := by simp
    exact ⟨_, htext (toString opcodeBits) ▸ hcall.spells, hcall.part.exprs⟩

/-- A question is read as its condition. -/
theorem Question.exists_spells {q : Question} (h : q.IsNamed) :
    ∃ is, SpellsPart q.text.toList is q.code := by
  cases q with
  | isBounced =>
    have hbounced : SpellsOperand "msg_bounced".toList [.word "msg_bounced"] (.var "msg_bounced") :=
      .word ⟨by decide, by decide⟩ (by decide)
    exact ⟨_, hbounced.part⟩
  | hasOpcode =>
    have hge := spells_messageBits.binary .ge (spells_nat opcodeBits)
    have htext (n : String) : ("slice_bits(in_msg) >= " ++ n).toList = "slice_bits(in_msg)".toList ++
        ' ' :: (BinaryOp.ge.sign.toList ++ ' ' :: n.toList) := by
      simp [BinaryOp.sign, BinaryOp.word]
    exact ⟨_, htext (toString opcodeBits) ▸ hge⟩
  | opcodeIs header =>
    have hopcode := SpellsOperand.word (Code.isWord_opcode header) (Code.opcode_ne_minus header)
    rw [Code.atom_opcode] at hopcode
    have heq := spells_opcode.binary .eq hopcode
    have htext (literal : String) : ("op == " ++ literal).toList =
        "op".toList ++ ' ' :: (BinaryOp.eq.sign.toList ++ ' ' :: literal.toList) := by
      simp [BinaryOp.sign, BinaryOp.word]
    exact ⟨_, htext header.opcode ▸ heq⟩
  | isEmpty =>
    have hzero := (spells_opcode.binary .eq (spells_nat 0)).round
    have hshort := (spells_messageBits.binary .le (spells_nat opcodeBits)).round
    exact ⟨_, hzero.binary .and hshort⟩
  | opcodeIsZero => exact ⟨_, spells_opcode.binary .eq (spells_nat 0)⟩
  | commentIs hash =>
    -- with its prefix a tag is one word, which is read as a number
    have hop : SpellsOperand "text_op".toList [.word "text_op"] (.var "text_op") :=
      .word ⟨by decide, by decide⟩ (by decide)
    have hword : IsWord ("0x" ++ hash) := Code.isWord_append ⟨by decide, by decide⟩ h
    have hne : "0x" ++ hash ≠ "-" := by
      intro heq
      have hlist := congrArg String.toList heq
      simp at hlist
    have heq := hop.binary .eq (.word hword hne)
    have htext : ("text_op == 0x" ++ hash).toList =
        "text_op".toList ++ ' ' :: (BinaryOp.eq.sign.toList ++ ' ' :: ("0x" ++ hash).toList) := by
      simp [BinaryOp.sign, BinaryOp.word]
    exact ⟨_, htext ▸ heq⟩

/-- The line that opens a branch. -/
theorem Question.spellsLine_if {q : Question} (h : q.IsNamed) :
    Code.SpellsLine ("if (" ++ q.text ++ ")") [.word "if", .group [q.code]] := by
  obtain ⟨is, hquestion⟩ := exists_spells h
  exact Code.spellsLine_if hquestion (by simp)

namespace RouterStmt

theorem spellsStmt_declareOpcode : SpellsStmt "int op = 0;".toList (.declare ["op"] (.int 0)) :=
  SpellsStmt.declare (.inr rfl) isWord_op (spells_nat 0).part

theorem spellsStmt_peekOpcode :
    SpellsStmt ("op = in_msg.preload_uint(" ++ toString opcodeBits ++ ");").toList
      (.assign "op" (.method "in_msg" "preload_uint" [.int opcodeBits])) := by
  have hcall := SpellsOperand.method (f := "preload_uint") isWord_message (by decide)
    ⟨by decide, by decide⟩ (spells_nat opcodeBits).part
  have hop : "op" ∉ ["return", "throw", "var", "int"] := by decide
  have hassign := SpellsStmt.assign isWord_op hop hcall.part
  have htext (n : String) : ("op = in_msg.preload_uint(" ++ n ++ ");").toList =
      "op".toList ++ (' ' :: '=' :: ' ' ::
        ("in_msg".toList ++ '.' :: ("preload_uint".toList ++ '(' :: (n.toList ++ [')']))) ++ [';']) := by
    simp
  exact htext (toString opcodeBits) ▸ hassign

/-- A call that changes a variable. -/
theorem spellsStmt_modify {v f text : String} (hv : IsWord v)
    (hne : v ∉ ["return", "throw", "var", "int"]) (hf : IsWord f) {is : List Code.Item}
    {args : List Code.Expr} (h : Spells text.toList is) (hargs : Code.exprs? is = some args) :
    SpellsStmt (v ++ "~" ++ f ++ "(" ++ text ++ ");").toList (.modify none v f args) := by
  simpa using SpellsStmt.modify hv hne hf h hargs

theorem spellsStmt_skipMarker :
    SpellsStmt ("in_msg~skip_bits(" ++ toString bounceMarkerBits ++ ");").toList
      (.modify none "in_msg" "skip_bits" [.int bounceMarkerBits]) :=
  spellsStmt_modify (f := "skip_bits") isWord_message (by decide) ⟨by decide, by decide⟩
    (spells_nat bounceMarkerBits).spells (spells_nat bounceMarkerBits).part.exprs

theorem spellsStmt_readStruct {reader : String} (h : IsName reader) :
    SpellsStmt ("var msg = in_msg~" ++ reader ++ "();").toList
      (.modify (some "msg") "in_msg" reader []) := by
  have hmsg : IsWord "msg" := ⟨by decide, by decide⟩
  simpa using SpellsStmt.modifyInto hmsg isWord_message h.isWord

theorem spellsStmt_hashMessage :
    SpellsStmt "var text_op = slice_hash(in_msg);".toList
      (.declare ["text_op"] (.call "slice_hash" [.var "in_msg"])) := by
  have hcall := SpellsOperand.call (f := "slice_hash") ⟨by decide, by decide⟩ (by decide)
    spells_message.part
  have hhash : IsWord "text_op" := ⟨by decide, by decide⟩
  exact SpellsStmt.declare (.inl rfl) hhash hcall.part

theorem spellsStmt_call {function : String} (h : IsName function) (argument : Argument) :
    SpellsStmt ("self~" ++ function ++ "(" ++ argument.text ++ ");").toList
      (.modify none "self" function argument.code) := by
  obtain ⟨is, hspells, hargs⟩ := argument.exists_spells
  exact spellsStmt_modify isWord_self (by decide) h.isWord hspells hargs

theorem spellsStmt_answer (handled : Bool) :
    SpellsStmt ("return (self, " ++ toString handled ++ ");").toList
      (.ret (.tensor [.var "self", .int (if handled then -1 else 0)])) := by
  have hself : SpellsOperand "self".toList [.word "self"] (.var "self") := .word isWord_self (by decide)
  have hpair := SpellsOperand.pair hself.part (SpellsOperand.bool handled).part
  simpa using SpellsStmt.ret hpair.part

mutual

/-- A named statement is written as lines that are read as its program. -/
theorem wrote {s : RouterStmt} (h : s.IsNamed) (emitComments : Bool) (w : Writer) :
    WroteStmts w (s.write emitComments w) s.code := by
  cases s with
  | remark text => exact .remark h emitComments w
  | blank => exact .blank w
  | declareOpcode => exact .line spellsStmt_declareOpcode w
  | peekOpcode => exact .line spellsStmt_peekOpcode w
  | skipMarker => exact .line spellsStmt_skipMarker w
  | readStruct reader => exact .line (spellsStmt_readStruct h) w
  | hashMessage => exact .line spellsStmt_hashMessage w
  | call function argument => exact .line (spellsStmt_call h argument) w
  | answer handled => exact .line (spellsStmt_answer handled) w
  | branch question body => exact .branch (Question.spellsLine_if h.1) (wroteAll h.2 emitComments _) rfl

/-- Named statements are written as lines that are read as their program. -/
theorem wroteAll {ss : List RouterStmt} (h : AllNamed ss) (emitComments : Bool) (w : Writer) :
    WroteStmts w (writeAll emitComments ss w) (codeAll ss) := by
  cases ss with
  | nil => exact .refl w
  | cons s rest => exact (wrote h.1 emitComments w).trans (wroteAll h.2 emitComments _)

end

end RouterStmt

/-! ## Routers -/

/-- The names of a router's parameters. -/
def routerNames (d : Direction) : List String :=
  ["self", "in_msg"] ++
    match d with
    | .internal => ["msg_bounced"]
    | .external => []

/-- The program of the router of a plan. -/
def routerProgram (p : Plan) : Code.Function :=
  ⟨p.function, routerNames p.direction, RouterStmt.codeAll (RouterStmt.ofPlan p)⟩

theorem spellsParameters_router (p : Plan) :
    Code.SpellsParameters (routerParameters p) (routerNames p.direction) := by
  have hself : stackType p.stateFields ++ " self" = stackType p.stateFields ++ " " ++ "self" := by
    rw [String.append_assoc]
    rfl
  have hbounced : Code.SpellsParameters
      (match p.direction with
        | .internal => ["int msg_bounced"]
        | .external => [])
      (match p.direction with
        | .internal => ["msg_bounced"]
        | .external => []) := by
    have hword : IsWord "msg_bounced" := ⟨by decide, by decide⟩
    cases p.direction with
    | internal => exact .cons Code.spells_int hword .nil
    | external => exact .nil
  rw [routerParameters, hself]
  exact .cons (Code.spells_stackType p.stateFields) isWord_self
    (.cons Code.spells_slice isWord_message hbounced)

/-- The line that opens a router. -/
theorem exists_spellsHeader_router {p : Plan} (hfunction : IsName p.function) :
    ∃ is, Code.SpellsHeader (routerHeader p) p.function (routerNames p.direction) is := by
  have hline : routerHeader p = "(" ++ stackType p.stateFields ++ ", " ++ "int" ++ ") " ++
      p.function ++ tuple (routerParameters p) ++ " impure " ++ "inline_ref" := by
    apply String.toList_inj.mp
    simp [routerHeader]
  rw [hline]
  exact Code.exists_spellsHeader (Code.spells_stackType p.stateFields).part
    Code.spells_int.part hfunction.isWord (.inr rfl) (spellsParameters_router p)

/-- A named plan is written as lines that are read as its program. -/
theorem wroteFunction_router {p : Plan} (hfunction : IsName p.function)
    (h : RouterStmt.AllNamed (RouterStmt.ofPlan p)) (emitComments : Bool) (w : Writer) :
    Code.WroteFunction w (writeRouter emitComments p w) (routerProgram p) := by
  obtain ⟨is, hheader⟩ := exists_spellsHeader_router hfunction
  exact .block (.refl w) hheader (RouterStmt.wroteAll h emitComments _) rfl

end Func

/-! ## Named plans -/

/-- The functions that a route names start with a dollar sign, and what it remarks is one line. -/
def Plan.Route.IsNamed : Plan.Route → Prop
  | .opcode (.message name _ reader h) =>
    '\n' ∉ name.toList ∧ IsName reader ∧ IsName h.function
  | .opcode (.empty h) | .anyComment h | .any h | .anyBounced h => IsName h.function
  | .comment arm => (∀ c ∈ arm.hash.toList, Code.isWordPart c = true) ∧ IsName arm.handler.function
  | .bounced arm => '\n' ∉ arm.message.toList ∧ IsName arm.reader ∧ IsName arm.handler.function

namespace Contract

variable {c : Contract} {registry : Registry} {d : Direction} {r : Receiver} {i : Nat}
  {route : Plan.Route} {routes : List Plan.Route}

/-- The routes of a well-formed contract are named. -/
theorem isNamed_of_isRoute (hregistry : registry.WellFormed) (hc : c.WellFormed)
    (h : c.IsRoute registry r i route) : route.IsNamed := by
  -- the function of a receiver has the name of its message in its own
  have hfunction {f : String} (hf : c.functionName r = .ok f)
      (hmessage : ∀ name, r.selector.message? = some name → ∃ l, registry.layout name = .ok l) :
      IsName f := by
    refine isName_functionName hc.name (fun name hname => ?_) hf
    obtain ⟨l, hl⟩ := hmessage name hname
    exact Registry.isValid_of_layout hregistry hl
  cases h with
  | @message d name binding l f hs hl hf =>
    have hvalid := Registry.isValid_of_layout hregistry hl
    refine ⟨newline_notMem_of_isValid hvalid, ?_, hfunction hf fun other hother => ?_⟩
    · rw [(Registry.mem_of_layout hl).2]
      exact Func.Name.isName_readerName hvalid false
    · rw [hs] at hother
      exact ⟨l, Option.some.inj hother ▸ hl⟩
  | @bounced name binding isPartial l f hs hl hf =>
    have hvalid := Registry.isValid_of_layout hregistry hl
    refine ⟨newline_notMem_of_isValid hvalid, ?_, hfunction hf fun other hother => ?_⟩
    · rw [(Registry.mem_of_layout hl).2]
      exact Func.Name.isName_readerName hvalid isPartial
    · rw [hs] at hother
      exact ⟨l, Option.some.inj hother ▸ hl⟩
  | comment hs ht hf =>
    exact ⟨fun _ hch => isWordPart_of_mem_tag ht hch, hfunction hf (by rw [hs]; exact nofun)⟩
  | empty hs hf | anyComment hs hf | any hs hf | anyBounced hs hf =>
    exact hfunction hf (by rw [hs]; exact nofun)

end Contract

namespace Func
namespace RouterStmt

theorem isNamed_remark {text : String} (h : '\n' ∉ text.toList) : (remark text).IsNamed := h

theorem allNamed_parseOpcode : AllNamed parseOpcode :=
  ⟨isNamed_remark (by decide), trivial, ⟨trivial, trivial, trivial⟩, trivial⟩

theorem allNamed_handle {h : Plan.Handler} (hname : IsName h.function) (argument : Argument) :
    AllNamed (handle h argument) :=
  ⟨hname, trivial, trivial⟩

theorem allNamed_handleStruct {reader : String} {h : Plan.Handler} (hreader : IsName reader)
    (hname : IsName h.function) : AllNamed (handleStruct reader h) :=
  ⟨hreader, allNamed_handle hname .struct⟩

theorem allNamed_ofBounceArm {arm : Plan.BounceArm} (h : (Plan.Route.bounced arm).IsNamed) :
    AllNamed (ofBounceArm arm) :=
  ⟨isNamed_remark (newline_notMem_append (by decide) h.1),
    ⟨trivial, allNamed_handleStruct h.2.1 h.2.2⟩, trivial⟩

theorem allNamed_ofBounceFallback {fallback : Option Plan.Handler}
    (h : ∀ handler, fallback = some handler → IsName handler.function) :
    AllNamed (ofBounceFallback fallback) := by
  cases fallback with
  | none => exact ⟨trivial, trivial⟩
  | some handler => exact ⟨isNamed_remark (by decide), allNamed_handle (h handler rfl) .rest⟩

theorem allNamed_ofBounceStage {stage : Plan.BounceStage}
    (harms : ∀ arm ∈ stage.arms, (Plan.Route.bounced arm).IsNamed)
    (hfallback : ∀ handler, stage.fallback = some handler → IsName handler.function) :
    AllNamed (ofBounceStage stage) := by
  refine ⟨isNamed_remark (by decide), ⟨trivial, ?_⟩, trivial, trivial⟩
  refine allNamed_append (allNamed_append (allNamed_append ?_ ?_) ?_) ?_
  · split
    · exact ⟨isNamed_remark (by decide), trivial, trivial⟩
    · trivial
  · split
    · trivial
    · exact allNamed_parseOpcode
  · exact allNamed_flatMap fun arm harm => allNamed_ofBounceArm (harms arm harm)
  · exact allNamed_ofBounceFallback hfallback

theorem allNamed_ofOpcodeArm {arm : Plan.OpcodeArm} (h : (Plan.Route.opcode arm).IsNamed) :
    AllNamed (ofOpcodeArm arm) := by
  cases arm with
  | message name header reader handler =>
    have hremark := newline_notMem_append (newline_notMem_append (x := "Receive ") (by decide) h.1)
      (y := " message") (by decide)
    exact ⟨trivial, isNamed_remark hremark, ⟨trivial, allNamed_handleStruct h.2.1 h.2.2⟩, trivial⟩
  | empty handler =>
    exact ⟨trivial, isNamed_remark (by decide), ⟨trivial, allNamed_handle h .nothing⟩, trivial⟩

theorem allNamed_ofCommentArm {arm : Plan.CommentArm} (h : (Plan.Route.comment arm).IsNamed) :
    AllNamed (ofCommentArm arm) := by
  have hremark := newline_notMem_append
    (newline_notMem_append (x := "Receive ") (by decide) (Text.newline_notMem_quoted arm.text))
    (y := " message") (by decide)
  exact ⟨isNamed_remark hremark, ⟨h.1, allNamed_handle h.2 .nothing⟩, trivial⟩

theorem allNamed_ofCommentStage {stage : Plan.CommentStage}
    (harms : ∀ arm ∈ stage.comments, (Plan.Route.comment arm).IsNamed)
    (hfallback : ∀ handler, stage.fallback = some handler → IsName handler.function) :
    AllNamed (ofCommentStage stage) := by
  refine ⟨trivial, isNamed_remark (by decide), ⟨trivial, ?_⟩, trivial⟩
  refine allNamed_append (allNamed_append ?_ ?_) ?_
  · split
    · trivial
    · exact ⟨trivial, trivial⟩
  · exact allNamed_flatMap fun arm harm => allNamed_ofCommentArm (harms arm harm)
  · cases hstage : stage.fallback with
    | none => trivial
    | some handler =>
      exact ⟨isNamed_remark (by decide),
        ⟨trivial, allNamed_handle (hfallback handler hstage) .restAfterOpcode⟩, trivial⟩

theorem allNamed_ofFallback {fallback : Option Plan.Handler}
    (h : ∀ handler, fallback = some handler → IsName handler.function) :
    AllNamed (ofFallback fallback) := by
  cases fallback with
  | none => exact ⟨trivial, trivial, trivial⟩
  | some handler =>
    exact ⟨trivial, isNamed_remark (by decide), allNamed_handle (h handler rfl) .rest⟩

/-- What the router of named routes does is named. -/
theorem allNamed_ofPlan {p : Plan} (h : ∀ route ∈ p.routes, route.IsNamed) : AllNamed (ofPlan p) := by
  obtain ⟨hbounced, hopcodes, hcomments, hfallback⟩ := Plan.forall_mem_routes.mp h
  -- one goal for each stage, in the order of the router
  refine allNamed_append (allNamed_append (allNamed_append (allNamed_append ?_ ?_) ?_) ?_) ?_
  · cases hstage : p.bounced with
    | none => trivial
    | some stage =>
      obtain ⟨harms, hany⟩ := hbounced stage hstage
      exact allNamed_ofBounceStage harms hany
  · exact allNamed_parseOpcode
  · exact allNamed_flatMap fun arm harm => allNamed_ofOpcodeArm (hopcodes arm harm)
  · cases hstage : p.comments with
    | none => trivial
    | some stage =>
      obtain ⟨harms, hany⟩ := hcomments stage hstage
      exact allNamed_ofCommentStage harms hany
  · exact allNamed_ofFallback hfallback

end RouterStmt

/-- What the router of a plan of a well-formed contract does is named. -/
theorem allNamed_router {c : Contract} {registry : Registry} {d : Direction} {p : Plan}
    (hregistry : registry.WellFormed) (hc : c.WellFormed) (hp : c.plan registry d = .ok p) :
    IsName p.function ∧ RouterStmt.AllNamed (RouterStmt.ofPlan p) := by
  obtain ⟨-, routes, hroutes, rfl⟩ := Contract.plan_eq_ok_iff.mp hp
  refine ⟨Name.isName_router hc.name d, RouterStmt.allNamed_ofPlan fun route hroute => ?_⟩
  obtain ⟨r, i, -, hisRoute⟩ := Contract.exists_isRoute hroutes (Plan.routes_ofRoutes_subset hroute)
  exact Contract.isNamed_of_isRoute hregistry hc hisRoute

/-- The router that is written for a plan of a well-formed contract is read as the plan's program. -/
theorem wroteFunction_router_of_plan {c : Contract} {registry : Registry} {d : Direction} {p : Plan}
    (hregistry : registry.WellFormed) (hc : c.WellFormed) (hp : c.plan registry d = .ok p)
    (emitComments : Bool) (w : Writer) :
    Code.WroteFunction w (writeRouter emitComments p w) (routerProgram p) := by
  obtain ⟨hfunction, hnamed⟩ := allNamed_router hregistry hc hp
  exact wroteFunction_router hfunction hnamed emitComments w

theorem exists_routerText_of_plan {c : Contract} {registry : Registry} {d : Direction} {p : Plan}
    (hregistry : registry.WellFormed) (hc : c.WellFormed) (hp : c.plan registry d = .ok p)
    (emitComments : Bool) (w : Writer) :
    ∃ text, (writeRouter emitComments p w).text = w.text ++ text ∧
      Code.Function.ofText? text = some (routerProgram p) :=
  (wroteFunction_router_of_plan hregistry hc hp emitComments w).exists_text

end Func
end MessageRouter

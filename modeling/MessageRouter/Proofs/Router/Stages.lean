import MessageRouter.Proofs.Delivery.Selection
import MessageRouter.Proofs.Plan.Route
import MessageRouter.Proofs.Router.Library
import MessageRouter.Proofs.Router.Text
/-!
# `Proofs.Router.Stages` — each stage of a router chooses as the simulation does

* `Selection.ending`: where a router ends that makes some choice.
* `Sees`: the variables of a router hold the state and the message.
* `Chooses`: statements that choose what becomes of a message, or go on where they choose nothing. One stage
  goes on where the one before it has chosen nothing.
* `chooses_handle`, `chooses_handleStruct`: a receiver is called with what it gets in the simulation.
* `chooses_ofBounceStage`, `chooses_ofOpcodeArm`, `chooses_ofCommentStage`, `chooses_ofFallback`: the stages.
-/
namespace MessageRouter

open Code (Env Val Stop exec exec_append exec_singleton)
open Func (RouterStmt Question Argument)
open Func.RouterStmt (codeAll)

namespace Simulator

/-- The values that a receiver is called on besides the state. -/
def Received.vals : Received → List Val
  | .nothing => []
  | .struct r => [.struct r]
  | .slice s => [.slice s]

/-- What a router gives back: the state, and whether the message was handled. -/
def answerOf (state : Record) (handled : Bool) : Val := .tensor [.struct state, .ofBool handled]

/-- Where a router ends that makes some choice, if receivers do to the state what `handle` says. -/
def Selection.ending (handle : (f : String) → (state : Record) → (args : List Val) → Except Stop Record)
    (state : Record) : Except Exit (Selection Plan.Handler) → Except Stop Val
  | .error e => .error (.exit e.code)
  | .ok (.call h received) =>
    (handle h.function state (Received.vals received)).map (answerOf · true)
  | .ok .swallowed => .ok (answerOf state true)
  | .ok .unhandled => .ok (answerOf state false)

/-- The variables of a router hold the state and the message. -/
structure Sees (env : Env) (state : Record) (s : Slice) : Prop where
  self : env.get? "self" = some (.struct state)
  message : env.get? "in_msg" = some (.slice s)

section Stages

variable {registry : Registry}
  {handle : (f : String) → (state : Record) → (args : List Val) → Except Stop Record}
  {state : Record} {s : Slice} {env env' env'' : Env} {ss tt : List RouterStmt}
  {a b : Option (Except Exit (Selection Plan.Handler))}

/-- Statements that choose what becomes of a message, or go on where they choose nothing. -/
def Chooses (registry : Registry)
    (handle : (f : String) → (state : Record) → (args : List Val) → Except Stop Record)
    (state : Record) (ss : List RouterStmt) (env : Env)
    (choice : Option (Except Exit (Selection Plan.Handler))) (env' : Env) : Prop :=
  exec (.ofRegistry registry handle) (codeAll ss) env =
    match choice with
    | some x => (Selection.ending handle state x).map .returned
    | none => .ok (.next env')

/-! ## Sequences -/

theorem Chooses.nil (env : Env) : Chooses registry handle state [] env none env := rfl

/-- Later statements choose where earlier ones have chosen nothing. -/
theorem Chooses.append (h : Chooses registry handle state ss env a env')
    (h' : a = none → Chooses registry handle state tt env' b env'') :
    Chooses registry handle state (ss ++ tt) env (a.or b) env'' := by
  unfold Chooses at h ⊢
  rw [Func.RouterStmt.codeAll_append, exec_append, h]
  cases a with
  | none => exact h' rfl
  | some x =>
    show (Except.map _ (Selection.ending handle state x) >>= _) = Except.map _ _
    cases Selection.ending handle state x <;> rfl

/-- Nothing runs after a choice. -/
theorem Chooses.append_of_some {x : Except Exit (Selection Plan.Handler)}
    (h : Chooses registry handle state ss env (some x) env') :
    Chooses registry handle state (ss ++ tt) env (some x) env' :=
  h.append (b := none) nofun

/-- Where nothing is chosen by the statements for one element after the other, the next are tried. -/
theorem Chooses.flatMap {α : Type} {f : α → List RouterStmt} {xs : List α}
    {choose : α → Option (Except Exit (Selection Plan.Handler))}
    (h : ∀ x ∈ xs, Chooses registry handle state (f x) env (choose x) env) :
    Chooses registry handle state (xs.flatMap f) env (xs.findSome? choose) env := by
  induction xs with
  | nil => exact .nil env
  | cons x rest ih =>
    have hrest := ih fun y hy => h y (List.mem_cons_of_mem _ hy)
    have hall := (h x List.mem_cons_self).append fun _ => hrest
    rw [List.flatMap_cons, List.findSome?_cons]
    cases hx : choose x with
    | none =>
      rw [hx] at hall
      exact hall
    | some y =>
      rw [hx] at hall
      exact hall

/-! ## Questions -/

/-- A question is answered. -/
def Answers (env : Env) (q : Question) (b : Bool) : Prop := Code.eval env q.code = .ok (.ofBool b)

/-- A branch whose question is answered with yes does what its body does. -/
theorem Chooses.branch {q : Question} (hq : Answers env q true)
    (h : Chooses registry handle state ss ([] :: env) a env') :
    Chooses registry handle state [.branch q ss] env a env'.tail := by
  unfold Chooses at h ⊢
  show exec _ [.branch q.code (codeAll ss) []] env = _
  rw [exec_singleton, Code.execStmt, hq]
  show (exec _ (codeAll ss) ([] :: env) >>= _) = _
  rw [h]
  cases a with
  | none => rfl
  | some x =>
    show (Except.map _ (Selection.ending handle state x) >>= _) = Except.map _ _
    cases Selection.ending handle state x <;> rfl

/-- A branch whose question is answered with no does nothing. -/
theorem Chooses.skip {q : Question} (hq : Answers env q false) :
    Chooses registry handle state [.branch q ss] env none env := by
  unfold Chooses
  show exec _ [.branch q.code (codeAll ss) []] env = _
  rw [exec_singleton, Code.execStmt, hq]
  rfl

/-- A branch that always chooses does so if its question is answered with yes. -/
theorem Chooses.guard {q : Question} {p : Bool} (hq : Answers env q p)
    {x : Except Exit (Selection Plan.Handler)}
    (h : p = true → Chooses registry handle state ss ([] :: env) (some x) ([] :: env)) :
    Chooses registry handle state [.branch q ss] env (if p then some x else none) env := by
  cases p with
  | true => exact Chooses.branch hq (h rfl)
  | false => exact .skip hq

/-! ## Variables -/

theorem Sees.push (h : Sees env state s) : Sees ([] :: env) state s := by
  constructor
  · rw [Env.get?_push, h.self]
  · rw [Env.get?_push, h.message]

/-- Another variable changes neither. -/
theorem Sees.declare (h : Sees env state s) {n : String} (hself : "self" ≠ n) (hmsg : "in_msg" ≠ n)
    (v : Val) : Sees (env.declare n v) state s := by
  constructor
  · rw [Env.get?_declare, if_neg hself, h.self]
  · rw [Env.get?_declare, if_neg hmsg, h.message]

theorem get_of_get? {n : String} {v : Val} (h : env.get? n = some v) : env.get n = .ok v := by
  rw [Env.get, h]

/-- The message can be replaced by what is left of it. -/
theorem Sees.exists_setMessage (h : Sees env state s) (rest : Slice) :
    ∃ env', env.set "in_msg" (.slice rest) = .ok env' ∧ Sees env' state rest := by
  obtain ⟨env', hset, hget⟩ := Env.exists_set h.message (.slice rest)
  refine ⟨env', hset, ?_, ?_⟩
  · rw [hget, if_neg (by decide), h.self]
  · rw [hget, if_pos rfl]

/-! ### Conditions -/

theorem eval_binary (op : BinaryOp) {x y : Code.Expr} {i j : Int} (hx : Code.eval env x = .ok (.int i))
    (hy : Code.eval env y = .ok (.int j)) :
    Code.eval env (.binary op x y) = .ok (Code.applyBinary op i j) := by
  rw [Code.eval, hx, hy]
  rfl

theorem eval_messageBits (h : Sees env state s) :
    Code.eval env Func.messageBits = .ok (.int s.remaining) := by
  simp only [Func.messageBits, Code.eval, Code.evalAll, get_of_get? h.message]
  rfl

theorem answers_hasOpcode (h : Sees env state s) :
    Answers env .hasOpcode (opcodeBits ≤ s.remaining) := by
  have heval := eval_binary .ge (eval_messageBits h) (y := .int opcodeBits) rfl
  have hle : decide ((opcodeBits : Int) ≤ s.remaining) = decide (opcodeBits ≤ s.remaining) :=
    decide_eq_decide.mpr Int.ofNat_le
  show _ = Except.ok (Val.ofBool (decide _))
  rw [← hle]
  exact heval

section Opcode

variable {n : Nat} (hop : env.get? "op" = some (.int n))

include hop

theorem answers_opcodeIs (header : Header) :
    Answers env (.opcodeIs header) (header.value.toNat = n) := by
  have hvar : Code.eval env (.var "op") = .ok (.int n) := get_of_get? hop
  have heval := eval_binary .eq hvar (y := .int header.value.toNat) rfl
  have heq : decide ((n : Int) = header.value.toNat) = decide (header.value.toNat = n) :=
    decide_eq_decide.mpr (Int.ofNat_inj.trans eq_comm)
  show _ = Except.ok (Val.ofBool (decide _))
  rw [← heq]
  exact heval

theorem answers_opcodeIsZero : Answers env .opcodeIsZero (n = 0) := by
  have hvar : Code.eval env (.var "op") = .ok (.int n) := get_of_get? hop
  have heval := eval_binary .eq hvar (y := .int 0) rfl
  have heq : decide ((n : Int) = 0) = decide (n = 0) := decide_eq_decide.mpr Int.natCast_eq_zero
  show _ = Except.ok (Val.ofBool (decide _))
  rw [← heq]
  exact heval

/-- Both halves are true or false with all their bits. -/
theorem answers_isEmpty (h : Sees env state s) :
    Answers env .isEmpty (n = 0 && s.remaining ≤ opcodeBits) := by
  have hzero : Code.eval env (Question.code .opcodeIsZero) = _ := answers_opcodeIsZero hop
  have hshort := eval_binary .le (eval_messageBits h) (y := .int opcodeBits) rfl
  have hle : decide ((s.remaining : Int) ≤ opcodeBits) = decide (s.remaining ≤ opcodeBits) :=
    decide_eq_decide.mpr Int.ofNat_le
  have hland : ∀ p q : Bool, (if p then (-1 : Int) else 0).land (if q then -1 else 0) =
      if p && q then -1 else 0 := by decide +kernel
  have hand := eval_binary .and hzero hshort
  rw [Code.applyBinary, hland, hle] at hand
  exact hand

end Opcode

/-- A tag is compared as a number, and no two tags are of one number. -/
theorem answers_commentIs (hhash : env.get? "text_op" = some (.int (Code.hashNumber s)))
    {bytes : List UInt8} (hbytes : bytes.length = 32) :
    Answers env (.commentIs (Text.hexBytes bytes)) (Text.hexBytes bytes = s.hashText) := by
  have hvar : Code.eval env (.var "text_op") = .ok (.int (Code.hashNumber s)) := get_of_get? hhash
  have hne : bytes ≠ [] := by
    rintro rfl
    exact nomatch hbytes
  have hatom : Code.eval env (Code.atom ("0x" ++ Text.hexBytes bytes)) =
      .ok (.int (Bits.toNat (Bits.ofBytes bytes))) := by
    rw [Code.atom_hexBytes hne]
    rfl
  have htag : Text.hexBytes bytes = s.hashText ↔
      Bits.toNat (Bits.ofBytes bytes) = Code.hashNumber s :=
    Code.hexBytes_eq_iff (hbytes.trans (Cell.length_hash s.toCell).symm)
  have heq : decide ((Code.hashNumber s : Int) = Bits.toNat (Bits.ofBytes bytes)) =
      decide (Text.hexBytes bytes = s.hashText) :=
    decide_eq_decide.mpr (Int.ofNat_inj.trans (eq_comm.trans htag.symm))
  show _ = Except.ok (Val.ofBool (decide _))
  rw [← heq]
  exact eval_binary .eq hvar hatom

/-! ## Opcodes and markers -/

theorem set?_declare (env : Env) (n : String) (v w : Val) :
    (env.declare n v).set? n w = some (env.declare n w) := by
  have hset (block : Code.Block) : Env.setIn n w ((n, v) :: block) = some ((n, w) :: block) :=
    if_pos rfl
  cases env with
  | nil => exact Env.set?_cons_of_eq_some (hset [])
  | cons block env => exact Env.set?_cons_of_eq_some (hset block)

/-- The opcode is put into its variable, which stands outside of the block that does so. -/
theorem chooses_peekOpcode (h : Sees env state s) (hlen : opcodeBits ≤ s.remaining) (v : Val) :
    Chooses registry handle state [.peekOpcode] ([] :: env.declare "op" v) none
      ([] :: env.declare "op" (.int s.opcode)) := by
  have hopcode : s.opcode = Bits.toNat (s.bits.take opcodeBits) := if_pos hlen
  have hcall : Code.applyMethod "preload_uint" (.slice s) [.int opcodeBits] = .ok (.int s.opcode) := by
    rw [hopcode]
    show (if s.remaining < opcodeBits then _ else _) = _
    rw [if_neg (Nat.not_lt.mpr hlen)]
    rfl
  have hset : Env.set ([] :: env.declare "op" v) "op" (.int s.opcode) =
      .ok ([] :: env.declare "op" (.int s.opcode)) := by
    rw [Env.set, Env.set?_cons_of_eq_none rfl, set?_declare]
    rfl
  have hmessage := (h.declare (n := "op") (by decide) (by decide) v).push.message
  unfold Chooses
  show exec _ [.assign "op" (.method "in_msg" "preload_uint" [.int opcodeBits])] _ = _
  rw [exec_singleton, Code.execStmt, Code.eval, get_of_get? hmessage]
  show (Code.applyMethod "preload_uint" (.slice s) [.int opcodeBits] >>= _) = _
  rw [hcall]
  show (Env.set _ _ _ >>= _) = _
  rw [hset]
  rfl

/-- The opcode is found where there is one, and is zero otherwise. -/
theorem chooses_parseOpcode (h : Sees env state s) :
    Chooses registry handle state RouterStmt.parseOpcode env none
      (env.declare "op" (.int s.opcode)) := by
  have hdeclare : Chooses registry handle state [.declareOpcode] env none
      (env.declare "op" (.int 0)) := rfl
  have hbranch : Chooses registry handle state [.branch .hasOpcode [.peekOpcode]]
      (env.declare "op" (.int 0)) none (env.declare "op" (.int s.opcode)) := by
    have hquestion := answers_hasOpcode (h.declare (n := "op") (by decide) (by decide) (.int 0))
    by_cases hlen : opcodeBits ≤ s.remaining
    · rw [decide_eq_true hlen] at hquestion
      exact Chooses.branch hquestion (chooses_peekOpcode h hlen _)
    · have hzero : s.opcode = 0 := if_neg hlen
      rw [decide_eq_false hlen] at hquestion
      rw [hzero]
      exact .skip hquestion
  exact hdeclare.append (b := none) fun _ => hbranch

variable (registry handle) in
/-- The marker is skipped, or the message is too short for it. -/
theorem exists_chooses_skipMarker (h : Sees env state s) :
    ∃ env', match skip bounceMarkerBits s with
      | .ok rest => Sees env' state rest ∧
        Chooses registry handle state [.skipMarker] env none env'
      | .error e => Chooses registry handle state [.skipMarker] env (some (.error e)) env' := by
  -- the call changes the message where it is, so all depends on what the method gives
  have hexec (x : Except Stop Val)
      (hx : Code.applyMethod "skip_bits" (.slice s) [.int bounceMarkerBits] = x) :
      exec (.ofRegistry registry handle) (codeAll [.skipMarker]) env =
        x >>= fun v => env.set "in_msg" v >>= fun env => .ok (.next env) := by
    show exec _ [.modify none "in_msg" "skip_bits" [.int bounceMarkerBits]] _ = _
    rw [exec_singleton, Code.execStmt, Code.execModify, get_of_get? h.message]
    show ((Except.map (·, Val.unit) (Code.applyMethod "skip_bits" (.slice s) [.int bounceMarkerBits]) >>= _)
      >>= _) = _
    rw [hx]
    cases x with
    | error e => rfl
    | ok v =>
      show ((env.set "in_msg" v >>= _) >>= _) = env.set "in_msg" v >>= _
      cases env.set "in_msg" v <;> rfl
  rw [skip_eq]
  by_cases hlen : bounceMarkerBits ≤ s.remaining
  · obtain ⟨env', hset, hsees⟩ := h.exists_setMessage (s.drop bounceMarkerBits)
    have hskip := hexec (.ok (.slice (s.drop bounceMarkerBits))) <| by
      show (if s.remaining < bounceMarkerBits then _ else _) = _
      rw [if_neg (Nat.not_lt.mpr hlen)]
      rfl
    rw [if_pos hlen]
    refine ⟨env', hsees, ?_⟩
    unfold Chooses
    rw [hskip]
    show (env.set _ _ >>= _) = _
    rw [hset]
    rfl
  · have hskip := hexec (.error (.exit Code.underflow)) <| by
      show (if s.remaining < bounceMarkerBits then _ else _) = _
      rw [if_pos (Nat.lt_of_not_le hlen)]
    rw [if_neg hlen]
    refine ⟨env, ?_⟩
    unfold Chooses
    rw [hskip]
    rfl

/-! ## Receivers -/

/-- A receiver is called, and what it makes of the state is given back. -/
theorem chooses_handle (h : Sees env state s) (hd : Plan.Handler) {argument : Argument}
    {received : Received} (hargs : Code.evalAll env argument.code = .ok (Received.vals received)) :
    Chooses registry handle state (RouterStmt.handle hd argument) env (some (.ok (.call hd received)))
      env := by
  unfold Chooses
  show exec _ [.modify none "self" hd.function argument.code,
    .ret (.tensor [.var "self", .int (-1)])] env = _
  rw [exec, Code.execStmt, Code.execModify, get_of_get? h.self, hargs]
  show (((Except.map _ (handle hd.function state (Received.vals received)) >>= _) >>= _) >>= _) = _
  show _ = Except.map _ (Except.map _ (handle hd.function state (Received.vals received)))
  cases handle hd.function state (Received.vals received) with
  | error e => rfl
  | ok state' =>
    obtain ⟨env'', hset, hget⟩ := Env.exists_set h.self (.struct state')
    have hself : env''.get "self" = .ok (.struct state') := get_of_get? (by rw [hget, if_pos rfl])
    show (((env.set "self" (.struct state') >>= _) >>= _) >>= _) = _
    rw [hset]
    show exec _ [.ret (.tensor [.var "self", .int (-1)])] env'' = _
    rw [exec_singleton, Code.execStmt, Code.eval, Code.evalAll, Code.eval, hself]
    rfl

/-- The reader of a struct and the simulation agree on what a receiver gets. -/
structure Reads (sim : Simulator) (registry : Registry) (reader : String) (hd : Plan.Handler)
    (isPartial : Bool) (l : Layout) : Prop where
  reader : registry.reader? reader = some (l, isPartial)
  readStruct : ∀ s, sim.readStruct hd isPartial s = readLayout l isPartial s

/-- A struct is read and handed to a receiver, or cannot be read. -/
theorem chooses_handleStruct {sim : Simulator} {reader : String} {hd : Plan.Handler}
    {isPartial : Bool} {l : Layout} (hreads : Reads sim registry reader hd isPartial l)
    (h : Sees env state s) :
    Chooses registry handle state (RouterStmt.handleStruct reader hd) env
      (some do return .call hd (.struct (← sim.readStruct hd isPartial s))) env := by
  unfold Chooses
  show exec _ (.modify (some "msg") "in_msg" reader [] :: codeAll (RouterStmt.handle hd .struct)) env = _
  rw [exec, Code.execStmt, Code.execModify, get_of_get? h.message, hreads.readStruct, readLayout]
  show (((Code.readWith registry reader s >>= _) >>= _) >>= _) = _
  rw [Code.readWith, hreads.reader]
  -- reading takes the struct from the message, which is shorter afterwards
  cases hdecode : Codec.decode l isPartial s with
  | error e rest => simp only [hdecode]; rfl
  | ok r rest =>
    obtain ⟨env'', hset, hsees⟩ := h.exists_setMessage rest
    have hmsg : Env.get (env''.declare "msg" (.struct r)) "msg" = .ok (.struct r) :=
      get_of_get? (by rw [Env.get?_declare, if_pos rfl])
    have hargs : Code.evalAll (env''.declare "msg" (.struct r)) Argument.struct.code =
        .ok (Received.vals (.struct r)) := by
      show Code.evalAll _ [.var "msg"] = _
      rw [Code.evalAll, Code.eval, hmsg]
      rfl
    have hhandle : Chooses registry handle state _ _ _ _ :=
      chooses_handle (hsees.declare (n := "msg") (by decide) (by decide) (.struct r)) hd hargs
    simp only [hdecode]
    show (((env.set "in_msg" (.slice rest) >>= _) >>= _) >>= _) = _
    rw [hset]
    exact hhandle

/-- Nobody is called, and the state is given back as it was. -/
theorem chooses_answer (h : Sees env state s) (handled : Bool) :
    Chooses registry handle state [.answer handled] env
      (some (.ok (if handled then .swallowed else .unhandled))) env := by
  have hanswer : Code.eval env (.tensor [.var "self", .int (if handled then -1 else 0)]) =
      .ok (answerOf state handled) := by
    rw [Code.eval, Code.evalAll, Code.eval, get_of_get? h.self]
    rfl
  unfold Chooses
  show exec _ [.ret (.tensor [.var "self", .int (if handled then -1 else 0)])] env = _
  rw [exec_singleton, Code.execStmt, hanswer]
  cases handled <;> rfl

theorem evalAll_message (h : Sees env state s) :
    Code.evalAll env Argument.rest.code = .ok (Received.vals (.slice s)) := by
  show Code.evalAll env [.var "in_msg"] = _
  rw [Code.evalAll, Code.eval, get_of_get? h.message]
  rfl

/-- What is left of a message after its opcode, if it has one. -/
theorem evalAll_messageAfterOpcode (h : Sees env state s) (hlen : opcodeBits ≤ s.remaining) :
    Code.evalAll env Argument.restAfterOpcode.code =
      .ok (Received.vals (.slice (s.drop opcodeBits))) := by
  have hcall : Code.applyMethod "skip_bits" (.slice s) [.int opcodeBits] =
      .ok (.slice (s.drop opcodeBits)) := by
    show (if s.remaining < opcodeBits then _ else _) = _
    rw [if_neg (Nat.not_lt.mpr hlen)]
    rfl
  show Code.evalAll env [.method "in_msg" "skip_bits" [.int opcodeBits]] = _
  rw [Code.evalAll, Code.eval, get_of_get? h.message]
  show ((Code.applyMethod "skip_bits" (.slice s) [.int opcodeBits]) >>= _) = _
  rw [hcall]
  rfl

/-! ## Bounced messages -/

section Bounced

variable {sim : Simulator} {stage : Plan.BounceStage}
  (hreads : ∀ arm ∈ stage.arms, ∃ l, Reads sim registry arm.reader arm.handler arm.isPartial l)

include hreads

variable (handle) in
/-- Arms come after the opcode, and where there are none nobody looks at it. -/
theorem chooses_bounceArms (h : Sees env state s) :
    ∃ env', Sees env' state s ∧
      Chooses registry handle state
        ((if stage.arms.isEmpty then [] else RouterStmt.parseOpcode) ++
          stage.arms.flatMap RouterStmt.ofBounceArm) env
        ((stage.arms.find? fun arm => arm.header.value.toNat = s.opcode).map fun arm => do
          return .call arm.handler (.struct (← sim.readStruct arm.handler arm.isPartial s))) env' := by
  by_cases hempty : stage.arms = []
  · rw [hempty]
    exact ⟨env, h, .nil env⟩
  · have hsees := h.declare (n := "op") (by decide) (by decide) (.int s.opcode)
    have hop : (env.declare "op" (.int s.opcode)).get? "op" = some (.int s.opcode) := by
      rw [Env.get?_declare, if_pos rfl]
    have harms : ∀ arm ∈ stage.arms, Chooses registry handle state (RouterStmt.ofBounceArm arm)
        (env.declare "op" (.int s.opcode))
        (if decide (arm.header.value.toNat = s.opcode) then
          some do return .call arm.handler (.struct (← sim.readStruct arm.handler arm.isPartial s))
        else none) (env.declare "op" (.int s.opcode)) := by
      intro arm harm
      obtain ⟨l, hl⟩ := hreads arm harm
      exact Chooses.guard (answers_opcodeIs hop arm.header) fun _ => chooses_handleStruct hl hsees.push
    -- the opcode is taken once, for all arms
    have hall := (chooses_parseOpcode h).append fun _ => Chooses.flatMap harms
    rw [if_neg (by simpa using hempty), ← findSome?_ite]
    exact ⟨_, hsees, hall⟩

/-- Bounced messages are chosen for after their marker. -/
theorem chooses_unmarked (h : Sees env state s) :
    Chooses registry handle state
      ((if stage.arms.isEmpty then [] else RouterStmt.parseOpcode) ++
        stage.arms.flatMap RouterStmt.ofBounceArm ++ RouterStmt.ofBounceFallback stage.fallback) env
      (some (sim.selectUnmarked stage s)) env := by
  obtain ⟨env', hsees, harms⟩ := chooses_bounceArms handle hreads h
  have hfallback : Chooses registry handle state (RouterStmt.ofBounceFallback stage.fallback) env'
      (some (.ok (stage.fallback.elim .swallowed fun hd => .call hd (.slice s)))) env := by
    cases stage.fallback with
    | some hd => exact chooses_handle hsees hd (evalAll_message hsees)
    | none => exact chooses_answer hsees true
  have hall := harms.append fun _ => hfallback
  rw [selectUnmarked_eq]
  cases hfind : stage.arms.find? fun arm => arm.header.value.toNat = s.opcode with
  | some arm =>
    rw [hfind] at hall
    exact hall
  | none =>
    rw [hfind] at hall
    cases hf : stage.fallback <;> rw [hf] at hall <;> exact hall

/-- Bounced messages end in their stage, and others pass it. -/
theorem chooses_ofBounceStage (h : Sees env state s) {isBounced : Bool}
    (hbounced : env.get? "msg_bounced" = some (.ofBool isBounced)) :
    Chooses registry handle state (RouterStmt.ofBounceStage stage) env
      (if isBounced then some (sim.selectBounced stage s) else none) env := by
  have hquestion : Answers env .isBounced isBounced := get_of_get? hbounced
  refine Chooses.guard hquestion fun _ => ?_
  -- the marker comes first, and the rest of the body is about what follows it
  have hbody (marker opcode arms others : List RouterStmt) :
      marker ++ opcode ++ arms ++ others = marker ++ (opcode ++ arms ++ others) := by
    simp only [List.append_assoc]
  rw [hbody]
  cases hskips : stage.skipsMarker with
  | false =>
    have hselect : sim.selectBounced stage s = sim.selectUnmarked stage s := by
      rw [selectBounced, hskips]
      rfl
    rw [hselect]
    exact chooses_unmarked hreads h.push
  | true =>
    obtain ⟨env', hmarker⟩ := exists_chooses_skipMarker registry handle h.push
    have hselect : sim.selectBounced stage s = skip bounceMarkerBits s >>= sim.selectUnmarked stage := by
      rw [selectBounced, hskips]
      rfl
    rw [hselect]
    cases hrest : skip bounceMarkerBits s with
    | error e =>
      rw [hrest] at hmarker
      exact hmarker.append_of_some
    | ok rest =>
      rw [hrest] at hmarker
      exact hmarker.2.append fun _ => chooses_unmarked hreads hmarker.1

end Bounced

/-! ## Other messages -/

section Opcodes

variable {sim : Simulator}

/-- An arm of an opcode takes the messages that are for it. -/
theorem chooses_ofOpcodeArm {arm : Plan.OpcodeArm}
    (hreads : ∀ name header reader hd, arm = .message name header reader hd →
      ∃ l, Reads sim registry reader hd false l)
    (h : Sees env state s) (hop : env.get? "op" = some (.int s.opcode)) :
    Chooses registry handle state (RouterStmt.ofOpcodeArm arm) env
      (if isFor s.opcode s arm then some (sim.selectOpcode arm s) else none) env := by
  cases arm with
  | message name header reader hd =>
    obtain ⟨l, hl⟩ := hreads name header reader hd rfl
    exact Chooses.guard (answers_opcodeIs hop header) fun _ => chooses_handleStruct hl h.push
  | empty hd =>
    have hargs : Code.evalAll ([] :: env) Argument.nothing.code = .ok (Received.vals .nothing) := rfl
    exact Chooses.guard (answers_isEmpty hop h) fun _ => chooses_handle h.push hd hargs

/-- Whoever takes any message gets it, or nobody does. -/
theorem chooses_ofFallback (h : Sees env state s) (fallback : Option Plan.Handler) :
    Chooses registry handle state (RouterStmt.ofFallback fallback) env
      (some (.ok (selectAny fallback s))) env := by
  cases fallback with
  | some hd => exact chooses_handle h hd (evalAll_message h)
  | none => exact chooses_answer h false

end Opcodes

/-! ### Comments -/

/-- A tag is the hexadecimal text of 32 bytes. -/
def IsTag (hash : String) : Prop := ∃ bytes : List UInt8, bytes.length = 32 ∧ hash = Text.hexBytes bytes

theorem chooses_ofCommentArm {arm : Plan.CommentArm} (htag : IsTag arm.hash) (h : Sees env state s)
    (hhash : env.get? "text_op" = some (.int (Code.hashNumber s))) :
    Chooses registry handle state (RouterStmt.ofCommentArm arm) env
      (if decide (arm.hash = s.hashText) then some (.ok (.call arm.handler .nothing)) else none) env := by
  obtain ⟨bytes, hlength, hbytes⟩ := htag
  have hquestion := answers_commentIs hhash hlength
  rw [← hbytes] at hquestion
  have hargs : Code.evalAll ([] :: env) Argument.nothing.code = .ok (Received.vals .nothing) := rfl
  exact Chooses.guard hquestion fun _ => chooses_handle h.push arm.handler hargs

theorem chooses_ofCommentFallback (h : Sees env state s) (fallback : Option Plan.Handler) :
    Chooses registry handle state (RouterStmt.ofCommentFallback fallback) env
      (if opcodeBits ≤ s.remaining then
        fallback.map fun hd => .ok (.call hd (.slice (s.drop opcodeBits)))
      else none) env := by
  cases fallback with
  | none =>
    have hnone : Chooses registry handle state [] env none env := .nil env
    split <;> exact hnone
  | some hd =>
    have hquestion := answers_hasOpcode h
    have hcall (hlen : decide (opcodeBits ≤ s.remaining) = true) :
        Chooses registry handle state (RouterStmt.handle hd .restAfterOpcode) ([] :: env) _ _ :=
      chooses_handle h.push hd (evalAll_messageAfterOpcode h.push (of_decide_eq_true hlen))
    have hguard := Chooses.guard hquestion hcall
    simp only [decide_eq_true_eq] at hguard
    exact hguard

variable (registry handle) in
/-- Arms come after the hash of the message, and where there are none nobody looks at it. What is declared ends
with the block. -/
theorem chooses_commentArms {arms : List Plan.CommentArm} (htags : ∀ arm ∈ arms, IsTag arm.hash)
    (h : Sees env state s) :
    ∃ block : Code.Block, Sees (block :: env) state s ∧
      Chooses registry handle state
        ((if arms.isEmpty then [] else [.hashMessage]) ++ arms.flatMap RouterStmt.ofCommentArm)
        ([] :: env)
        ((arms.find? fun arm => arm.hash = s.hashText).map fun arm => .ok (.call arm.handler .nothing))
        (block :: env) := by
  by_cases hempty : arms = []
  · rw [hempty]
    exact ⟨[], h.push, .nil _⟩
  · have hsees : Sees ([("text_op", .int (Code.hashNumber s))] :: env) state s :=
      h.push.declare (n := "text_op") (by decide) (by decide) (.int (Code.hashNumber s))
    have hhash : Chooses registry handle state [.hashMessage] ([] :: env) none
        ([("text_op", .int (Code.hashNumber s))] :: env) := by
      have hcall : Code.eval ([] :: env) (.call "slice_hash" [.var "in_msg"]) =
          .ok (.int (Code.hashNumber s)) := by
        rw [Code.eval, Code.evalAll, Code.eval, get_of_get? h.push.message]
        rfl
      unfold Chooses
      show exec _ [.declare ["text_op"] (.call "slice_hash" [.var "in_msg"])] _ = _
      rw [exec_singleton, Code.execStmt, hcall]
      rfl
    have harms : Chooses registry handle state (arms.flatMap RouterStmt.ofCommentArm) _ _ _ :=
      .flatMap fun arm harm => chooses_ofCommentArm (htags arm harm) hsees rfl
    -- the hash is taken once, for all arms
    have hall := hhash.append fun _ => harms
    rw [if_neg (by simpa using hempty), ← findSome?_ite]
    exact ⟨_, hsees, hall⟩

/-- Comments are chosen for, and all other messages pass their stage. -/
theorem chooses_ofCommentStage {stage : Plan.CommentStage} (htags : ∀ arm ∈ stage.comments, IsTag arm.hash)
    (h : Sees env state s) (hop : env.get? "op" = some (.int s.opcode)) :
    Chooses registry handle state (RouterStmt.ofCommentStage stage) env
      (if s.opcode = 0 then
        ((stage.comments.find? fun arm => arm.hash = s.hashText).map fun arm =>
            .ok (.call arm.handler .nothing)).or
          (if opcodeBits ≤ s.remaining then
            stage.fallback.map fun hd => .ok (.call hd (.slice (s.drop opcodeBits)))
          else none)
      else none) env := by
  have hquestion := answers_opcodeIsZero hop
  by_cases hzero : s.opcode = 0
  · obtain ⟨block, hsees, harms⟩ := chooses_commentArms registry handle htags h
    have hbody := harms.append fun _ => chooses_ofCommentFallback hsees stage.fallback
    rw [decide_eq_true hzero] at hquestion
    rw [if_pos hzero]
    exact Chooses.branch hquestion hbody
  · rw [decide_eq_false hzero] at hquestion
    rw [if_neg hzero]
    exact @Chooses.skip registry handle state env _ _ hquestion

end Stages
end Simulator
end MessageRouter

import MessageRouter.Proofs.Code.Placement
import MessageRouter.Proofs.Compilation.Linking
import MessageRouter.Proofs.Plan.Inventory
/-!
# `Proofs.Compilation.Blocks` — the text of a contract for one direction and for both

* `Block`, `Block.layOut`: functions and routers as blocks of text, and the text of some blocks.
* `Contract.IsBlock`: the blocks that a contract can have in its text, one for a receiver and one for a router.
* `Contract.isMadeOf_written`: a text is the blocks of the procedures and plans that it was written for.
* `Contract.plans_filter`, `Contract.procedures_filter`: plans and procedures for fewer directions are some of those for
  more.
* `Contract.exists_compile_iff`: a contract has a text exactly if each receiver and each router that is wanted has one.
* `Contract.exists_receiver_mem_blocks_iff`, `Contract.exists_router_mem_blocks_iff`: which blocks there are.
* `Contract.compile_directions`: the text for one direction is made of its blocks in the text for both.
-/
namespace MessageRouter

/-! ## Blocks -/

/-- A block of generated text: the function of the receiver at an index, or a router. -/
inductive Block where
  | receiver (index : Nat) (d : Direction) (text : String)
  | router (d : Direction) (text : String)
  deriving DecidableEq, Repr

namespace Block

/-- Whose messages a block is for. -/
def direction : Block → Direction
  | receiver _ d _ | router d _ => d

def isRouter : Block → Bool
  | receiver .. => false
  | router .. => true

/-- Blocks one after the other, with an empty line after each receiver and between two routers. -/
def layOut : List Block → String
  | [] => ""
  | receiver _ _ text :: rest => text ++ "\n" ++ layOut rest
  | [router _ text] => text
  | router _ text :: b :: rest => text ++ "\n" ++ layOut (b :: rest)

/-- Receivers stand in the order of their indices, and routers after them, the internal one first. -/
def Precedes : Block → Block → Prop
  | receiver i .., receiver j .. => i < j
  | receiver .., router .. => True
  | router d _, router d' _ => d = .internal ∧ d' = .external
  | router .., receiver .. => False

end Block

/-- A text is laid out from some blocks, and counts them. -/
structure Compiled.IsMadeOf (out : Compiled) (blocks : List Block) : Prop where
  text : out.text = Block.layOut blocks
  receivers : out.stats.receivers = blocks.countP (!·.isRouter)
  routers : out.stats.routers = blocks.countP (·.isRouter)

/-- The function of a procedure as a block. -/
def Procedure.block (emitComments : Bool) (p : Procedure) : Block :=
  .receiver p.index p.selector.direction
    (match (Func.Function.ofProcedure p).write emitComments .empty with
      | .ok _ w | .error _ w => w.text)

/-- The router of a plan as a block. -/
def Plan.block (emitComments : Bool) (p : Plan) : Block :=
  .router p.direction (Func.writeRouter emitComments p .empty).text

namespace Contract

/-- A block that a contract can have in its text: the function of one of its receivers, or the router of a direction. -/
inductive IsBlock (c : Contract) (registry : Registry) (emitComments : Bool) : Block → Prop where
  | receiver {i : Nat} {r : Receiver} {p : Procedure} {w : Func.Writer} (hr : c.receivers[i]? = some r)
    (hp : c.procedure registry i = .ok p)
    (hw : (Func.Function.ofProcedure p).write emitComments .empty = .ok () w) :
    IsBlock c registry emitComments (.receiver i r.selector.direction w.text)
  | router {d : Direction} {p : Plan} (hp : c.plan registry d = .ok p) :
    IsBlock c registry emitComments (.router d (Func.writeRouter emitComments p .empty).text)

variable {c : Contract} {registry : Registry} {emitComments : Bool} {wanted : Direction → Bool}
  {plans : List Plan} {ps : List Procedure} {p q : Procedure} {d : Direction}

theorem isBlock_of_procedure {i : Nat} (hp : c.procedure registry i = .ok p) :
    c.IsBlock registry emitComments (p.block emitComments) := by
  obtain ⟨w, hw⟩ := exists_write hp emitComments .empty
  rw [Procedure.block, hw]
  obtain ⟨r, function, payload, hr, -, -, -, rfl⟩ := procedure_eq_ok hp
  exact .receiver hr hp hw

theorem direction_of_plan {plan : Plan} (h : c.plan registry d = .ok plan) : plan.direction = d := by
  obtain ⟨-, routes, -, rfl⟩ := plan_eq_ok_iff.mp h
  rfl

theorem isBlock_of_plan {plan : Plan} (h : c.plan registry d = .ok plan) :
    c.IsBlock registry emitComments (plan.block emitComments) := by
  rw [Plan.block, direction_of_plan h]
  exact .router h

/-! ## Layout -/

/-- A function leaves the depth as it was. -/
theorem depth_of_write {f : Func.Function} {w w' : Func.Writer} (h : f.write emitComments w = .ok () w') :
    w'.depth = w.depth := by
  obtain ⟨_, between, hremark, hblock⟩ := Fallible.stateful_bind_eq_ok_iff.mp h
  cases hremark
  have hdepth := Func.Writing.depth_of_block f.header (Func.writeStmts f.body)
    (Func.Function.writeRemark emitComments f.remark w)
  rw [hblock] at hdepth
  cases emitComments with
  | true | false => exact hdepth

/-- A procedure is written as its block and an empty line. -/
theorem write_eq {i : Nat} (hp : c.procedure registry i = .ok p) (front : String) :
    p.write emitComments ⟨front, 0⟩ =
      .ok () ⟨front ++ Block.layOut [p.block emitComments], 0⟩ := by
  obtain ⟨⟨text, depth⟩, hw⟩ := exists_write hp emitComments .empty
  obtain rfl : depth = 0 := depth_of_write hw
  have hstart : (⟨front, 0⟩ : Func.Writer) = Func.Writer.empty.behind front := by
    simp [Func.Writer.behind, Func.Writer.empty]
  rw [Procedure.write, hstart, Func.Function.placeable_write emitComments _ front _ _ hw]
  simp [Procedure.block, hw, Block.layOut, Func.Writer.blank, Func.Writer.behind, String.append_assoc]

/-- Procedures are written as their blocks. -/
theorem forM_write_eq (h : ∀ p ∈ ps, ∃ i, c.procedure registry i = .ok p) (front : String) :
    (ps.forM (Procedure.write emitComments)).run ⟨front, 0⟩ =
      .ok () ⟨front ++ Block.layOut (ps.map (Procedure.block emitComments)), 0⟩ := by
  induction ps generalizing front with
  | nil => simp [Block.layOut, EStateM.run]; rfl
  | cons p rest ih =>
    obtain ⟨⟨i, hp⟩, hrest⟩ := List.forall_mem_cons.mp h
    refine Fallible.stateful_bind_eq_ok_iff.mpr ⟨(), _, write_eq hp front, (ih hrest _).trans ?_⟩
    simp [Procedure.block, Block.layOut, String.append_assoc]

/-- Routers are written as their blocks. -/
theorem writeRouters_eq (emitComments : Bool) (plans : List Plan) (front : String) :
    writeRouters emitComments plans ⟨front, 0⟩ =
      ⟨front ++ Block.layOut (plans.map (Plan.block emitComments)), 0⟩ := by
  have hrouter (p : Plan) (front : String) : Func.writeRouter emitComments p ⟨front, 0⟩ =
      ⟨front ++ (Func.writeRouter emitComments p .empty).text, 0⟩ := by
    have hstart : (⟨front, 0⟩ : Func.Writer) = Func.Writer.empty.behind front := by
      simp [Func.Writer.behind, Func.Writer.empty]
    rw [hstart, Func.writeRouter_behind]
    rfl
  induction plans generalizing front with
  | nil => simp [writeRouters, Block.layOut]
  | cons p rest ih =>
    cases rest with
    | nil => exact hrouter p front
    | cons q rest =>
      rw [writeRouters, hrouter, Func.Writer.blank, ih]
      simp [Block.layOut, Plan.block, String.append_assoc]

/-- The blocks of some procedures and plans. -/
def blocks (emitComments : Bool) (plans : List Plan) (ps : List Procedure) : List Block :=
  ps.map (Procedure.block emitComments) ++ plans.map (Plan.block emitComments)

theorem layOut_blocks (emitComments : Bool) (plans : List Plan) (ps : List Procedure) :
    Block.layOut (blocks emitComments plans ps) =
      Block.layOut (ps.map (Procedure.block emitComments)) ++
        Block.layOut (plans.map (Plan.block emitComments)) := by
  unfold blocks
  induction ps with
  | nil => simp [Block.layOut]
  | cons p rest ih =>
    simp only [List.map_cons, List.cons_append, Procedure.block, Block.layOut] at ih ⊢
    rw [ih, String.append_assoc, String.append_assoc, String.append_assoc]

theorem countP_blocks (emitComments : Bool) (plans : List Plan) (ps : List Procedure) :
    (blocks emitComments plans ps).countP (!·.isRouter) = ps.length ∧
      (blocks emitComments plans ps).countP (·.isRouter) = plans.length := by
  have hreceiver (p : Procedure) : (p.block emitComments).isRouter = false := rfl
  have hrouter (p : Plan) : (p.block emitComments).isRouter = true := rfl
  simp [blocks, List.countP_map, Function.comp_def, hreceiver, hrouter]

/-- A text is made of the blocks of the procedures and plans that it was written for. -/
theorem isMadeOf_written (h : ∀ p ∈ ps, ∃ i, c.procedure registry i = .ok p) :
    (written emitComments plans ps).IsMadeOf (blocks emitComments plans ps) := by
  obtain ⟨hreceivers, hrouters⟩ := countP_blocks emitComments plans ps
  refine ⟨?_, hreceivers.symm, hrouters.symm⟩
  have hforM : (ps.forM (Procedure.write emitComments)).run .empty = _ := forM_write_eq h ""
  show writtenText emitComments plans ps = _
  rw [writtenText, hforM, layOut_blocks]
  dsimp only
  rw [writeRouters_eq, String.empty_append]

/-! ## Directions -/

/-- Names of functions for messages of different directions differ. -/
theorem direction_of_receive_eq {contract what what' : String} {d d' : Direction}
    (h : Func.Name.receive contract d what = Func.Name.receive contract d' what') : d = d' := by
  have hlist := congrArg String.toList h
  cases d <;> cases d' <;> first | rfl | simp [Func.Name.receive, Direction.name] at hlist

/-- The function of a comment's receiver is named for the direction of the comment. -/
theorem exists_receive_of_isComment {i : Nat} (hp : c.procedure registry i = .ok p)
    (hcomment : p.selector.isComment = true) :
    ∃ what, p.function = Func.Name.receive c.name p.selector.direction what := by
  obtain ⟨r, f, payload, -, hf, -, -, rfl⟩ := procedure_eq_ok hp
  cases hs : r.selector with
  | comment d text =>
    obtain ⟨tag, -, hname⟩ := (functionName_eq_ok_iff_of_comment hs).mp hf
    exact ⟨"text_" ++ tag, hname⟩
  | message | empty | anyComment | any | bounced | anyBounced =>
    simp [hs, Selector.isComment] at hcomment

/-- Only comments of one direction shadow each other. -/
theorem direction_eq_of_shadows {i j : Nat} (hp : c.procedure registry i = .ok p)
    (hq : c.procedure registry j = .ok q) (h : p.shadows q = true) :
    p.selector.direction = q.selector.direction := by
  simp only [Procedure.shadows, Bool.and_eq_true, beq_iff_eq] at h
  obtain ⟨⟨hcomment, hcomment'⟩, hname⟩ := h
  obtain ⟨what, hwhat⟩ := exists_receive_of_isComment hp hcomment
  obtain ⟨what', hwhat'⟩ := exists_receive_of_isComment hq hcomment'
  exact direction_of_receive_eq (hwhat.symm.trans (hname.trans hwhat'))

end Contract

/-- Of the procedures that are kept, the same ones are written with the others as without them, if only procedures that
are kept alike shadow each other. -/
theorem withoutShadowed_filter {ps : List Procedure} (keep : Procedure → Bool)
    (h : ∀ p ∈ ps, ∀ q ∈ ps, p.shadows q = true → keep p = keep q) :
    withoutShadowed (ps.filter keep) = (withoutShadowed ps).filter keep := by
  induction ps with
  | nil => rfl
  | cons p rest ih =>
    have hrest := ih fun q hq q' hq' =>
      h q (List.mem_cons_of_mem _ hq) q' (List.mem_cons_of_mem _ hq')
    by_cases hp : keep p = true
    · rw [List.filter_cons_of_pos hp, withoutShadowed, withoutShadowed, List.filter_cons_of_pos hp,
        hrest, List.filter_filter, List.filter_filter]
      simp only [Bool.and_comm]
    · rw [List.filter_cons_of_neg hp, withoutShadowed, List.filter_cons_of_neg hp, hrest,
        List.filter_filter]
      refine List.filter_congr fun q hq => ?_
      -- what is kept is not shadowed by what is not
      have hmem := List.mem_cons_of_mem p ((withoutShadowed_sublist rest).subset hq)
      have hsame := h p List.mem_cons_self q hmem
      cases hkeep : keep q with
      | false => rfl
      | true =>
        cases hshadows : p.shadows q with
        | false => rfl
        | true => exact absurd ((hsame hshadows).trans hkeep) hp

namespace Contract

variable {c : Contract} {registry : Registry} {emitComments : Bool} {wanted fewer : Direction → Bool}
  {plans : List Plan} {ps : List Procedure} {d : Direction}

/-- The plans for fewer directions are some of those for more. -/
theorem plans_filter (hplans : c.plans registry wanted = .ok plans)
    (hfewer : ∀ d, fewer d = true → wanted d = true) :
    c.plans registry fewer = .ok (plans.filter fun p => fewer p.direction) := by
  have hdirections : (Direction.all.filter fun d => fewer d && c.hasRouter d) =
      (Direction.all.filter fun d => wanted d && c.hasRouter d).filter fewer := by
    rw [List.filter_filter]
    refine List.filter_congr fun d _ => ?_
    cases hd : fewer d with
    | false => rfl
    | true => simp [hfewer d hd]
  rw [Contract.plans, hdirections]
  refine Fallible.mapM_filter hplans ?_
  intro d _ p hp
  rw [direction_of_plan hp]

/-- The procedures for fewer directions are some of those for more. -/
theorem procedures_filter (hps : c.procedures registry wanted = .ok ps)
    (hfewer : ∀ d, fewer d = true → wanted d = true) :
    c.procedures registry fewer = .ok (ps.filter fun p => fewer p.selector.direction) := by
  obtain ⟨all, hall, hps⟩ := Fallible.bind_eq_ok_iff.mp hps
  obtain rfl := Except.ok.inj hps
  have hproc : ∀ p ∈ all, ∃ i, c.procedure registry i = .ok p := by
    intro p hp
    obtain ⟨⟨r, i⟩, -, hp⟩ := Fallible.exists_of_mem_mapM hall hp
    exact ⟨i, Fallible.mapError_eq_ok_iff.mp hp⟩
  have hreceivers : (c.receivers.zipIdx.filter fun r => fewer r.1.selector.direction) =
      (c.receivers.zipIdx.filter fun r => wanted r.1.selector.direction).filter
        fun r => fewer r.1.selector.direction := by
    rw [List.filter_filter]
    refine List.filter_congr fun r _ => ?_
    cases hd : fewer r.1.selector.direction with
    | false => rfl
    | true => simp [hfewer _ hd]
  rw [Contract.procedures, hreceivers]
  refine Fallible.bind_eq_ok_iff.mpr ⟨all.filter fun p => fewer p.selector.direction,
    Fallible.mapM_filter hall ?_, congrArg Except.ok ?_⟩
  · rintro ⟨r, i⟩ hr p hp
    have hmem := List.mk_mem_zipIdx_iff_getElem?.mp (List.mem_filter.mp hr).1
    obtain ⟨f, payload, -, -, -, rfl⟩ :=
      procedure_of_getElem? hmem (Fallible.mapError_eq_ok_iff.mp hp)
    rfl
  · -- a comment is shadowed by one of its own direction only, so both are kept or neither is
    refine withoutShadowed_filter _ fun p hp q hq hshadows => ?_
    obtain ⟨i, hi⟩ := hproc p hp
    obtain ⟨j, hj⟩ := hproc q hq
    rw [direction_eq_of_shadows hi hj hshadows]

theorem filter_blocks (emitComments : Bool) (plans : List Plan) (ps : List Procedure) :
    (blocks emitComments plans ps).filter (fun b => fewer b.direction) =
      blocks emitComments (plans.filter fun p => fewer p.direction)
        (ps.filter fun p => fewer p.selector.direction) := by
  rw [blocks, blocks, List.filter_append, List.filter_map, List.filter_map]
  rfl

/-! ## Texts -/

theorem exists_plans_iff :
    (∃ plans, c.plans registry wanted = .ok plans) ↔
      ∀ d, wanted d = true → c.hasRouter d = true → ∃ p, c.plan registry d = .ok p := by
  rw [Contract.plans, Fallible.exists_mapM_eq_ok_iff]
  simp only [List.mem_filter, Direction.mem_all, true_and, Bool.and_eq_true, and_imp]

theorem exists_procedures_iff :
    (∃ ps, c.procedures registry wanted = .ok ps) ↔
      ∀ r i, c.receivers[i]? = some r → wanted r.selector.direction = true →
        ∃ p, c.procedure registry i = .ok p := by
  constructor
  · rintro ⟨ps, hps⟩ r i hr hwanted
    obtain ⟨all, -, -, -, hall⟩ := exists_unshadowed hps
    obtain ⟨p, -, hp⟩ := hall r i hr hwanted
    exact ⟨p, hp⟩
  · intro h
    have hall : ∃ all, (c.receivers.zipIdx.filter fun r => wanted r.1.selector.direction).mapM
        (fun r => (c.procedure registry r.2).mapError (Fault.atReceiver c.name r.2)) = .ok all := by
      refine Fallible.exists_mapM_eq_ok fun r hr => ?_
      obtain ⟨hzip, hwanted⟩ := List.mem_filter.mp hr
      obtain ⟨p, hp⟩ := h r.1 r.2 (List.mk_mem_zipIdx_iff_getElem?.mp hzip) hwanted
      exact ⟨p, Fallible.mapError_eq_ok_iff.mpr hp⟩
    obtain ⟨all, hall⟩ := hall
    exact ⟨_, Fallible.bind_eq_ok_iff.mpr ⟨all, hall, rfl⟩⟩

/-- A contract has a text exactly if it has a procedure for each receiver that is wanted, and a plan for each router. -/
theorem exists_compile_iff {o : Options} :
    (∃ out, c.compile registry o = .ok out) ↔
      (∀ d, o.wants d = true → c.hasRouter d = true → ∃ p, c.plan registry d = .ok p) ∧
        ∀ r i, c.receivers[i]? = some r → o.wants r.selector.direction = true →
          ∃ p, c.procedure registry i = .ok p := by
  rw [← exists_plans_iff, ← exists_procedures_iff]
  constructor
  · rintro ⟨out, h⟩
    obtain ⟨plans, ps, hplans, hps, -⟩ := exists_written_of_compile h
    exact ⟨⟨plans, hplans⟩, ps, hps⟩
  · rintro ⟨⟨plans, hplans⟩, ps, hps⟩
    obtain ⟨-, text, -, -, hcompile⟩ := exists_compile hplans hps
    exact ⟨_, hcompile⟩

/-- Blocks stand in the order of the receivers, then of the routers. -/
theorem pairwise_blocks (hplans : c.plans registry wanted = .ok plans)
    (hps : c.procedures registry wanted = .ok ps) :
    (blocks emitComments plans ps).Pairwise Block.Precedes := by
  obtain ⟨all, rfl, hindices, -⟩ := exists_unshadowed hps
  refine List.pairwise_append.mpr ⟨?_, ?_, ?_⟩
  · exact List.pairwise_map.mpr (hindices.sublist (withoutShadowed_sublist all))
  · refine List.pairwise_map.mpr ?_
    have hall : Direction.all.Pairwise fun d d' => d = .internal ∧ d' = .external := by decide
    refine pairwise_of_forall₂ (Fallible.mapM_eq_ok_iff.mp hplans) (hall.filter _) ?_
    intro d d' p q hp hq horder
    show p.direction = .internal ∧ q.direction = .external
    rwa [direction_of_plan hp, direction_of_plan hq]
  · intro a ha b hb
    obtain ⟨p, -, rfl⟩ := List.mem_map.mp ha
    obtain ⟨q, -, rfl⟩ := List.mem_map.mp hb
    trivial

/-- There is a block for each router that is wanted. -/
theorem exists_router_mem_blocks_iff (hplans : c.plans registry wanted = .ok plans) :
    (∃ text, Block.router d text ∈ blocks emitComments plans ps) ↔
      wanted d = true ∧ c.hasRouter d = true := by
  constructor
  · rintro ⟨text, h⟩
    rcases List.mem_append.mp h with h | h
    · obtain ⟨p, -, hp⟩ := List.mem_map.mp h
      exact nomatch hp
    · obtain ⟨p, hmem, hp⟩ := List.mem_map.mp h
      obtain ⟨d', hd', hplan⟩ := Fallible.exists_of_mem_mapM hplans hmem
      injection hp with hd
      rw [direction_of_plan hplan] at hd
      subst hd
      simpa using (List.mem_filter.mp hd').2
  · intro h
    have hmem : d ∈ Direction.all.filter fun d => wanted d && c.hasRouter d :=
      List.mem_filter.mpr ⟨d.mem_all, by simpa using h⟩
    obtain ⟨i, hi⟩ := List.getElem?_of_mem hmem
    obtain ⟨p, hp, hplan⟩ := Fallible.getElem?_of_mapM hplans hi
    have hblock := List.mem_map_of_mem (f := Plan.block emitComments) (List.mem_of_getElem? hp)
    rw [Plan.block, direction_of_plan hplan] at hblock
    exact ⟨_, List.mem_append_right _ hblock⟩

/-- What is written is not shadowed by anything before it, written or not. -/
theorem le_of_mem_withoutShadowed {all : List Procedure} {p q : Procedure}
    (hall : all.Pairwise fun p q => p.index < q.index) (hp : p ∈ withoutShadowed all) (hq : q ∈ all)
    (hshadows : q.shadows p = true) : p.index ≤ q.index := by
  induction all with
  | nil => exact nomatch hp
  | cons first rest ih =>
    obtain ⟨hfirst, hrest⟩ := List.pairwise_cons.mp hall
    rcases List.mem_cons.mp hp with rfl | hp
    · rcases List.mem_cons.mp hq with rfl | hq
      · exact Nat.le_refl _
      · exact Nat.le_of_lt (hfirst q hq)
    · obtain ⟨hp, hfree⟩ := List.mem_filter.mp hp
      rcases List.mem_cons.mp hq with rfl | hq
      · simp [hshadows] at hfree
      · exact ih hrest hp hq

/-- There is a block for each receiver that is wanted, but for comments of a tag that an earlier receiver takes. -/
theorem exists_receiver_mem_blocks_iff (hps : c.procedures registry wanted = .ok ps) {i : Nat} :
    (∃ text, Block.receiver i d text ∈ blocks emitComments plans ps) ↔
      wanted d = true ∧ ∃ p, c.procedure registry i = .ok p ∧ p.selector.direction = d ∧
        ∀ j q, j < i → c.procedure registry j = .ok q → q.shadows p = false := by
  obtain ⟨all, rfl, hindices, hall, hevery⟩ := exists_unshadowed hps
  have hmem {i : Nat} {p : Procedure} (hp : c.procedure registry i = .ok p)
      (hwanted : wanted p.selector.direction = true) : p ∈ all := by
    obtain ⟨r, f, payload, hr, -, -, -, hpeq⟩ := procedure_eq_ok hp
    obtain ⟨p', hp', hproc⟩ := hevery r i hr (by rwa [hpeq] at hwanted)
    exact Except.ok.inj (hp.symm.trans hproc) ▸ hp'
  constructor
  · rintro ⟨text, h⟩
    rcases List.mem_append.mp h with h | h
    · obtain ⟨p, hp, hblock⟩ := List.mem_map.mp h
      injection hblock with hi hd
      obtain ⟨hproc, hwanted⟩ := hall p ((withoutShadowed_sublist all).subset hp)
      rw [hi] at hproc
      refine ⟨hd ▸ hwanted, p, hproc, hd, ?_⟩
      intro j q hj hq
      rw [Bool.eq_false_iff]
      intro hshadows
      -- a procedure that shadows another is wanted where that one is
      have hdirection := direction_eq_of_shadows hq hproc hshadows
      have hle := le_of_mem_withoutShadowed hindices hp (hmem hq (hdirection ▸ hwanted)) hshadows
      rw [hi, index_of_procedure hq] at hle
      exact absurd hj (Nat.not_lt_of_le hle)
    · obtain ⟨p, -, hblock⟩ := List.mem_map.mp h
      exact nomatch hblock
  · rintro ⟨hwanted, p, hproc, rfl, hfree⟩
    have hwritten : p ∈ withoutShadowed all := by
      refine mem_withoutShadowed hindices (hmem hproc hwanted) ?_
      intro q hq hshadows
      by_contra hlt
      rw [index_of_procedure hproc] at hlt
      have hnot := hfree q.index q (Nat.lt_of_not_le hlt) (hall q hq).1
      exact absurd (hnot.symm.trans hshadows) Bool.false_ne_true
    have hblock := List.mem_map_of_mem (f := Procedure.block emitComments) hwritten
    rw [Procedure.block, index_of_procedure hproc] at hblock
    exact ⟨_, List.mem_append_left _ hblock⟩

/-- A text for fewer directions is made of some of the blocks for more. -/
theorem isMadeOf_filter {o : Options} {out : Compiled} (hplans : c.plans registry wanted = .ok plans)
    (hps : c.procedures registry wanted = .ok ps) (hfewer : ∀ d, o.wants d = true → wanted d = true)
    (h : c.compile registry o = .ok out) :
    out.IsMadeOf ((blocks o.emitComments plans ps).filter fun b => o.wants b.direction) := by
  obtain ⟨plans', ps', hplans', hps', rfl⟩ := exists_written_of_compile h
  -- a list that was written is the one that is left of the longer one
  obtain rfl := Except.ok.inj (hplans'.symm.trans (plans_filter hplans hfewer))
  obtain rfl := Except.ok.inj (hps'.symm.trans (procedures_filter hps hfewer))
  rw [filter_blocks]
  exact isMadeOf_written (exists_procedure_of_mem hps')

end Contract

/-- Each block is for one direction. -/
theorem Block.countP_eq_add (p : Block → Bool) (bs : List Block) :
    bs.countP p = (bs.filter (·.direction = .internal)).countP p +
      (bs.filter (·.direction = .external)).countP p := by
  induction bs with
  | nil => rfl
  | cons b rest ih =>
    rw [List.countP_cons, ih]
    cases hd : b.direction with
    | internal | external => simp [List.countP_cons, hd]; omega

namespace Contract

/-- A contract has a text for both directions exactly if it has one for each. The text for one direction is then made of
those blocks of the text for both that are for this direction: of the functions of its receivers, in their order, and
of its router. Every receiver has its function there, but for comments whose tag an earlier one takes. There is always a
router for internal messages, and one for external messages where they are received. -/
theorem compile_directions (c : Contract) (registry : Registry) (emitComments : Bool) :
    ((∃ both, c.compile registry ⟨emitComments, Direction.all⟩ = .ok both) ↔
      ∀ d, ∃ one, c.compile registry ⟨emitComments, [d]⟩ = .ok one) ∧
    ∀ both, c.compile registry ⟨emitComments, Direction.all⟩ = .ok both →
      ∃ bs : List Block, both.IsMadeOf bs ∧ bs.Pairwise Block.Precedes ∧
        (∀ b ∈ bs, c.IsBlock registry emitComments b) ∧
        (∀ i d, (∃ text, Block.receiver i d text ∈ bs) ↔
          ∃ p, c.procedure registry i = .ok p ∧ p.selector.direction = d ∧
            ∀ j q, j < i → c.procedure registry j = .ok q → q.shadows p = false) ∧
        (∀ d, (∃ text, Block.router d text ∈ bs) ↔
          d = .internal ∨ ∃ r ∈ c.receivers, r.selector.direction = d) ∧
        (∀ d one, c.compile registry ⟨emitComments, [d]⟩ = .ok one →
          one.IsMadeOf (bs.filter (·.direction = d))) ∧
        ∀ internal external, c.compile registry ⟨emitComments, [.internal]⟩ = .ok internal →
          c.compile registry ⟨emitComments, [.external]⟩ = .ok external →
          both.stats.receivers = internal.stats.receivers + external.stats.receivers ∧
            both.stats.routers = internal.stats.routers + external.stats.routers := by
  have hall (d : Direction) : Options.wants ⟨emitComments, Direction.all⟩ d = true := by
    cases d <;> rfl
  have hone (d d' : Direction) : Options.wants ⟨emitComments, [d]⟩ d' = true ↔ d' = d := by
    simp [Options.wants]
  constructor
  · -- a text needs plans and procedures of the directions it is for, each on its own
    simp only [exists_compile_iff, hall, hone, forall_const]
    constructor
    · rintro ⟨hplans, hprocedures⟩ d
      exact ⟨fun d' _ => hplans d', fun r i hr _ => hprocedures r i hr⟩
    · intro h
      exact ⟨fun d => (h d).1 d rfl, fun r i hr => (h r.selector.direction).2 r i hr rfl⟩
  · intro both hboth
    obtain ⟨plans, ps, hplans, hps, rfl⟩ := exists_written_of_compile hboth
    have hprocedure := exists_procedure_of_mem hps
    have hmade : (written emitComments plans ps).IsMadeOf (blocks emitComments plans ps) :=
      isMadeOf_written hprocedure
    -- what is compiled for one direction is what the text for both keeps of it
    have hfilter (d : Direction) (one : Compiled)
        (h : c.compile registry ⟨emitComments, [d]⟩ = .ok one) :
        one.IsMadeOf ((blocks emitComments plans ps).filter (·.direction = d)) := by
      have hwants : (fun b : Block => Options.wants ⟨emitComments, [d]⟩ b.direction) =
          fun b : Block => decide (b.direction = d) := by
        funext b
        rw [Bool.eq_iff_iff, hone, decide_eq_true_iff]
      have hsome := isMadeOf_filter hplans hps (fun d' _ => hall d') h
      rwa [hwants] at hsome
    refine ⟨blocks emitComments plans ps, hmade, pairwise_blocks hplans hps, ?_, ?_, ?_, hfilter, ?_⟩
    · intro b hb
      rcases List.mem_append.mp hb with hb | hb
      · obtain ⟨p, hp, rfl⟩ := List.mem_map.mp hb
        obtain ⟨i, hproc⟩ := hprocedure p hp
        exact isBlock_of_procedure hproc
      · obtain ⟨p, hp, rfl⟩ := List.mem_map.mp hb
        obtain ⟨d, -, hplan⟩ := Fallible.exists_of_mem_mapM hplans hp
        exact isBlock_of_plan hplan
    · intro i d
      simp [exists_receiver_mem_blocks_iff hps, hall]
    · intro d
      rw [exists_router_mem_blocks_iff hplans]
      simp [hall, hasRouter, receives]
    · intro internal external hinternal hexternal
      -- every block is counted in the text of its own direction
      have hin := hfilter .internal internal hinternal
      have hex := hfilter .external external hexternal
      rw [hmade.receivers, hin.receivers, hex.receivers, hmade.routers, hin.routers, hex.routers]
      exact ⟨Block.countP_eq_add _ _, Block.countP_eq_add _ _⟩

/-- The doorman has a text for both directions, without its second comment, and one for each of them. -/
theorem compile_directions_doorman :
    ∃ both internal external bs, Contract.doorman.compile ⟨[.knock]⟩ ⟨true, Direction.all⟩ = .ok both ∧
      Contract.doorman.compile ⟨[.knock]⟩ ⟨true, [.internal]⟩ = .ok internal ∧
      Contract.doorman.compile ⟨[.knock]⟩ ⟨true, [.external]⟩ = .ok external ∧
      both.IsMadeOf bs ∧ internal.IsMadeOf (bs.filter (·.direction = .internal)) ∧
      external.IsMadeOf (bs.filter (·.direction = .external)) ∧
      internal.stats.receivers + external.stats.receivers = 4 ∧
      internal.stats.routers + external.stats.routers = 2 := by
  obtain ⟨hiff, hblocks⟩ := compile_directions .doorman ⟨[.knock]⟩ true
  obtain ⟨plans, hplans, hrouterCount⟩ : ∃ plans, Contract.doorman.plans ⟨[.knock]⟩
      (Options.wants ⟨true, Direction.all⟩) = .ok plans ∧ plans.length = 2 := ⟨_, rfl, rfl⟩
  have hlength : (Contract.doorman.procedures ⟨[.knock]⟩ (Options.wants ⟨true, Direction.all⟩)).toOption.map
      List.length = some 4 := by
    decide +kernel
  obtain ⟨ps, hps, hreceiverCount⟩ := Option.map_eq_some_iff.mp hlength
  replace hps : Contract.doorman.procedures ⟨[.knock]⟩ (Options.wants ⟨true, Direction.all⟩) = .ok ps := by
    revert hps
    cases Contract.doorman.procedures ⟨[.knock]⟩ (Options.wants ⟨true, Direction.all⟩) with
    | error fault => exact nofun
    | ok all => exact fun h => congrArg Except.ok (Option.some.inj h)
  obtain ⟨-, text, -, -, hboth⟩ := exists_compile hplans hps
  obtain ⟨internal, hinternal⟩ := hiff.mp ⟨_, hboth⟩ .internal
  obtain ⟨external, hexternal⟩ := hiff.mp ⟨_, hboth⟩ .external
  obtain ⟨bs, hmade, -, -, -, -, hfilter, hstats⟩ := hblocks _ hboth
  obtain ⟨hreceivers, hrouters⟩ := hstats internal external hinternal hexternal
  exact ⟨_, internal, external, bs, hboth, hinternal, hexternal, hmade, hfilter .internal internal hinternal,
    hfilter .external external hexternal, hreceivers.symm.trans hreceiverCount,
    hrouters.symm.trans hrouterCount⟩

end Contract
end MessageRouter

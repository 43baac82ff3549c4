import MessageRouter.Compilation
import MessageRouter.Proofs.Receiver.Completion
/-!
# `Proofs.Compilation.Acceptance` — what can be simulated can be generated

* `withoutShadowed_sublist`: the procedures that are written are some of all.
* `Contract.exists_procedure_of_mem_procedures`: each of them is that of a receiver of a wanted direction.
* `Contract.compile_eq`: a contract with plans and procedures has a text, as writing them never fails.
* `Contract.compile_iff_ofContract`: code for both directions is generated exactly for the contracts that can be
  simulated, and the same fault is found in the others.
-/
namespace MessageRouter

open Simulator

/-! ## Procedures that are written -/

theorem withoutShadowed_sublist (ps : List Procedure) : (withoutShadowed ps).Sublist ps := by
  induction ps with
  | nil => exact .slnil
  | cons p rest ih => exact .cons_cons p (List.filter_sublist.trans ih)

namespace Contract

variable {c : Contract} {registry : Registry} {wanted : Direction → Bool} {ps : List Procedure}

/-- A procedure that is written is that of a receiver of a wanted direction. -/
theorem exists_procedure_of_mem_procedures (h : c.procedures registry wanted = .ok ps) {p : Procedure}
    (hp : p ∈ ps) :
    ∃ r i, c.receivers[i]? = some r ∧ wanted r.selector.direction = true ∧
      c.procedure registry i = .ok p := by
  obtain ⟨all, hall, h⟩ := Fallible.bind_eq_ok_iff.mp h
  obtain rfl := Except.ok.inj h
  obtain ⟨⟨r, i⟩, hmem, hproc⟩ :=
    Fallible.exists_of_mem_mapM hall ((withoutShadowed_sublist all).subset hp)
  obtain ⟨hzip, hwanted⟩ := List.mem_filter.mp hmem
  exact ⟨r, i, List.mk_mem_zipIdx_iff_getElem?.mp hzip, hwanted, Fallible.mapError_eq_ok_iff.mp hproc⟩

/-- What is written are procedures of receivers. -/
theorem exists_procedure_of_mem (hps : c.procedures registry wanted = .ok ps) :
    ∀ p ∈ ps, ∃ i, c.procedure registry i = .ok p := by
  intro p hp
  obtain ⟨r, i, -, -, hproc⟩ := exists_procedure_of_mem_procedures hps hp
  exact ⟨i, hproc⟩

/-- Where all directions are wanted, the procedures of all receivers are looked at. -/
theorem procedures_of_wants_all (h : ∀ d, wanted d = true) :
    c.procedures registry wanted = do
      let procedures ← c.receivers.zipIdx.mapM fun (_, index) =>
        (c.procedure registry index).mapError (Fault.atReceiver c.name index)
      return withoutShadowed procedures := by
  have hall : c.receivers.zipIdx.filter (fun r => wanted r.1.selector.direction) =
      c.receivers.zipIdx := List.filter_eq_self.mpr fun r _ => h _
  unfold procedures
  rw [hall]

/-! ## Writing -/

/-- The functions of procedures are written one after the other. -/
theorem exists_forM_write (h : ∀ p ∈ ps, ∃ i, c.procedure registry i = .ok p) (emitComments : Bool)
    (w : Func.Writer) : ∃ w', (ps.forM (Procedure.write emitComments)).run w = .ok () w' := by
  induction ps generalizing w with
  | nil => exact ⟨w, rfl⟩
  | cons p rest ih =>
    obtain ⟨i, hp⟩ := h p List.mem_cons_self
    obtain ⟨between, hwrite⟩ := exists_write hp emitComments w
    have hfirst : p.write emitComments w = .ok () between.blank := by rw [Procedure.write, hwrite]
    obtain ⟨w', hrest⟩ := ih (fun q hq => h q (List.mem_cons_of_mem _ hq)) between.blank
    exact ⟨w', Fallible.stateful_bind_eq_ok_iff.mpr ⟨(), _, hfirst, hrest⟩⟩

/-- The text of some procedures and plans. -/
def writtenText (emitComments : Bool) (plans : List Plan) (ps : List Procedure) : String :=
  match (ps.forM (Procedure.write emitComments)).run .empty with
  | .ok _ w | .error _ w => (writeRouters emitComments plans w).text

/-- What was generated for some procedures and plans. -/
def written (emitComments : Bool) (plans : List Plan) (ps : List Procedure) : Compiled :=
  let text := writtenText emitComments plans ps
  ⟨text, ⟨1, plans.length, ps.length, text.utf8ByteSize⟩⟩

/-- The procedures of a contract are written one after the other. -/
theorem exists_forM_write_procedures {o : Options} (hps : c.procedures registry o.wants = .ok ps)
    (emitComments : Bool) :
    ∃ w, (ps.forM (Procedure.write emitComments)).run .empty = .ok () w :=
  exists_forM_write (exists_procedure_of_mem hps) emitComments .empty

/-- Once a contract has its plans and its procedures, nothing can go wrong any more. -/
theorem compile_eq (c : Contract) (registry : Registry) (o : Options) :
    c.compile registry o = do
      let plans ← c.plans registry o.wants
      let ps ← c.procedures registry o.wants
      return written o.emitComments plans ps := by
  unfold compile
  refine congrArg _ (funext fun plans => ?_)
  cases hps : c.procedures registry o.wants with
  | error fault => rfl
  | ok ps =>
    obtain ⟨w, hw⟩ := exists_forM_write_procedures hps o.emitComments
    simp only [bind, Except.bind, hw, written, writtenText]

/-- A text is written for the plans and procedures of what is wanted. -/
theorem exists_written_of_compile {o : Options} {out : Compiled} (h : c.compile registry o = .ok out) :
    ∃ plans ps, c.plans registry o.wants = .ok plans ∧ c.procedures registry o.wants = .ok ps ∧
      out = written o.emitComments plans ps := by
  rw [compile_eq] at h
  obtain ⟨plans, hplans, h⟩ := Fallible.bind_eq_ok_iff.mp h
  obtain ⟨ps, hps, h⟩ := Fallible.bind_eq_ok_iff.mp h
  exact ⟨plans, ps, hplans, hps, (Except.ok.inj h).symm⟩

/-- With its plans and procedures a contract has a text, which counts them. -/
theorem exists_compile {o : Options} {plans : List Plan}
    (hplans : c.plans registry o.wants = .ok plans) (hps : c.procedures registry o.wants = .ok ps) :
    ∃ w text, (ps.forM (Procedure.write o.emitComments)).run .empty = .ok () w ∧
      text = (writeRouters o.emitComments plans w).text ∧
      c.compile registry o = .ok ⟨text, ⟨1, plans.length, ps.length, text.utf8ByteSize⟩⟩ := by
  obtain ⟨w, hw⟩ := exists_forM_write_procedures hps o.emitComments
  refine ⟨w, _, hw, rfl, ?_⟩
  rw [compile_eq, hplans, hps]
  show Except.ok (written o.emitComments plans ps) = _
  simp only [written, writtenText, hw]

/-- Generating code for both directions succeeds where making a simulator does, and fails alike. -/
theorem alike_ofContract_compile (c : Contract) (registry : Registry) {o : Options}
    (h : ∀ d, o.wants d = true) :
    Fallible.Alike (fun _ _ => True) (ofContract c registry) (c.compile registry o) := by
  have hwants : o.wants = fun _ => true := funext h
  rw [ofContract, compile_eq, procedures_of_wants_all h, hwants]
  refine (Fallible.Alike.self _).bind fun _ _ _ => ?_
  -- the procedures that are shadowed are left out only after all of them were looked at
  cases c.receivers.zipIdx.mapM fun (_, index) =>
      (c.procedure registry index).mapError (Fault.atReceiver c.name index) with
  | error fault => exact .error fault
  | ok all => exact .ok trivial

/-- Code for both directions is generated exactly for the contracts that can be simulated, remarks or not. In the
others the same fault is found at the same place. The routers that are generated are those that are simulated,
and a receiver whose body was checked is always written. -/
theorem compile_iff_ofContract (c : Contract) (registry : Registry) {o : Options}
    (h : ∀ d, o.wants d = true) :
    ((∃ sim, ofContract c registry = .ok sim) ↔ ∃ out, c.compile registry o = .ok out) ∧
      (∀ fault, ofContract c registry = .error fault ↔ c.compile registry o = .error fault) ∧
      (∀ sim, ofContract c registry = .ok sim → c.plans registry o.wants = .ok sim.plans) ∧
      ∀ index p, c.procedure registry index = .ok p → ∀ (emitComments : Bool) (w : Func.Writer),
        ∃ w', (Func.Function.ofProcedure p).write emitComments w = .ok () w' := by
  have hwants : o.wants = fun _ => true := funext h
  have halike := alike_ofContract_compile c registry h
  refine ⟨halike.exists_ok_iff, halike.eq_error_iff, ?_, fun _ _ hp => exists_write hp⟩
  intro sim hsim
  obtain ⟨plans, hplans, hsim⟩ := Fallible.bind_eq_ok_iff.mp hsim
  obtain ⟨procedures, -, hsim⟩ := Fallible.bind_eq_ok_iff.mp hsim
  obtain rfl := Except.ok.inj hsim
  rw [hwants]
  exact hplans

/-- Code for the counter is generated, and not without the field that its first receiver sets. -/
theorem compile_iff_ofContract_counter :
    (∀ d, ({} : Options).wants d = true) ∧ (∃ out, Contract.counter.compile .empty {} = .ok out) ∧
      ∃ fault, { Contract.counter with fields := [] }.compile .empty {} = .error fault ∧
        fault.kind = .typing ∧ fault.loc = some (.receiver "Counter" 0) := by
  have hall : ∀ d, ({} : Options).wants d = true := by
    intro d
    cases d <;> rfl
  refine ⟨hall, ?_, ?_⟩
  · exact (compile_iff_ofContract .counter .empty hall).1.mp ⟨_, rfl⟩
  · exact ⟨_, ((compile_iff_ofContract _ _ hall).2.1 _).mp rfl, rfl, rfl⟩

end Contract
end MessageRouter

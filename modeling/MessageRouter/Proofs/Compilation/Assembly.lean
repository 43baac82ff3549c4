import MessageRouter.Proofs.Code.Functions
import MessageRouter.Proofs.Compilation.Acceptance
import MessageRouter.Proofs.Router.Text
/-!
# `Proofs.Compilation.Assembly` — what generated text is made of

* `Assembly`: the procedures and plans that are written for a contract, and their functions.
* `Assembly.IsOf`: they are those that the contract has for some options.
* `Compiled.Holds`: a text is read as the functions of some assemblies, and counts them.
* `Contract.exists_assembly`, `Program.exists_assemblies`: so are the texts of contracts and programs.
-/
namespace MessageRouter

open Code (SpellsText WroteFunctions)

/-- The procedures and plans that are written for a contract. -/
structure Assembly where
  contract : Contract
  procedures : List Procedure
  plans : List Plan

namespace Assembly

/-- The functions of the receivers, then those of the routers. -/
def functions (a : Assembly) : List Code.Function :=
  a.procedures.map (fun p => (Func.Function.ofProcedure p).program) ++ a.plans.map Func.routerProgram

/-- Procedures and plans are those that the contract has for some options. -/
structure IsOf (a : Assembly) (registry : Registry) (o : Options) : Prop where
  procedures : a.contract.procedures registry o.wants = .ok a.procedures
  plans : a.contract.plans registry o.wants = .ok a.plans

end Assembly

/-- A text is read as the functions of some assemblies, and counts them. -/
structure Compiled.Holds (out : Compiled) (assemblies : List Assembly) : Prop where
  text : SpellsText out.text (assemblies.flatMap (·.functions))
  contracts : out.stats.contracts = assemblies.length
  routers : out.stats.routers = (assemblies.flatMap (·.plans)).length
  receivers : out.stats.receivers = (assemblies.flatMap (·.procedures)).length

/-! ## Contracts -/

namespace Contract

variable {c : Contract} {registry : Registry} {w w' : Func.Writer}

/-- Procedures are written as lines that are read as their functions. -/
theorem wroteFunctions_of_forM_write {ps : List Procedure} (hps : ∀ p ∈ ps, p.WellFormed)
    {emitComments : Bool} (h : (ps.forM (Procedure.write emitComments)).run w = .ok () w') :
    WroteFunctions w w' (ps.map fun p => (Func.Function.ofProcedure p).program) := by
  induction ps generalizing w with
  | nil =>
    cases h
    exact .refl _
  | cons p rest ih =>
    obtain ⟨hp, hrest⟩ := List.forall_mem_cons.mp hps
    obtain ⟨between, hwrite, hwrote⟩ := Func.Function.exists_wroteFunction hp emitComments w
    have hfirst : p.write emitComments w = .ok () between.blank := by rw [Procedure.write, hwrite]
    obtain ⟨_, next, hnext, h⟩ := Fallible.stateful_bind_eq_ok_iff.mp h
    obtain rfl : next = between.blank := by
      injection hnext.symm.trans hfirst
    exact (WroteFunctions.singleton hwrote).trans ((WroteFunctions.blank between).trans (ih hrest h))

/-- Routers are written as lines that are read as their functions. -/
theorem wroteFunctions_writeRouters (hregistry : registry.WellFormed) (hc : c.WellFormed)
    (emitComments : Bool) (plans : List Plan) (hplans : ∀ p ∈ plans, ∃ d, c.plan registry d = .ok p)
    (w : Func.Writer) :
    WroteFunctions w (writeRouters emitComments plans w) (plans.map Func.routerProgram) := by
  have hrouter {p : Plan} (hp : ∃ d, c.plan registry d = .ok p) (w : Func.Writer) :
      WroteFunctions w (Func.writeRouter emitComments p w) [Func.routerProgram p] := by
    obtain ⟨d, hd⟩ := hp
    exact .singleton (Func.wroteFunction_router_of_plan hregistry hc hd emitComments w)
  induction plans generalizing w with
  | nil => exact .refl w
  | cons p rest ih =>
    obtain ⟨hp, hrest⟩ := List.forall_mem_cons.mp hplans
    cases rest with
    | nil => exact hrouter hp w
    | cons q rest => exact (hrouter hp w).trans ((WroteFunctions.blank _).trans (ih hrest _))

/-- The text of a well-formed contract is read as the functions of its receivers and routers. -/
theorem exists_assembly (hregistry : registry.WellFormed) (hc : c.WellFormed) {o : Options}
    {out : Compiled} (h : c.compile registry o = .ok out) :
    ∃ a : Assembly, a.contract = c ∧ a.IsOf registry o ∧ out.Holds [a] := by
  obtain ⟨plans, hplans, hrest⟩ := Fallible.bind_eq_ok_iff.mp h
  obtain ⟨ps, hps, -⟩ := Fallible.bind_eq_ok_iff.mp hrest
  obtain ⟨w, text, hw, rfl, hcompile⟩ := exists_compile hplans hps
  obtain rfl := Except.ok.inj (h.symm.trans hcompile)
  have hprocedures : ∀ p ∈ ps, p.WellFormed := by
    intro p hp
    obtain ⟨_, _, -, -, hproc⟩ := exists_procedure_of_mem_procedures hps hp
    exact wellFormed_procedure hregistry hc hproc
  have hrouters : ∀ p ∈ plans, ∃ d, c.plan registry d = .ok p := by
    intro p hp
    obtain ⟨d, -, hd⟩ := Fallible.exists_of_mem_mapM hplans hp
    exact ⟨d, hd⟩
  have hwrote := (wroteFunctions_of_forM_write hprocedures hw).trans
    (wroteFunctions_writeRouters hregistry hc o.emitComments plans hrouters w)
  refine ⟨⟨c, ps, plans⟩, rfl, ⟨hps, hplans⟩, ?_, rfl, ?_, ?_⟩
  · simpa [Assembly.functions] using SpellsText.of_wrote hwrote
  · simp
  · simp

end Contract

/-! ## Programs -/

namespace Compiled

variable {x y : Compiled} {as bs : List Assembly}

theorem holds_empty : empty.Holds [] := ⟨.nil, rfl, rfl, rfl⟩

/-- Nothing is read between two texts. -/
theorem spellsText_joinText {before text : String} {fs gs : List Code.Function}
    (h : SpellsText before fs) (h' : SpellsText text gs) :
    SpellsText (joinText before text) (fs ++ gs) := by
  unfold joinText
  split
  · next hempty =>
    rw [String.isEmpty_iff.mp hempty] at h
    rwa [h.eq_nil]
  · simpa using (h.append .newline).append h'

/-- One text after the other is read as the functions of both. -/
theorem Holds.append (hx : x.Holds as) (hy : y.Holds bs) : (x.append y).Holds (as ++ bs) where
  text := by
    rw [List.flatMap_append]
    exact spellsText_joinText hx.text hy.text
  contracts := by simp [Compiled.append, hx.contracts, hy.contracts]
  routers := by simp [Compiled.append, hx.routers, hy.routers]
  receivers := by simp [Compiled.append, hx.receivers, hy.receivers]

/-- Texts of contracts after another text. -/
theorem exists_holds_foldl {registry : Registry} (hregistry : registry.WellFormed) {o : Options}
    {cs : List Contract} (hcs : ∀ c ∈ cs, c.WellFormed) {parts : List Compiled}
    (h : List.Forall₂ (fun c part => c.compile registry o = .ok part) cs parts) (hx : x.Holds as) :
    ∃ bs : List Assembly, bs.map (·.contract) = cs ∧ (∀ a ∈ bs, a.IsOf registry o) ∧
      (parts.foldl Compiled.append x).Holds (as ++ bs) := by
  induction h generalizing x as with
  | nil => exact ⟨[], rfl, nofun, by simpa using hx⟩
  | @cons c part cs parts hpart _ ih =>
    obtain ⟨hc, hrest⟩ := List.forall_mem_cons.mp hcs
    obtain ⟨a, rfl, ha, hholds⟩ := Contract.exists_assembly hregistry hc hpart
    obtain ⟨bs, rfl, hbs, hwhole⟩ := ih hrest (hx.append hholds)
    refine ⟨a :: bs, rfl, List.forall_mem_cons.mpr ⟨ha, hbs⟩, ?_⟩
    simpa using hwhole

end Compiled

/-- The text of a well-formed program is read as the functions of its contracts, one contract after the other. -/
theorem Program.exists_assemblies {p : Program} (hp : p.WellFormed) {limit : Nat} {o : Options}
    {out : Compiled} (h : p.compile limit o = .ok out) :
    ∃ as : List Assembly, as.map (·.contract) = p.contracts ∧ (∀ a ∈ as, a.IsOf p.registry o) ∧
      out.Holds as := by
  obtain ⟨parts, hparts, h⟩ := Fallible.bind_eq_ok_iff.mp h
  have hout : out = parts.foldl Compiled.append Compiled.empty := by
    dsimp only at h
    split at h
    · exact nomatch h
    · exact (Except.ok.inj h).symm
  subst hout
  exact Compiled.exists_holds_foldl hp.registry hp.contracts (Fallible.mapM_eq_ok_iff.mp hparts)
    Compiled.holds_empty

end MessageRouter

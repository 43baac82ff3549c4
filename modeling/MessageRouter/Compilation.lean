import MessageRouter.Func.Router
import MessageRouter.Limits
/-!
# `Compilation` — the generated text of contracts and programs

* `Options`: whether remarks are written and for which directions.
* `Contract.procedures`: the procedures that are written. Of several comments of one tag and direction the
  first has one.
* `Contract.compile`: the functions of the receivers, then those of the routers.
* `Program.compile`: the texts of the contracts, with how much was written.
-/
namespace MessageRouter

/-- What is to be generated. -/
structure Options where
  /-- Remarks name what each part of the text is for. -/
  emitComments : Bool := true
  directions : List Direction := Direction.all

namespace Options

def wants (o : Options) (d : Direction) : Bool := o.directions.contains d

end Options

/-- How much was generated. -/
structure Stats where
  contracts : Nat
  routers : Nat
  receivers : Nat
  outputBytes : Nat
  deriving DecidableEq, Repr

/-- Generated text and how much it is. -/
structure Compiled where
  text : String
  stats : Stats

/-! ## Contracts -/

def Selector.isComment : Selector → Bool
  | .comment .. => true
  | _ => false

/-- Whether two procedures are of comments under one name, so that only one can be written. -/
def Procedure.shadows (p q : Procedure) : Bool :=
  p.selector.isComment && q.selector.isComment && p.function == q.function

/-- Of several comments under one name, the first. -/
def withoutShadowed : List Procedure → List Procedure
  | [] => []
  | p :: rest => p :: (withoutShadowed rest).filter fun q => !p.shadows q

/-- No procedure that is left shadows a later one. -/
theorem withoutShadowed_pairwise (ps : List Procedure) :
    (withoutShadowed ps).Pairwise fun p q => p.shadows q = false := by
  induction ps with
  | nil => exact List.Pairwise.nil
  | cons p rest ih =>
    refine List.Pairwise.cons (fun q hq => ?_) (ih.filter _)
    simpa using (List.mem_filter.mp hq).2

namespace Contract

/-- The procedures that are written. -/
def procedures (c : Contract) (registry : Registry) (wanted : Direction → Bool) :
    Except Fault (List Procedure) := do
  let receivers := c.receivers.zipIdx.filter fun r => wanted r.1.selector.direction
  let procedures ← receivers.mapM fun (_, index) =>
    (c.procedure registry index).mapError (Fault.atReceiver c.name index)
  return withoutShadowed procedures

end Contract

/-- A procedure as text, with an empty line after it. -/
def Procedure.write (emitComments : Bool) (p : Procedure) : Func.Writing Fault Unit := fun w =>
  match Func.Function.write emitComments (Func.Function.ofProcedure p) w with
  | .ok _ w => .ok () w.blank
  | .error cause w => .error ((Fault.ofCause (.scope cause)).atReceiver p.contract p.index) w

/-- Routers as text, with an empty line between two of them. -/
def writeRouters (emitComments : Bool) : List Plan → Func.Writer → Func.Writer
  | [], w => w
  | [p], w => Func.writeRouter emitComments p w
  | p :: q :: rest, w =>
    writeRouters emitComments (q :: rest) (Func.writeRouter emitComments p w).blank

namespace Contract

/-- The functions of the receivers, then those of the routers. -/
def compile (c : Contract) (registry : Registry) (o : Options) : Except Fault Compiled := do
  let plans ← c.plans registry o.wants
  let procedures ← c.procedures registry o.wants
  match (procedures.forM (Procedure.write o.emitComments)).run Func.Writer.empty with
  | .error cause _ => throw cause
  | .ok _ w =>
    let text := (writeRouters o.emitComments plans w).text
    return ⟨text, ⟨1, plans.length, procedures.length, text.utf8ByteSize⟩⟩

end Contract

/-! ## Programs -/

/-- Text after other text, with an empty line between them if there is any before. -/
def joinText (before text : String) : String :=
  if before.isEmpty then text else before ++ "\n" ++ text

namespace Compiled

def empty : Compiled := ⟨"", ⟨0, 0, 0, 0⟩⟩

/-- One text after the other. -/
def append (a b : Compiled) : Compiled :=
  let text := joinText a.text b.text
  ⟨text, ⟨a.stats.contracts + b.stats.contracts, a.stats.routers + b.stats.routers,
    a.stats.receivers + b.stats.receivers, text.utf8ByteSize⟩⟩

end Compiled

/-- The texts of the contracts one after the other, within a limit of bytes. -/
def Program.compile (p : Program) (limit : Nat) (o : Options) : Except Fault Compiled := do
  let parts ← p.contracts.mapM fun c => c.compile p.registry o
  let whole := parts.foldl Compiled.append Compiled.empty
  if limit < whole.stats.outputBytes then
    throw (.ofCause (.outputSize limit whole.stats.outputBytes))
  return whole

end MessageRouter

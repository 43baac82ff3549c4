import MessageRouter.Proofs.Compilation.Acceptance
import MessageRouter.Proofs.Delivery.Comments
import MessageRouter.Proofs.Document.Soundness
/-!
# `Proofs.Compilation.Faults` — what can still be wrong with a program that was read

* `Fault.IsComment`, `Fault.IsReceiver`, `Fault.IsOutput`: comments that are too long; bodies that do not fit their
  payloads besides; text that is too long besides.
* `Contract.ends_plans`, `Contract.ends_procedure`: of a sound contract only comments can be too long for its plans, and
  bodies can be wrong for its procedures.
* `Contract.ends_ofContract`, `Contract.ends_compile`, `Program.ends_compile`: so it is with what is made of them.
* `Program.faults_of_ofJson`: a program that is read is sound, and fails for no other causes.
-/
namespace MessageRouter

open Fallible (Ends)

/-! ## Kinds of faults -/

namespace Fault

/-- A comment is too long. -/
def IsComment (fault : Fault) : Prop := fault.kind = .oversizedComment

/-- A comment is too long, or a body does not fit its payload. -/
def IsReceiver (fault : Fault) : Prop := fault.IsComment ∨ fault.kind = .typing

/-- One of these, or the generated text is too long. -/
def IsOutput (fault : Fault) : Prop := fault.IsReceiver ∨ fault.kind = .budget

theorem IsComment.isReceiver {fault : Fault} (h : fault.IsComment) : fault.IsReceiver := .inl h

theorem IsReceiver.isOutput {fault : Fault} (h : fault.IsReceiver) : fault.IsOutput := .inl h

theorem IsComment.atReceiver {fault : Fault} (h : fault.IsComment) (contract : String) (index : Nat) :
    (fault.atReceiver contract index).IsComment := h

theorem IsReceiver.atReceiver {fault : Fault} (h : fault.IsReceiver) (contract : String) (index : Nat) :
    (fault.atReceiver contract index).IsReceiver := h

theorem isComment_ofComment {text : String} {loc : Option Span} {cause : Comment.Error}
    (h : Comment.tag text loc = .error cause) : (ofComment cause).IsComment := by
  obtain ⟨-, rfl⟩ := Comment.tag_eq_error_iff.mp h
  cases loc <;> rfl

end Fault

/-! ## Plans -/

namespace Contract

variable {c : Contract} {registry : Registry}

/-- Only a comment can be too long for the name of a function. -/
theorem ends_functionName (c : Contract) (r : Receiver) :
    Ends (fun _ => True) Fault.IsComment (c.functionName r) := by
  unfold functionName
  cases r.selector with
  | comment d text =>
    dsimp only
    cases htag : Comment.tag text r.loc with
    | error cause => exact Fault.isComment_ofComment htag
    | ok hash => trivial
  | message | empty | anyComment | any | bounced | anyBounced => trivial

/-- A receiver for a message that has a layout has a route unless its comment is too long. -/
theorem ends_route {r : Receiver}
    (h : ∀ name, r.selector.message? = some name → ∃ l, registry.layout name = .ok l) (i : Nat) :
    Ends (fun _ => True) Fault.IsComment (c.route registry r i) := by
  unfold route
  refine (ends_functionName c r).bind fun f _ => ?_
  cases hs : r.selector with
  | message d name binding | bounced name binding isPartial =>
    rw [hs] at h
    obtain ⟨l, hl⟩ := h name rfl
    simp only [hl]
    trivial
  | comment d text =>
    dsimp only
    cases htag : Comment.tag text r.loc with
    | error cause => exact Fault.isComment_ofComment htag
    | ok hash => trivial
  | empty | anyComment | any | anyBounced => trivial

/-- A sound contract has plans unless a comment is too long. -/
theorem ends_plans (h : c.IsSound registry) (wanted : Direction → Bool) :
    Ends (fun _ => True) Fault.IsComment (c.plans registry wanted) := by
  refine .mapM fun d _ => ?_
  have hroutes : Ends (fun _ => True) Fault.IsComment (c.routes registry d) := by
    refine .mapM fun r hr => ?_
    obtain ⟨hi, -⟩ := getElem?_of_mem_receiversFor hr
    exact (ends_route (h.layouts _ (List.mem_of_getElem? hi)) r.2).mapError fun _ hfault =>
      hfault.atReceiver c.name r.2
  exact (Ends.of_ok ⟨(), h.checkSlots_eq_ok d⟩).bind fun _ _ => hroutes.bind fun _ _ => trivial

/-! ## Procedures -/

/-- A receiver for a message that has a layout has a payload. -/
theorem exists_payload {s : Selector}
    (h : ∀ name, s.message? = some name → ∃ l, registry.layout name = .ok l) :
    ∃ payload, Contract.payload registry s = .ok payload := by
  simp only [payload_eq_ok_iff]
  cases s with
  | message d name binding =>
    obtain ⟨l, hl⟩ := h name rfl
    exact ⟨_, .message hl⟩
  | bounced name binding isPartial =>
    obtain ⟨l, hl⟩ := h name rfl
    exact ⟨_, .bounced hl⟩
  | empty | comment | anyComment | any | anyBounced => exact ⟨_, by constructor⟩

/-- A body that does not fit its payload is wrongly typed. -/
theorem ends_checkReceiver (c : Contract) (payload : Payload) (body : List Stmt) :
    Ends (fun _ => True) Fault.IsReceiver (c.checkReceiver payload body) := by
  unfold checkReceiver
  split
  · trivial
  · exact .inr rfl

/-- A receiver of a sound contract has a procedure unless its comment is too long or its body is wrong. -/
theorem ends_procedure (h : c.IsSound registry) {i : Nat} {r : Receiver} (hi : c.receivers[i]? = some r) :
    Ends (fun _ => True) Fault.IsReceiver (c.procedure registry i) := by
  have hpayload := exists_payload (h.layouts r (List.mem_of_getElem? hi))
  unfold procedure
  rw [hi]
  have hname := (ends_functionName c r).widen fun _ => Fault.IsComment.isReceiver
  refine hname.bind fun _ _ => (Ends.of_ok hpayload).bind fun payload _ => ?_
  exact (ends_checkReceiver c payload r.body).bind fun _ _ => trivial

/-- So have some of its receivers. -/
theorem ends_mapM_procedure (h : c.IsSound registry) {rs : List (Receiver × Nat)}
    (hrs : rs.Sublist c.receivers.zipIdx) :
    Ends (fun _ => True) Fault.IsReceiver (rs.mapM fun (_, index) =>
      (c.procedure registry index).mapError (Fault.atReceiver c.name index)) := by
  refine .mapM fun r hr => ?_
  have hi := List.mk_mem_zipIdx_iff_getElem?.mp (hrs.subset hr)
  exact (ends_procedure h hi).mapError fun _ hfault => hfault.atReceiver c.name r.2

/-! ## Simulators and texts -/

/-- A sound contract can be simulated unless a comment is too long or a body is wrong. -/
theorem ends_ofContract (h : c.IsSound registry) :
    Ends (fun _ => True) Fault.IsReceiver (Simulator.ofContract c registry) := by
  have hplans := (ends_plans h fun _ => true).widen fun _ => Fault.IsComment.isReceiver
  refine hplans.bind fun _ _ => ?_
  exact (ends_mapM_procedure h (List.Sublist.refl _)).bind fun _ _ => trivial

/-- A sound contract has a text unless a comment is too long or a body is wrong; writing never fails. -/
theorem ends_compile (h : c.IsSound registry) (o : Options) :
    Ends (fun _ => True) Fault.IsReceiver (c.compile registry o) := by
  have hplans := (ends_plans h o.wants).widen fun _ => Fault.IsComment.isReceiver
  have hprocedures : Ends (fun _ => True) Fault.IsReceiver (c.procedures registry o.wants) :=
    (ends_mapM_procedure h List.filter_sublist).bind fun _ _ => trivial
  rw [compile_eq]
  exact hplans.bind fun _ _ => hprocedures.bind fun _ _ => trivial

end Contract

/-- A sound program has a text unless a comment is too long, a body is wrong or the text is too long. -/
theorem Program.ends_compile {p : Program} (h : p.IsSound) (limit : Nat) (o : Options) :
    Ends (fun _ => True) Fault.IsOutput (p.compile limit o) := by
  have hparts : Ends (fun _ => True) Fault.IsReceiver
      (p.contracts.mapM fun c => c.compile p.registry o) :=
    .mapM fun c hc => Contract.ends_compile (h.contracts c hc) o
  refine (hparts.widen fun _ => Fault.IsReceiver.isOutput).bind fun parts _ => ?_
  dsimp only
  split
  · exact .inr rfl
  · trivial

/-! ## Programs that are read -/

/-- A program that is read from a document is sound: its names are allowed and different, its widths are in range, its
receivers have layouts and do not clash. So generating code for it fails only for a comment that is too long, a body
that does not fit, or too long a text; its contracts can be simulated unless a comment is too long or a body does not
fit; and their routers have plans unless a comment is too long. -/
theorem Program.faults_of_ofJson {doc : Json} {p : Program} (h : Program.ofJson doc = .ok p) :
    p.IsSound ∧
      (∀ limit o fault, p.compile limit o = .error fault →
        fault.kind = .oversizedComment ∨ fault.kind = .typing ∨ fault.kind = .budget) ∧
      ∀ c ∈ p.contracts,
        (∀ fault, Simulator.ofContract c p.registry = .error fault →
          fault.kind = .oversizedComment ∨ fault.kind = .typing) ∧
        ∀ wanted fault, c.plans p.registry wanted = .error fault → fault.kind = .oversizedComment := by
  have hsound := isSound_of_ofJson h
  refine ⟨hsound, ?_, ?_⟩
  · intro limit o fault hfault
    rcases (ends_compile hsound limit o).of_error hfault with (hcomment | htyping) | hbudget
    · exact .inl hcomment
    · exact .inr (.inl htyping)
    · exact .inr (.inr hbudget)
  · intro c hc
    have hcontract := hsound.contracts c hc
    constructor
    · intro fault hfault
      exact (Contract.ends_ofContract hcontract).of_error hfault
    · intro wanted fault hfault
      exact (Contract.ends_plans hcontract wanted).of_error hfault

/-! ## A program that is read and rejected -/

/-- Takes pings and their bounces, and sets a field that it has not. -/
def Contract.stray : Contract where
  name := "Stray"
  fields := []
  receivers :=
    [⟨.message .internal "Ping" "ping", [.set ⟨"self", some "n"⟩ (.place ⟨"ping", some "n"⟩)], none⟩,
      ⟨.bounced "Ping" "ping" true, [], none⟩]

/-- A document of it and of its message. -/
def strayDocument : Json :=
  .object [("schema_version", .string documentSchema),
    ("messages", .array [.object [("name", .string "Ping"), ("header", .string "0x7"),
      ("fields", .array [.object [("name", .string "n"), ("ty", .string "uint256")]])]]),
    ("contracts", .array [.object [("name", .string "Stray"), ("fields", .array []),
      ("receivers", .array [
        .object [("selector", .object [("kind", .string "internal-binary"), ("message", .string "Ping"),
            ("binding", .string "ping")]),
          ("body", .array [.array [.string "set", .string "self.n", .string "ping.n"]])],
        .object [("selector", .object [("kind", .string "bounce-binary"), ("message", .string "Ping"),
          ("binding", .string "ping"), ("partial", .bool true)])]])]])]

/-- It is sound, and no code is generated for it as its body is wrong. -/
theorem Program.faults_of_ofJson_stray :
    ∃ p fault, Program.ofJson strayDocument = .ok p ∧ Contract.stray ∈ p.contracts ∧
      p.compile 1000 {} = .error fault ∧ fault.kind = .typing ∧ p.IsSound ∧
      (fault.kind = .oversizedComment ∨ fault.kind = .typing ∨ fault.kind = .budget) := by
  have hread : Program.ofJson strayDocument =
      .ok ⟨⟨[⟨"Ping", some ⟨7, .hex⟩, [⟨"n", .uint 256⟩]⟩]⟩, [.stray]⟩ := rfl
  obtain ⟨hsound, hkinds, -⟩ := faults_of_ofJson hread
  exact ⟨_, _, hread, List.mem_cons_self, rfl, rfl, hsound, hkinds 1000 {} _ rfl⟩

end MessageRouter

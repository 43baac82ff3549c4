import MessageRouter.Proofs.Code.Word
import MessageRouter.Proofs.Delivery.Exits
import MessageRouter.Proofs.Delivery.Receipt
import MessageRouter.Proofs.Plan.Routes
/-!
# `Proofs.Delivery.Comments` — which messages are a comment

* `Comment.IsBody`: the cell of a comment, and of nothing else.
* `Comment.cell_eq_ok_iff`, `Comment.tag_eq_ok_iff`, `Comment.tag_eq_error_iff`: which texts are comments.
* `Comment.representation_eq_iff`: only the cell of a comment is hashed as the comment is.
* `Simulator.select_comment_iff`, `Simulator.hash_eq_of_receiver`: a message that gets as far as the comments is for
  the arm of its hash, and the receiver of an arm answers no other.
* `Comment.identifies`: as far as hashes do not collide, comments are told from all other messages.
-/
namespace MessageRouter

/-! ## Cells of comments -/

namespace Comment

/-- An opcode of zero and the bytes of a text, and nothing else. -/
def IsBody (text : String) (c : Cell) : Prop :=
  c.refs = [] ∧ c.bits = List.replicate 32 false ++ Bits.ofBytes (Json.bytesOf text)

theorem length_bytesOf (text : String) : (Json.bytesOf text).length = text.utf8ByteSize := rfl

/-- Different texts have different bytes. -/
theorem bytesOf_inj {s t : String} (h : Json.bytesOf s = Json.bytesOf t) : s = t := by
  apply String.toByteArray_inj.mp
  apply ByteArray.ext
  exact Array.toList_inj.mp h

/-- A cell is the body of one text only. -/
theorem IsBody.text_eq {s t : String} {c : Cell} (hs : IsBody s c) (ht : IsBody t c) : s = t := by
  have hbits := hs.2.symm.trans ht.2
  exact bytesOf_inj (Bits.ofBytes_inj (List.append_cancel_left hbits))

/-- A text has a cell exactly if it has at most 123 bytes. -/
theorem cell_eq_ok_iff {text : String} {c : Cell} :
    cell text = .ok c ↔ text.utf8ByteSize ≤ 123 ∧ IsBody text c := by
  have hstores : (stores text).run Builder.empty =
      Builder.storeBits (Bits.ofBytes (Json.bytesOf text)) ⟨List.replicate 32 false, []⟩ := rfl
  unfold cell Build.cell
  rw [Fallible.mapError_eq_ok_iff, hstores, Builder.storeBits]
  dsimp only
  rw [Bits.length_ofBytes, length_bytesOf, List.length_replicate]
  by_cases hroom : text.utf8ByteSize ≤ 123
  · rw [if_pos (by show 8 * text.utf8ByteSize ≤ 1023 - 32; omega)]
    constructor
    · intro h
      obtain rfl := Except.ok.inj h
      exact ⟨hroom, rfl, rfl⟩
    · rintro ⟨-, hrefs, hbits⟩
      exact congrArg Except.ok (Cell.ext hbits hrefs).symm
  · rw [if_neg (by show ¬8 * text.utf8ByteSize ≤ 1023 - 32; omega)]
    constructor
    · intro h
      cases h
    · rintro ⟨hsize, -⟩
      exact absurd hsize hroom

theorem exists_cell {text : String} (h : text.utf8ByteSize ≤ 123) : ∃ c, cell text = .ok c :=
  ⟨.mk (List.replicate 32 false ++ Bits.ofBytes (Json.bytesOf text)) [],
    cell_eq_ok_iff.mpr ⟨h, rfl, rfl⟩⟩

/-- The tag of a text that has a cell is the hash of the cell. -/
theorem tag_eq_ok_iff {text tag : String} {loc : Option Span} :
    Comment.tag text loc = .ok tag ↔ ∃ c, cell text = .ok c ∧ tag = c.hashText := by
  unfold Comment.tag
  by_cases hsize : maxBytes < text.utf8ByteSize
  · rw [if_pos hsize]
    constructor
    · intro h
      cases h
    · rintro ⟨c, hc, -⟩
      exact absurd (cell_eq_ok_iff.mp hc).1 (Nat.not_le_of_lt hsize)
  · rw [if_neg hsize, Fallible.map_eq_ok_iff]
    constructor
    · rintro ⟨c, hc, rfl⟩
      exact ⟨c, hc, rfl⟩
    · rintro ⟨c, hc, rfl⟩
      exact ⟨c, hc, rfl⟩

/-- A text has no tag exactly if it has more than 123 bytes, and that is the cause. -/
theorem tag_eq_error_iff {text : String} {loc : Option Span} {e : Error} :
    Comment.tag text loc = .error e ↔
      123 < text.utf8ByteSize ∧ e = .oversized text.utf8ByteSize loc := by
  unfold Comment.tag
  by_cases hsize : maxBytes < text.utf8ByteSize
  · rw [if_pos hsize]
    constructor
    · intro h
      exact ⟨hsize, (Except.error.inj h).symm⟩
    · rintro ⟨-, rfl⟩
      rfl
  · rw [if_neg hsize]
    obtain ⟨c, hc⟩ := exists_cell (Nat.le_of_not_lt hsize)
    rw [hc]
    constructor
    · intro h
      cases h
    · rintro ⟨hlong, -⟩
      exact absurd hlong hsize

/-- Only the cell of a comment is hashed as the comment is. -/
theorem representation_eq_iff {text : String} {c : Cell} (h : cell text = .ok c) (other : Cell) :
    c.representation = other.representation ↔ IsBody text other := by
  obtain ⟨hsize, hrefs, hbits⟩ := cell_eq_ok_iff.mp h
  obtain rfl : c = .mk (List.replicate 32 false ++ Bits.ofBytes (Json.bytesOf text)) [] :=
    Cell.ext hbits hrefs
  have hlength : (List.replicate 32 false ++ Bits.ofBytes (Json.bytesOf text)).length =
      32 + 8 * text.utf8ByteSize := by
    rw [List.length_append, List.length_replicate, Bits.length_ofBytes, length_bytesOf]
  exact Cell.representation_eq_iff (by omega) (by omega)

end Comment

/-! ## Hashes -/

namespace Cell

/-- The hash function tells two cells apart if it is given different bytes for them. -/
def NoCollision (a b : Cell) : Prop :=
  Sha256.digest a.representation = Sha256.digest b.representation → a.representation = b.representation

/-- Hashes of one text are the same. -/
theorem hashText_eq_iff {a b : Cell} : a.hashText = b.hashText ↔ a.hash = b.hash := by
  have hlength : a.hash.length = b.hash.length := by rw [length_hash, length_hash]
  constructor
  · intro h
    exact Bits.eq_of_toNat_ofBytes hlength ((Code.hexBytes_eq_iff hlength).mp h)
  · intro h
    rw [hashText, hashText, h]

/-- Where hashes do not collide, they are the same for the same bytes only. -/
theorem NoCollision.hashText_eq_iff {a b : Cell} (h : NoCollision a b) :
    a.hashText = b.hashText ↔ a.representation = b.representation := by
  rw [Cell.hashText_eq_iff, hash_eq, hash_eq]
  constructor
  · exact h
  · intro heq
    rw [heq]

end Cell

/-! ## The stage of comments -/

namespace Simulator

variable {c : Contract} {registry : Registry} {sim : Simulator} {d : Direction} {p : Plan}
  {stage : Plan.CommentStage} {arm : Plan.CommentArm}

/-- A message gets as far as the comments of a plan: it is not looked at as a bounce, its opcode is zero, and no arm
of an opcode is for it. -/
structure ReachesComments (sim : Simulator) (d : Direction) (p : Plan) (stage : Plan.CommentStage)
    (body : Cell) (isBounced : Bool) : Prop where
  plan : sim.plan? d = some p
  comments : p.comments = some stage
  notBounced : p.bounced = none ∨ isBounced = false
  opcode : (Slice.ofCell body).opcode = 0
  noArm : p.opcodes.find? (isFor 0 (Slice.ofCell body)) = none

/-- The arms of a stage of comments are those of the receivers of comments, of different tags. -/
theorem receiver_of_mem_comments (h : ofContract c registry = .ok sim) (hp : sim.plan? d = some p)
    (hstage : p.comments = some stage) :
    stage.comments.Pairwise (fun a b => a.hash ≠ b.hash) ∧
      ∀ arm ∈ stage.comments, ∃ r, c.receivers[arm.handler.receiver]? = some r ∧
        r.selector = .comment d arm.text ∧ Comment.tag arm.text r.loc = .ok arm.hash := by
  obtain ⟨-, routes, hroutes, rfl⟩ := Contract.plan_eq_ok_iff.mp (plan_of_plan? h hp)
  obtain rfl := Plan.eq_of_commentStage_eq_some hstage
  refine ⟨Plan.firstOfTag_pairwise _, ?_⟩
  intro arm harm
  obtain ⟨route, hroute, hcomment⟩ := List.mem_filterMap.mp (Plan.firstOfTag_subset _ harm)
  obtain rfl := Plan.Route.eq_of_comment? hcomment
  obtain ⟨r, i, hr, hisRoute⟩ := Contract.exists_isRoute hroutes hroute
  obtain ⟨hindex, hdir⟩ := Contract.getElem?_of_mem_receiversFor hr
  cases hisRoute with
  | @comment d' text tag f hs ht hf =>
    have hd : d' = d := by
      rw [hs] at hdir
      exact hdir
    subst hd
    exact ⟨r, hindex, hs, ht⟩

/-- Arms for one receiver have one tag. -/
theorem hash_eq_of_receiver_eq (h : ofContract c registry = .ok sim) (hp : sim.plan? d = some p)
    (hstage : p.comments = some stage) {arm arm' : Plan.CommentArm} (harm : arm ∈ stage.comments)
    (harm' : arm' ∈ stage.comments) (hreceiver : arm.handler.receiver = arm'.handler.receiver) :
    arm.hash = arm'.hash := by
  obtain ⟨-, harms⟩ := receiver_of_mem_comments h hp hstage
  obtain ⟨r, hr, hs, ht⟩ := harms arm harm
  obtain ⟨r', hr', hs', ht'⟩ := harms arm' harm'
  rw [hreceiver] at hr
  obtain rfl := Option.some.inj (hr.symm.trans hr')
  obtain ⟨-, htext⟩ := Selector.comment.inj (hs.symm.trans hs')
  rw [htext] at ht
  exact Except.ok.inj (ht.symm.trans ht')

/-- A message that gets as far as the comments is chosen for by their stage. -/
theorem select_eq_of_comments {body : Cell} {isBounced : Bool}
    (hreaches : sim.ReachesComments d p stage body isBounced) :
    sim.select d body isBounced =
      (commentReceiver stage (Slice.ofCell body)).map fun choice =>
        choice.elim (selectAny p.fallback (Slice.ofCell body)) fun c => .call c.1 c.2 := by
  have hselect : sim.select d body isBounced = sim.selectPlain p (Slice.ofCell body) := by
    rw [select, hreaches.plan]
    dsimp only [selectIn]
    rcases hreaches.notBounced with hbounced | rfl
    · rw [hbounced]
    · cases p.bounced <;> rfl
  rw [hselect, selectPlain_eq, hreaches.opcode, hreaches.noArm, hreaches.comments]
  rfl

/-- Whoever takes any comment or any message gets some of its bits. -/
theorem fallback_ne_nothing (fallback rest : Option Plan.Handler) (s : Slice) (hd : Plan.Handler) :
    (if opcodeBits ≤ s.remaining then
        fallback.map fun h => (h, Received.slice (s.drop opcodeBits))
      else none).elim (selectAny rest s) (fun c => .call c.1 c.2) ≠ .call hd .nothing := by
  have hany : selectAny rest s ≠ .call hd .nothing := by
    unfold selectAny
    cases rest with
    | none =>
      intro heq
      cases heq
    | some other =>
      intro heq
      cases heq
  intro heq
  by_cases hlength : opcodeBits ≤ s.remaining
  · rw [if_pos hlength] at heq
    cases fallback with
    | none => exact hany heq
    | some other => cases heq
  · rw [if_neg hlength] at heq
    exact hany heq

/-- Of those that a message which gets as far as the comments may be for, only an arm of its hash gets nothing. -/
theorem exists_comment_of_select {body : Cell} {isBounced : Bool}
    (hreaches : sim.ReachesComments d p stage body isBounced) {hd : Plan.Handler}
    (hselect : sim.select d body isBounced = .ok (.call hd .nothing)) :
    ∃ found ∈ stage.comments, found.handler = hd ∧ found.hash = body.hashText := by
  have hhash : (Slice.ofCell body).hashText = body.hashText := by
    rw [Slice.hashText, Slice.toCell_ofCell]
  rw [select_eq_of_comments hreaches, commentReceiver_eq, hhash] at hselect
  cases hfind : stage.comments.find? fun arm => arm.hash = body.hashText with
  | some found =>
    rw [hfind] at hselect
    have hcall : Selection.call found.handler Received.nothing = .call hd .nothing :=
      Except.ok.inj hselect
    injection hcall with hhandler
    exact ⟨found, List.mem_of_find?_eq_some hfind, hhandler, by simpa using List.find?_some hfind⟩
  | none =>
    rw [hfind, Option.map_none, Option.none_or] at hselect
    exact absurd (Except.ok.inj hselect) (fallback_ne_nothing _ _ _ _)

/-- A message that gets as far as the comments is for the arm of its hash. -/
theorem select_comment (h : ofContract c registry = .ok sim) {body : Cell} {isBounced : Bool}
    (hreaches : sim.ReachesComments d p stage body isBounced) (harm : arm ∈ stage.comments)
    (hhash : arm.hash = body.hashText) :
    sim.select d body isBounced = .ok (.call arm.handler .nothing) := by
  obtain ⟨hdifferent, -⟩ := receiver_of_mem_comments h hreaches.plan hreaches.comments
  rw [select_eq_of_comments hreaches, commentReceiver_eq, Slice.hashText, Slice.toCell_ofCell]
  cases hfind : stage.comments.find? fun arm => arm.hash = body.hashText with
  | none => exact absurd hhash (by simpa using List.find?_eq_none.mp hfind arm harm)
  | some found =>
    -- no other arm has the tag
    have hsame : found = arm := by
      by_contra hne
      have hfound : found.hash = body.hashText := by simpa using List.find?_some hfind
      have : Std.Symm fun a b : Plan.CommentArm => a.hash ≠ b.hash := ⟨fun _ _ => Ne.symm⟩
      exact hdifferent.forall (List.mem_of_find?_eq_some hfind) harm hne (hfound.trans hhash.symm)
    rw [hsame]
    rfl

/-- The arms that are for a message which gets as far as the comments are those of its hash. -/
theorem select_comment_iff (h : ofContract c registry = .ok sim) {body : Cell} {isBounced : Bool}
    (hreaches : sim.ReachesComments d p stage body isBounced) (harm : arm ∈ stage.comments) :
    sim.select d body isBounced = .ok (.call arm.handler .nothing) ↔ arm.hash = body.hashText := by
  constructor
  · intro hselect
    obtain ⟨found, hfound, hhandler, hhash⟩ := exists_comment_of_select hreaches hselect
    have hsame : arm.hash = found.hash :=
      hash_eq_of_receiver_eq h hreaches.plan hreaches.comments harm hfound
        (congrArg (·.receiver) hhandler.symm)
    exact hsame.trans hhash
  · exact select_comment h hreaches harm

/-- As far as hashes do not collide, the messages of the hash of an arm are those that are its comment. -/
theorem hash_eq_iff_isBody (h : ofContract c registry = .ok sim) {body : Cell} {isBounced : Bool}
    (hreaches : sim.ReachesComments d p stage body isBounced) (harm : arm ∈ stage.comments)
    {own : Cell} (hown : Comment.cell arm.text = .ok own) (hcollision : own.NoCollision body) :
    arm.hash = body.hashText ↔ Comment.IsBody arm.text body := by
  obtain ⟨-, harms⟩ := receiver_of_mem_comments h hreaches.plan hreaches.comments
  obtain ⟨r, hr, -, htag⟩ := harms arm harm
  obtain ⟨own', hown', hhash⟩ := Comment.tag_eq_ok_iff.mp htag
  obtain rfl := Except.ok.inj (hown.symm.trans hown')
  rw [hhash, hcollision.hashText_eq_iff]
  exact Comment.representation_eq_iff hown body

/-- Whoever answered a message was chosen for it, and got what its payload says. -/
theorem exists_select_of_receiver (h : ofContract c registry = .ok sim) {state : Record} {body : Cell}
    {isBounced : Bool} {outcome : Outcome} {i : Nat}
    (hout : sim.deliver d state body isBounced = .ok outcome) (hi : outcome.receiver = some i) :
    ∃ hd received r given, sim.select d body isBounced = .ok (.call hd received) ∧
      hd.receiver = i ∧ c.receivers[i]? = some r ∧
      Contract.payload registry r.selector = .ok given ∧ received.Fits given := by
  obtain ⟨received, hchoice⟩ := exists_rule_eq_call h hout hi
  have hchosen := c.rule_ends registry d body isBounced
  rw [hchoice] at hchosen
  obtain ⟨r, given, hmem, hgiven, hfits⟩ := hchosen i received rfl
  rw [← select_eq_rule h] at hchoice
  obtain ⟨choice, hselect, hcall⟩ := Fallible.map_eq_ok_iff.mp hchoice
  cases choice with
  | swallowed | unhandled => cases hcall
  | call hd received' =>
    injection hcall with hreceiver hreceived
    rw [hreceived] at hselect
    exact ⟨hd, received, r, given, hselect, hreceiver,
      (Contract.getElem?_of_mem_receiversFor hmem).1, hgiven, hfits⟩

/-- If the receiver of an arm answered a message that got as far as the comments, the arm is that of its hash. -/
theorem hash_eq_of_receiver (h : ofContract c registry = .ok sim) {state : Record} {body : Cell}
    {isBounced : Bool} {outcome : Outcome}
    (hreaches : sim.ReachesComments d p stage body isBounced) (harm : arm ∈ stage.comments)
    (hout : sim.deliver d state body isBounced = .ok outcome)
    (hi : outcome.receiver = some arm.handler.receiver) : arm.hash = body.hashText := by
  have hp := hreaches.plan
  have hstage := hreaches.comments
  obtain ⟨-, harms⟩ := receiver_of_mem_comments h hp hstage
  obtain ⟨r, hr, hs, -⟩ := harms arm harm
  obtain ⟨hd, received, r', given, hselect, hreceiver, hr', hgiven, hfits⟩ :=
    exists_select_of_receiver h hout hi
  obtain rfl := Option.some.inj (hr.symm.trans hr')
  -- the receiver of a comment gets nothing
  rw [hs] at hgiven
  obtain rfl := Except.ok.inj hgiven
  cases received with
  | struct message => cases hfits
  | slice rest => cases hfits
  | nothing =>
    obtain ⟨found, hfound, rfl, hhash⟩ := exists_comment_of_select hreaches hselect
    exact (hash_eq_of_receiver_eq h hp hstage harm hfound hreceiver.symm).trans hhash

end Simulator

/-! ## Comments among messages -/

open Simulator in
/-- A text is a comment exactly if it has at most 123 bytes, and one that is too long says so. The bytes that are
hashed for a comment are those of its own cell and of no other. So, as far as hashes do not collide, a message that
gets as far as the comments runs the receiver of a text exactly if it is the cell of the text, and texts have one tag
exactly if they are the same. -/
theorem Comment.identifies (text : String) :
    ((∃ c, Comment.cell text = .ok c) ↔ text.utf8ByteSize ≤ 123) ∧
      (∀ loc e, Comment.tag text loc = .error e ↔
        123 < text.utf8ByteSize ∧ e = .oversized text.utf8ByteSize loc) ∧
      ∀ own, Comment.cell text = .ok own →
        (∀ other : Cell, own.representation = other.representation ↔ IsBody text other) ∧
        (∀ (c : Contract) (registry : Registry) (sim : Simulator) (d : Direction) (p : Plan)
            (stage : Plan.CommentStage) (body : Cell) (isBounced : Bool),
          ofContract c registry = .ok sim → sim.ReachesComments d p stage body isBounced →
          own.NoCollision body → ∀ arm ∈ stage.comments, arm.text = text →
            (sim.select d body isBounced = .ok (.call arm.handler .nothing) ↔ IsBody text body) ∧
            ∀ state,
              (IsBody text body → c.RunsReceiver registry state arm.handler.receiver .nothing
                (sim.deliver d state body isBounced)) ∧
              ∀ outcome, sim.deliver d state body isBounced = .ok outcome →
                outcome.receiver = some arm.handler.receiver → IsBody text body) ∧
        ∀ text' other tag tag' loc loc', Comment.cell text' = .ok other → own.NoCollision other →
          Comment.tag text loc = .ok tag → Comment.tag text' loc' = .ok tag' →
            (tag = tag' ↔ text = text') := by
  refine ⟨?_, fun _ _ => tag_eq_error_iff, fun own hown => ⟨representation_eq_iff hown, ?_, ?_⟩⟩
  · constructor
    · rintro ⟨c, hc⟩
      exact (cell_eq_ok_iff.mp hc).1
    · intro hsize
      exact exists_cell hsize
  · intro c registry sim d p stage body isBounced h hreaches hcollision arm harm htext
    subst htext
    -- the tag of the arm is the hash of the text's own cell, which no other body has without a collision
    have hbody : arm.hash = body.hashText ↔ IsBody arm.text body :=
      hash_eq_iff_isBody h hreaches harm hown hcollision
    have hselect : sim.select d body isBounced = .ok (.call arm.handler .nothing) ↔ IsBody arm.text body :=
      (select_comment_iff h hreaches harm).trans hbody
    refine ⟨hselect, fun state => ⟨?_, ?_⟩⟩
    · intro his
      refine deliver_runsReceiver h state ?_
      rw [← select_eq_rule h, hselect.mpr his]
      rfl
    · intro outcome hout hi
      exact hbody.mp (hash_eq_of_receiver h hreaches harm hout hi)
  · intro text' other tag tag' loc loc' hother hcollision htag htag'
    obtain ⟨own', hown', rfl⟩ := tag_eq_ok_iff.mp htag
    obtain ⟨other', hother', rfl⟩ := tag_eq_ok_iff.mp htag'
    obtain rfl := Except.ok.inj (hown.symm.trans hown')
    obtain rfl := Except.ok.inj (hother.symm.trans hother')
    rw [hcollision.hashText_eq_iff, representation_eq_iff hown]
    constructor
    · intro hbody
      exact hbody.text_eq (cell_eq_ok_iff.mp hother).2
    · rintro rfl
      exact (cell_eq_ok_iff.mp hother).2

/-- Takes one comment. -/
def Contract.greeter : Contract := ⟨"Greeter", [], [⟨.comment .internal "hi", [], none⟩]⟩

/-- The greeter has an arm for its comment and none for opcodes. -/
theorem Contract.exists_simulator_greeter :
    ∃ sim p stage arm, Simulator.ofContract .greeter .empty = .ok sim ∧
      sim.plan? .internal = some p ∧ p.comments = some stage ∧ p.opcodes = [] ∧
      arm ∈ stage.comments ∧ arm.text = "hi" :=
  ⟨_, _, _, _, rfl, rfl, rfl, rfl, List.mem_cons_self, rfl⟩

/-- The cell of the comment runs its receiver. -/
theorem Comment.identifies_greeter :
    ∃ (sim : Simulator) (own : Cell) (arm : Plan.CommentArm),
      Simulator.ofContract .greeter .empty = .ok sim ∧
      Comment.cell "hi" = .ok own ∧ arm.text = "hi" ∧
      sim.select .internal own false = .ok (.call arm.handler .nothing) ∧
      Contract.greeter.RunsReceiver .empty .empty arm.handler.receiver .nothing
        (sim.deliver .internal .empty own false) := by
  obtain ⟨sim, p, stage, arm, hsim, hp, hstage, hopcodes, harm, htext⟩ :=
    Contract.exists_simulator_greeter
  have hown : Comment.cell "hi" =
      .ok (.mk (List.replicate 32 false ++ Bits.ofBytes (Json.bytesOf "hi")) []) := rfl
  have hreaches : sim.ReachesComments .internal p stage
      (.mk (List.replicate 32 false ++ Bits.ofBytes (Json.bytesOf "hi")) []) false :=
    ⟨hp, hstage, .inr rfl, rfl, by rw [hopcodes]; rfl⟩
  obtain ⟨-, -, hdelivery⟩ := Comment.identifies "hi"
  obtain ⟨-, harms, -⟩ := hdelivery _ hown
  obtain ⟨hselect, hruns⟩ := harms _ _ sim _ _ _ _ _ hsim hreaches (fun _ => rfl) arm harm htext
  exact ⟨sim, _, arm, hsim, hown, htext, hselect.mpr ⟨rfl, rfl⟩, (hruns .empty).1 ⟨rfl, rfl⟩⟩

end MessageRouter

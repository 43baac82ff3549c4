import MessageRouter.Proofs.Document.Soundness
/-!
# `Proofs.Plan.Offence` — the first receiver that makes a direction ambiguous

* `Selector.Kind`: the kinds of selectors; some of them a direction has once at most.
* `Contract.AreUnambiguous`: receivers of which no two are for the same messages.
* `Contract.checkSlotsFrom_nil_eq_ok_iff`: exactly such receivers pass the check.
* `Contract.exists_offence`: a check that fails does so at some receiver, behind others that pass.
* `Contract.IsFirstOffence`: what a fault says of the first receiver that is ambiguous with those before it.
* `Contract.checkSlots_first_offence`: the check passes unambiguous receivers and reports the first offence of others.
-/
namespace MessageRouter

/-! ## Kinds and opcodes -/

/-- The number of the opcode that heads the messages of a name, if they can be received. -/
def Registry.opcode? (r : Registry) (name : String) : Option UInt32 :=
  ((r.find? name).bind (·.header)).map (·.value)

theorem Registry.opcode?_of_layout {r : Registry} {name : String} {l : Layout} (h : r.layout name = .ok l) :
    r.opcode? name = some l.header.value := by
  obtain ⟨hfind, hheader⟩ := Registry.layout_eq_ok_iff.mp h
  rw [opcode?, hfind, Option.bind_some, hheader, Option.map_some]

theorem Registry.opcode?_of_layout_error {r : Registry} {name : String} {e : LayoutError}
    (h : r.layout name = .error e) : r.opcode? name = none := by
  unfold layout at h
  unfold opcode?
  cases hfind : r.find? name with
  | none => rfl
  | some m =>
    rw [hfind] at h
    cases hheader : m.header with
    | none => rw [Option.bind_some, hheader, Option.map_none]
    | some header =>
      simp only [hheader] at h
      cases h

namespace Selector

/-- The kinds of selectors. -/
inductive Kind where
  | message
  | empty
  | comment
  | anyComment
  | any
  | bounced
  | anyBounced
  deriving DecidableEq, Repr

/-- Of these kinds a direction has one receiver at most. -/
def Kind.isSole : Kind → Bool
  | .empty | .anyComment | .any | .anyBounced => true
  | .message | .comment | .bounced => false

def kind : Selector → Kind
  | .message .. => .message
  | .empty _ => .empty
  | .comment .. => .comment
  | .anyComment .. => .anyComment
  | .any .. => .any
  | .bounced .. => .bounced
  | .anyBounced _ => .anyBounced

/-- A message that is named has no opcode: it is not registered, or has no header. -/
def LacksOpcode (registry : Registry) (s : Selector) : Prop :=
  ∃ name, s.message? = some name ∧ registry.opcode? name = none

/-- The number of the opcode that a selector is for. -/
def received? (registry : Registry) : Selector → Option UInt32
  | .message _ name _ => registry.opcode? name
  | _ => none

/-- The number of the opcode whose bounces a selector is for. -/
def returned? (registry : Registry) : Selector → Option UInt32
  | .bounced name .. => registry.opcode? name
  | _ => none

/-- Whether a selector is for what a slot stands for. -/
def IsFor (registry : Registry) (s : Selector) : Slot → Prop
  | .empty => s.kind = .empty
  | .anyComment => s.kind = .anyComment
  | .any => s.kind = .any
  | .anyBounced => s.kind = .anyBounced
  | .opcode false value => s.received? registry = some value
  | .opcode true value => s.returned? registry = some value

variable {registry : Registry} {s : Selector}

/-- The slot of a message that has a layout, and the cause if it has none. -/
theorem slot_of_message (registry : Registry) {name : String} (hs : s.message? = some name) :
    (∃ l, registry.layout name = .ok l ∧
        s.slot registry = .ok (some (.opcode s.isBounce l.header.value))) ∨
      ∃ e, registry.layout name = .error e ∧ s.slot registry = .error e := by
  cases hl : registry.layout name with
  | ok l =>
    refine .inl ⟨l, rfl, ?_⟩
    cases s <;> cases hs <;> simp only [slot, hl, isBounce] <;> rfl
  | error e =>
    refine .inr ⟨e, rfl, ?_⟩
    cases s <;> cases hs <;> simp only [slot, hl] <;> rfl

/-- A selector has the slot of what it is for. -/
theorem slot_eq_some_iff {slot : Slot} : s.slot registry = .ok (some slot) ↔ s.IsFor registry slot := by
  cases hname : s.message? with
  | none =>
    cases s <;> cases hname <;> rcases slot with _ | _ | _ | _ | ⟨_ | _, value⟩ <;>
      simp [Selector.slot, IsFor, kind, received?, returned?]
  | some name =>
    rcases slot_of_message registry hname with ⟨l, hl, hslot⟩ | ⟨e, he, hslot⟩
    · have hopcode := Registry.opcode?_of_layout hl
      rw [hslot]
      cases s <;> cases hname <;> rcases slot with _ | _ | _ | _ | ⟨_ | _, value⟩ <;>
        simp [IsFor, kind, received?, returned?, isBounce, hopcode]
    · have hopcode := Registry.opcode?_of_layout_error he
      rw [hslot]
      cases s <;> cases hname <;> rcases slot with _ | _ | _ | _ | ⟨_ | _, value⟩ <;>
        simp [IsFor, kind, received?, returned?, hopcode]

/-- A selector has no slot, and does not do without one, exactly if its message has no opcode. -/
theorem exists_slot_iff_not_lacksOpcode :
    (∃ taking, s.slot registry = .ok taking) ↔ ¬s.LacksOpcode registry := by
  rw [exists_slot_iff]
  constructor
  · rintro hlayouts ⟨name, hname, hnone⟩
    obtain ⟨l, hl⟩ := hlayouts name hname
    rw [Registry.opcode?_of_layout hl] at hnone
    cases hnone
  · intro hnot name hname
    cases hl : registry.layout name with
    | ok l => exact ⟨l, rfl⟩
    | error e => exact absurd ⟨name, hname, Registry.opcode?_of_layout_error hl⟩ hnot

end Selector

namespace Contract

variable {c : Contract} {registry : Registry} {d : Direction}

/-! ## Unambiguous receivers -/

/-- Receivers of one direction of which no two are for the same messages. -/
structure AreUnambiguous (registry : Registry) (rs : List (Receiver × Nat)) : Prop where
  opcodes : ∀ r ∈ rs, ¬r.1.selector.LacksOpcode registry
  soles : ((rs.map (·.1.selector.kind)).filter (·.isSole)).Nodup
  received : (rs.filterMap (·.1.selector.received? registry)).Nodup
  returned : (rs.filterMap (·.1.selector.returned? registry)).Nodup

theorem AreUnambiguous.sublist {rs rs' : List (Receiver × Nat)} (h : AreUnambiguous registry rs)
    (hsub : rs'.Sublist rs) : AreUnambiguous registry rs' where
  opcodes r hr := h.opcodes r (hsub.subset hr)
  soles := h.soles.sublist ((hsub.map _).filter _)
  received := h.received.sublist (hsub.filterMap _)
  returned := h.returned.sublist (hsub.filterMap _)

/-- Receivers do not take the same slot exactly if they are not for the same messages. -/
theorem apart_iff {a b : Receiver × Nat} :
    Apart registry a b ↔
      (a.1.selector.kind.isSole = true → b.1.selector.kind.isSole = true →
        a.1.selector.kind ≠ b.1.selector.kind) ∧
      (∀ v, a.1.selector.received? registry = some v →
        ∀ v', b.1.selector.received? registry = some v' → v ≠ v') ∧
      ∀ v, a.1.selector.returned? registry = some v →
        ∀ v', b.1.selector.returned? registry = some v' → v ≠ v' := by
  simp only [Apart, ne_eq, Selector.slot_eq_some_iff]
  constructor
  · intro h
    refine ⟨?_, ?_, ?_⟩
    · intro hsole _ heq
      -- a kind of which there is one is that of a slot
      cases hkind : a.1.selector.kind with
      | empty => exact h .empty hkind (heq.symm.trans hkind)
      | anyComment => exact h .anyComment hkind (heq.symm.trans hkind)
      | any => exact h .any hkind (heq.symm.trans hkind)
      | anyBounced => exact h .anyBounced hkind (heq.symm.trans hkind)
      | message | comment | bounced =>
        rw [hkind] at hsole
        cases hsole
    · rintro v hv _ hv' rfl
      exact h (.opcode false v) hv hv'
    · rintro v hv _ hv' rfl
      exact h (.opcode true v) hv hv'
  · rintro ⟨hkinds, hreceived, hreturned⟩ slot ha hb
    have hsole {kind : Selector.Kind} (hk : kind.isSole = true) (ha : a.1.selector.kind = kind)
        (hb : b.1.selector.kind = kind) : False :=
      hkinds (ha ▸ hk) (hb ▸ hk) (ha.trans hb.symm)
    match slot with
    | .empty | .anyComment | .any | .anyBounced => exact hsole rfl ha hb
    | .opcode false v => exact hreceived v ha v hb rfl
    | .opcode true v => exact hreturned v ha v hb rfl

theorem areUnambiguous_iff {rs : List (Receiver × Nat)} :
    AreUnambiguous registry rs ↔
      (∀ r ∈ rs, ∃ taking, r.1.selector.slot registry = .ok taking) ∧ rs.Pairwise (Apart registry) := by
  have hpairwise : rs.Pairwise (Apart registry) ↔
      ((rs.map (·.1.selector.kind)).filter (·.isSole)).Nodup ∧
        (rs.filterMap (·.1.selector.received? registry)).Nodup ∧
        (rs.filterMap (·.1.selector.returned? registry)).Nodup := by
    simp only [List.Nodup, List.pairwise_filter, List.pairwise_map, List.pairwise_filterMap,
      ← List.pairwise_and_iff, ← apart_iff]
  simp only [hpairwise, Selector.exists_slot_iff_not_lacksOpcode]
  constructor
  · rintro ⟨hopcodes, hsoles, hreceived, hreturned⟩
    exact ⟨hopcodes, hsoles, hreceived, hreturned⟩
  · rintro ⟨hopcodes, hsoles, hreceived, hreturned⟩
    exact ⟨hopcodes, hsoles, hreceived, hreturned⟩

/-- Exactly unambiguous receivers pass the check. -/
theorem checkSlotsFrom_nil_eq_ok_iff {rs : List (Receiver × Nat)} :
    c.checkSlotsFrom registry [] rs = .ok () ↔ AreUnambiguous registry rs := by
  rw [areUnambiguous_iff]
  constructor
  · intro h
    exact ⟨exists_slot_of_checkSlotsFrom h, (pairwise_of_checkSlotsFrom h).1⟩
  · rintro ⟨hslots, hpairwise⟩
    exact checkSlotsFrom_eq_ok hslots hpairwise fun _ _ _ _ => rfl

/-! ## Offences -/

/-- Why a receiver does not pass behind others: its message has no layout, or its slot is taken already. -/
inductive Offends (c : Contract) (registry : Registry) (taken : List (Slot × Nat))
    (before : List (Receiver × Nat)) (r : Receiver) (i : Nat) : Fault → Prop where
  | layout {cause : LayoutError} (h : r.selector.slot registry = .error cause) :
      Offends c registry taken before r i ((Fault.ofCause (.layout cause)).atReceiver c.name i)
  | slot {slot : Slot} {first : Nat} (h : r.selector.slot registry = .ok (some slot))
      (hfirst : taken.lookup slot = some first ∨
        ∃ r', (r', first) ∈ before ∧ r'.selector.slot registry = .ok (some slot)) :
      Offends c registry taken before r i
        ((Fault.ofCause (.clash registry c.name r.selector first i)).atReceiver c.name i)

section Offends

variable {taken : List (Slot × Nat)} {before : List (Receiver × Nat)} {a : Receiver × Nat} {r : Receiver}
  {i : Nat} {f : Fault}

theorem Offends.cons (a : Receiver × Nat) (h : c.Offends registry taken before r i f) :
    c.Offends registry taken (a :: before) r i f := by
  cases h with
  | layout hcause => exact .layout hcause
  | slot hslot hfirst =>
    refine .slot hslot (hfirst.imp_right ?_)
    rintro ⟨holder, hmem, hholder⟩
    exact ⟨holder, List.mem_cons_of_mem _ hmem, hholder⟩

/-- What was taken is taken still, or was taken by the receiver in front. -/
theorem Offends.cons_of_slot {slot : Slot} (ha : a.1.selector.slot registry = .ok (some slot))
    (h : c.Offends registry ((slot, a.2) :: taken) before r i f) :
    c.Offends registry taken (a :: before) r i f := by
  cases h with
  | layout hcause => exact .layout hcause
  | @slot slot' first hslot hfirst =>
    apply Offends.slot hslot
    rcases hfirst with hfirst | ⟨holder, hmem, hholder⟩
    · by_cases hsame : slot' = slot
      · subst hsame
        rw [List.lookup_cons_self] at hfirst
        obtain rfl := Option.some.inj hfirst
        exact .inr ⟨a.1, List.mem_cons_self, ha⟩
      · rw [List.lookup_cons, beq_false_of_ne hsame] at hfirst
        exact .inl hfirst
    · exact .inr ⟨holder, List.mem_cons_of_mem _ hmem, hholder⟩

end Offends

/-- A check that fails does so at some receiver, behind others that pass. -/
theorem exists_offence {taken : List (Slot × Nat)} {rs : List (Receiver × Nat)} {f : Fault}
    (h : c.checkSlotsFrom registry taken rs = .error f) :
    ∃ before r i after, rs = before ++ (r, i) :: after ∧
      c.checkSlotsFrom registry taken before = .ok () ∧ c.Offends registry taken before r i f := by
  induction rs generalizing taken with
  | nil => cases h
  | cons first rest ih =>
    obtain ⟨r, i⟩ := first
    rw [checkSlotsFrom] at h
    cases htaking : r.selector.slot registry with
    | error cause =>
      simp only [htaking] at h
      obtain rfl := Except.error.inj h
      exact ⟨[], r, i, rest, rfl, rfl, .layout htaking⟩
    | ok taking =>
      simp only [htaking] at h
      cases taking with
      | none =>
        -- a receiver without a slot passes, and stands before whoever does not
        obtain ⟨before, r', i', after, rfl, hbefore, hoffends⟩ := ih h
        refine ⟨(r, i) :: before, r', i', after, rfl, ?_, hoffends.cons (r, i)⟩
        simp only [checkSlotsFrom, htaking, hbefore]
      | some slot =>
        cases hlookup : taken.lookup slot with
        | some holder =>
          simp only [hlookup] at h
          obtain rfl := Except.error.inj h
          exact ⟨[], r, i, rest, rfl, rfl, .slot htaking (.inl hlookup)⟩
        | none =>
          simp only [hlookup] at h
          obtain ⟨before, r', i', after, rfl, hbefore, hoffends⟩ := ih h
          refine ⟨(r, i) :: before, r', i', after, rfl, ?_, hoffends.cons_of_slot htaking⟩
          simp only [checkSlotsFrom, htaking, hlookup, hbefore]

/-! ## The first offence -/

/-- The receivers of a direction up to an index. -/
def receiversUpTo (c : Contract) (d : Direction) (i : Nat) : List (Receiver × Nat) :=
  (c.receiversFor d).filter fun r => r.2 ≤ i

section Split

variable {before after : List (Receiver × Nat)} {r : Receiver} {i : Nat}

/-- The receivers of a direction before one of them have smaller indices, and those after it larger ones. -/
theorem lt_of_receiversFor_eq (h : c.receiversFor d = before ++ (r, i) :: after) :
    (∀ a ∈ before, a.2 < i) ∧ ∀ a ∈ after, i < a.2 := by
  have hsorted := c.receiversFor_pairwise d
  rw [h, List.pairwise_append, List.pairwise_cons] at hsorted
  obtain ⟨-, ⟨hafter, -⟩, hbefore⟩ := hsorted
  exact ⟨fun a ha => hbefore a ha _ List.mem_cons_self, hafter⟩

/-- Those of smaller indices are all before it. -/
theorem mem_before_of_lt (h : c.receiversFor d = before ++ (r, i) :: after) {r' : Receiver} {j : Nat}
    (hr' : (r', j) ∈ c.receiversFor d) (hj : j < i) : (r', j) ∈ before := by
  obtain ⟨-, hafter⟩ := lt_of_receiversFor_eq h
  rw [h] at hr'
  rcases List.mem_append.mp hr' with hin | hin
  · exact hin
  · rcases List.mem_cons.mp hin with heq | hin
    · injection heq with _ hindex
      omega
    · have := hafter _ hin
      omega

theorem receiversUpTo_eq (h : c.receiversFor d = before ++ (r, i) :: after) :
    c.receiversUpTo d i = before ++ [(r, i)] := by
  obtain ⟨hbefore, hafter⟩ := lt_of_receiversFor_eq h
  have hkept : before.filter (fun a => a.2 ≤ i) = before :=
    List.filter_eq_self.mpr fun a ha => decide_eq_true (Nat.le_of_lt (hbefore a ha))
  have hleft : after.filter (fun a => a.2 ≤ i) = [] :=
    List.filter_eq_nil_iff.mpr fun a ha => by simpa using hafter a ha
  rw [receiversUpTo, h, List.filter_append, List.filter_cons_of_pos (by simp), hkept, hleft]

theorem receiversUpTo_sublist (h : c.receiversFor d = before ++ (r, i) :: after) {j : Nat} (hj : j < i) :
    (c.receiversUpTo d j).Sublist before := by
  obtain ⟨-, hafter⟩ := lt_of_receiversFor_eq h
  have hleft : ((r, i) :: after).filter (fun a => a.2 ≤ j) = [] := by
    refine List.filter_eq_nil_iff.mpr ?_
    rw [List.forall_mem_cons]
    refine ⟨by simpa using hj, fun a ha => ?_⟩
    have := hafter a ha
    simp only [decide_eq_true_eq]
    omega
  rw [receiversUpTo, h, List.filter_append, hleft, List.append_nil]
  exact List.filter_sublist

end Split

/-- The fault is about the first receiver that makes those of a direction ambiguous: it says that a message has no
opcode, or names the one receiver before it that is for the same messages. -/
structure IsFirstOffence (c : Contract) (registry : Registry) (d : Direction) (f : Fault) (r : Receiver)
    (i : Nat) : Prop where
  mem : (r, i) ∈ c.receiversFor d
  loc : f.loc = some (.receiver c.name i)
  ambiguous : ¬AreUnambiguous registry (c.receiversUpTo d i)
  least : ∀ j < i, AreUnambiguous registry (c.receiversUpTo d j)
  missing_iff : f.kind = .missingAllocation ↔ r.selector.LacksOpcode registry
  invalid_iff : f.kind = .invalidSelectorVariant ↔ ¬r.selector.LacksOpcode registry
  holder : ¬r.selector.LacksOpcode registry → ∃ first r', first < i ∧ (r', first) ∈ c.receiversFor d ∧
    r'.selector.Clash registry r.selector ∧
    (∀ j r'', j < i → (r'', j) ∈ c.receiversFor d → r''.selector.Clash registry r.selector → j = first) ∧
    (r.selector.kind.isSole = true →
      f.cause = .duplicateReceiver c.name r.selector.kindName first i) ∧
    ∀ name m header, r.selector.message? = some name → registry.find? name = some m →
      m.header = some header →
        f.cause = .duplicateOpcode c.name header.opcode name r.selector.kindName first i

section Offence

variable {before after : List (Receiver × Nat)} {r : Receiver} {i : Nat} {f : Fault}

/-- Receivers that pass are ambiguous with one that does not pass behind them. -/
theorem Offends.not_areUnambiguous (h : c.Offends registry [] before r i f) :
    ¬AreUnambiguous registry (before ++ [(r, i)]) := by
  rw [areUnambiguous_iff]
  rintro ⟨hslots, hpairwise⟩
  cases h with
  | layout hcause =>
    obtain ⟨taking, htaking⟩ := hslots (r, i) (List.mem_append_right _ (List.mem_singleton_self _))
    rw [hcause] at htaking
    cases htaking
  | slot hslot hfirst =>
    rcases hfirst with hfirst | ⟨holder, hmem, hholder⟩
    · cases hfirst
    · obtain ⟨-, -, hapart⟩ := List.pairwise_append.mp hpairwise
      exact hapart _ hmem _ (List.mem_singleton_self _) _ hholder hslot

/-- A clash is placed at its receiver, and is told by its kind or by its opcode. -/
theorem cause_clash (registry : Registry) (contract : String) (s : Selector) (first second : Nat) :
    (s.kind.isSole = true → Fault.Cause.clash registry contract s first second =
      .duplicateReceiver contract s.kindName first second) ∧
    ∀ name m header, s.message? = some name → registry.find? name = some m → m.header = some header →
      Fault.Cause.clash registry contract s first second =
        .duplicateOpcode contract header.opcode name s.kindName first second := by
  unfold Fault.Cause.clash
  constructor
  · intro hsole
    cases s with
    | empty | anyComment | any | anyBounced => rfl
    | message | comment | bounced => cases hsole
  · intro name m header hname hfind hheader
    simp only [hname, hfind, Option.bind_some, hheader, Option.map_some, Option.getD_some]

/-- A clash is a fault of the selector, whatever it is about. -/
theorem kind_clash (registry : Registry) (contract : String) (s : Selector) (first second : Nat) :
    (Fault.Cause.clash registry contract s first second).kind = .invalidSelectorVariant := by
  unfold Fault.Cause.clash
  cases s.message? <;> rfl

/-- Among receivers that pass, one at most has the slot of another one. -/
theorem index_eq_of_clash (hbefore : c.checkSlotsFrom registry [] before = .ok ()) {slot : Slot}
    (hslot : r.selector.slot registry = .ok (some slot)) {holder other : Receiver} {first j : Nat}
    (hheld : (holder, first) ∈ before) (hholder : holder.selector.slot registry = .ok (some slot))
    (hother : (other, j) ∈ before) (hclash : other.selector.Clash registry r.selector) : j = first := by
  obtain ⟨-, slot', hother', hr'⟩ := hclash
  have htaken := (Selector.takes_iff.mp hr').symm.trans hslot
  obtain rfl : slot' = slot := Option.some.inj (Except.ok.inj htaken)
  have hone : (other, j) = (holder, first) :=
    eq_of_pairwise_apart (pairwise_of_checkSlotsFrom hbefore).1 hother hheld
      (Selector.takes_iff.mp hother') hholder
  exact congrArg Prod.snd hone

/-- A check that fails reports the first offence. -/
theorem isFirstOffence_of_checkSlots (h : c.checkSlots registry d = .error f) :
    ∃ r i, c.IsFirstOffence registry d f r i := by
  obtain ⟨before, r, i, after, hsplit, hbefore, hoffends⟩ := exists_offence h
  obtain ⟨hsmaller, -⟩ := lt_of_receiversFor_eq hsplit
  have hlacks : (∃ taking, r.selector.slot registry = .ok taking) ↔ ¬r.selector.LacksOpcode registry :=
    Selector.exists_slot_iff_not_lacksOpcode
  have hmem : ∀ a ∈ before, a ∈ c.receiversFor d := fun a ha => hsplit ▸ List.mem_append_left _ ha
  have hr : (r, i) ∈ c.receiversFor d := hsplit ▸ List.mem_append_right _ List.mem_cons_self
  have hambiguous := hoffends.not_areUnambiguous
  rw [← receiversUpTo_eq hsplit] at hambiguous
  have hleast (j : Nat) (hj : j < i) : AreUnambiguous registry (c.receiversUpTo d j) :=
    (checkSlotsFrom_nil_eq_ok_iff.mp hbefore).sublist (receiversUpTo_sublist hsplit hj)
  refine ⟨r, i, ?_⟩
  -- either the message has no opcode, or an earlier receiver has the slot
  cases hoffends with
  | layout hcause =>
    have hmissing : r.selector.LacksOpcode registry := by
      by_contra hnot
      obtain ⟨taking, htaking⟩ := hlacks.mpr hnot
      rw [hcause] at htaking
      cases htaking
    exact {
      mem := hr
      loc := rfl
      ambiguous := hambiguous
      least := hleast
      missing_iff := iff_of_true rfl hmissing
      invalid_iff := iff_of_false nofun (not_not_intro hmissing)
      holder := fun hnot => absurd hmissing hnot }
  | @slot slot first hslot hfirst =>
    have hnot : ¬r.selector.LacksOpcode registry := hlacks.mp ⟨_, hslot⟩
    obtain ⟨holder, hheld, hholder⟩ := hfirst.resolve_left nofun
    obtain ⟨hsole, hopcode⟩ := cause_clash registry c.name r.selector first i
    have hkind := kind_clash registry c.name r.selector first i
    have hdirection : holder.selector.direction = r.selector.direction :=
      (getElem?_of_mem_receiversFor (hmem _ hheld)).2.trans (getElem?_of_mem_receiversFor hr).2.symm
    exact {
      mem := hr
      loc := rfl
      ambiguous := hambiguous
      least := hleast
      missing_iff := by
        refine iff_of_false ?_ hnot
        intro hmissing
        exact nomatch hkind.symm.trans hmissing
      invalid_iff := iff_of_true hkind hnot
      holder := by
        intro _
        refine ⟨first, holder, hsmaller _ hheld, hmem _ hheld, ?_, ?_, hsole, hopcode⟩
        · exact ⟨hdirection, slot, Selector.takes_iff.mpr hholder, Selector.takes_iff.mpr hslot⟩
        · intro j other hj hother hclash
          exact index_eq_of_clash hbefore hslot hheld hholder (mem_before_of_lt hsplit hother hj) hclash }

end Offence

/-- The check passes exactly unambiguous receivers. When it fails, it is about the first receiver that is ambiguous
with those before it. -/
theorem checkSlots_first_offence (c : Contract) (registry : Registry) (d : Direction) :
    (c.checkSlots registry d = .ok () ↔ AreUnambiguous registry (c.receiversFor d)) ∧
      ∀ f, c.checkSlots registry d = .error f → ∃ r i, c.IsFirstOffence registry d f r i :=
  ⟨checkSlotsFrom_nil_eq_ok_iff, fun _ h => isFirstOffence_of_checkSlots h⟩

end Contract

/-- Two messages of one opcode, which is written in two bases. -/
def Registry.knocks : Registry := ⟨[⟨"Knock", some ⟨1, .dec⟩, []⟩, ⟨"Rap", some ⟨1, .hex⟩, []⟩]⟩

/-- Receives both messages, and behind them one that is not registered. -/
def Contract.usher : Contract where
  name := "Usher"
  fields := []
  receivers :=
    [⟨.message .internal "Knock" "msg", [], none⟩, ⟨.any .external "rest", [], none⟩,
      ⟨.bounced "Knock" "msg" false, [], none⟩, ⟨.message .internal "Rap" "msg", [], none⟩,
      ⟨.message .internal "Ring" "msg", [], none⟩]

namespace Contract

/-- The usher's second message clashes with the first, and the bounces of that between them with neither. -/
theorem checkSlots_first_offence_usher :
    ∃ f r, Contract.usher.checkSlots .knocks .internal = .error f ∧
      Contract.usher.IsFirstOffence .knocks .internal f r 3 ∧
      f.cause = .duplicateOpcode "Usher" "0x1" "Rap" "internal-binary" 0 3 := by
  obtain ⟨f, hf, hloc, hcause⟩ : ∃ f, Contract.usher.checkSlots .knocks .internal = .error f ∧
      f.loc = some (.receiver "Usher" 3) ∧
      f.cause = .duplicateOpcode "Usher" "0x1" "Rap" "internal-binary" 0 3 := ⟨_, rfl, rfl, rfl⟩
  obtain ⟨r, i, hoffence⟩ := (checkSlots_first_offence Contract.usher .knocks .internal).2 f hf
  obtain rfl : i = 3 := by
    have hindex := hoffence.loc.symm.trans hloc
    injection hindex with hindex
    injection hindex
  exact ⟨f, r, hf, hoffence, hcause⟩

end Contract
end MessageRouter

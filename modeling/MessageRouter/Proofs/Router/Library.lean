import MessageRouter.Proofs.Code.Name
import MessageRouter.Proofs.Code.Variables
import MessageRouter.Proofs.Plan.FirstMatch
import MessageRouter.Schema.Codec
/-!
# `Proofs.Router.Library` — what a router calls

* `Registry.reader?`: the message that a reader is for, and whether it reads what a bounce keeps.
* `Code.Library.ofRegistry`: readers decode their messages, and receivers do whatever they do.
* `Registry.reader?_readerName`: the reader that a plan names is for the message it is named after.
-/
namespace MessageRouter

/-- The layout of the message that a reader is for, and whether it reads what a bounce keeps. -/
def Registry.reader? (registry : Registry) (f : String) : Option (Layout × Bool) :=
  registry.messages.findSome? fun m => m.header.bind fun header =>
    if f = Func.Name.reader m.name then some (⟨m, header⟩, false)
    else if f = Func.Name.bouncedReader m.name then some (⟨m, header⟩, true)
    else none

namespace Code

/-- A reader takes the struct it is for from the front of a slice. -/
def readWith (registry : Registry) (f : String) (s : Slice) : Except Stop (Val × Val) :=
  match registry.reader? f with
  | none => .error .stuck
  | some (l, isPartial) =>
    match Codec.decode l isPartial s with
    | .ok r rest => .ok (.slice rest, .struct r)
    | .error e _ => .error (.exit e.code)

/-- The calls of a router: `skip_bits` and the readers change the message, and receivers change the state in
whatever way they do. -/
def Library.ofRegistry (registry : Registry)
    (handle : (f : String) → (state : Record) → (args : List Val) → Except Stop Record) :
    Library where
  modify f target args :=
    match target, args with
    | .slice s, [] => readWith registry f s
    | .slice s, args =>
      if f = "skip_bits" then (applyMethod f (.slice s) args).map (·, .unit) else .error .stuck
    | .struct state, args => (handle f state args).map fun state => (.struct state, .unit)
    | _, _ => .error .stuck

end Code

/-- The reader that a plan names is for the message it is named after. -/
theorem Registry.reader?_readerName {registry : Registry} (hregistry : registry.WellFormed)
    {name : String} {l : Layout} (hl : registry.layout name = .ok l) (isPartial : Bool) :
    registry.reader? (Plan.readerName l.message.name isPartial) = some (l, isPartial) := by
  obtain ⟨hmem, -⟩ := mem_of_layout hl
  have hvalid := hregistry.valid _ hmem
  have hheader := (layout_eq_ok_iff.mp hl).2
  -- names of readers tell the message and whether it is partial, so no other message has this one
  refine findSome?_eq_some_of_unique hmem ?_ fun m hm found hfound => ?_
  · rw [hheader, Option.bind_some]
    cases isPartial with
    | false => exact if_pos rfl
    | true =>
      have hne : Plan.readerName l.message.name true ≠ Plan.readerName l.message.name false :=
        fun heq => nomatch (Func.Name.readerName_inj hvalid heq).2
      exact (if_neg hne).trans (if_pos rfl)
  · obtain ⟨header, hmheader, hselected⟩ := Option.bind_eq_some_iff.mp hfound
    have hsame {q : Bool} (hreader : Plan.readerName l.message.name isPartial = Plan.readerName m.name q) :
        ((⟨m, header⟩, q) : Layout × Bool) = (l, isPartial) := by
      obtain ⟨hname, rfl⟩ := Func.Name.readerName_inj hvalid hreader
      obtain rfl : l.message = m := List.inj_on_of_nodup_map hregistry.nodup hmem hm hname
      rw [hheader] at hmheader
      rw [← Option.some.inj hmheader]
    split at hselected
    · next hreader => exact (Option.some.inj hselected).symm.trans (hsame hreader)
    · split at hselected
      · next hreader => exact (Option.some.inj hselected).symm.trans (hsame hreader)
      · exact nomatch hselected

end MessageRouter

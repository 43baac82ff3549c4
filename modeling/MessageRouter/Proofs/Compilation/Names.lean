import MessageRouter.Compilation
import MessageRouter.Proofs.Code.Name
/-!
# `Proofs.Compilation.Names` — no two functions of a program share a name

* `Func.Name.Role.name_inj`: the name of a function tells its contract and what it is for.
* `Func.Name.Role.name_ne_readerName`: no function of a contract has the name of a reader.
* `Contract.eq_of_functionName_eq`: receivers of a contract whose functions have one name take the same messages.
-/
namespace MessageRouter

open Identifier (IsValid)

namespace Func.Name

/-! ## Different texts -/

theorem What.text_inj {w w' : What} (h : w.text = w'.text) : w = w' := by
  have hlist := congrArg String.toList h
  -- the first letters differ from kind to kind
  cases w with
  | message type =>
    cases w' with
    | message type' => rw [(String.append_right_inj "binary_").mp h]
    | empty | comment | any => simp [text] at hlist
  | empty =>
    cases w' with
    | empty => rfl
    | message | comment | any => simp [text] at hlist
  | comment tag =>
    cases w' with
    | comment tag' => rw [(String.append_right_inj "text_").mp h]
    | message | empty | any => simp [text] at hlist
  | any =>
    cases w' with
    | any => rfl
    | message | empty | comment => simp [text] at hlist

namespace Role

/-- The first word of a name after the contract. -/
def area : Role → String
  | router _ => "contract"
  | receive d _ => d.name
  | bounced _ | anyBounced => "receive"

/-- What comes after the first word. -/
def rest : Role → String
  | router d => "router_" ++ d.name
  | receive _ what => what.text
  | bounced type => "binary_bounce_" ++ type
  | anyBounced => "bounce"

variable {role role' : Role} {a b : String}

theorem toList_name (contract : String) (role : Role) :
    (role.name contract).toList =
      '$' :: (contract.toList ++ '$' :: '_' :: (role.area.toList ++ '_' :: role.rest.toList)) := by
  cases role with
  | router d => simp [name, area, rest, Name.router]
  | receive d what => simp [name, area, rest, Name.receive]
  | bounced type => simp [name, area, rest, receiveBounced]
  | anyBounced => simp [name, area, rest, receiveAnyBounced]

theorem mem_areas (role : Role) : role.area ∈ ["contract", "internal", "external", "receive"] := by
  cases role with
  | router d => exact .head _
  | receive d what => cases d <;> simp [area, Direction.name]
  | bounced type | anyBounced => simp [area]

theorem eq_of_area_of_rest (harea : role.area = role'.area) (hrest : role.rest = role'.rest) :
    role = role' := by
  have hdirection {d d' : Direction} (h : d.name = d'.name) : d = d' := by
    cases d <;> cases d' <;> first | rfl | simp [Direction.name] at h
  have hlist := congrArg String.toList hrest
  -- roles of different areas are told by these, and those of one area by what follows
  cases role with
  | router d =>
    cases role' with
    | router d' => rw [hdirection ((String.append_right_inj "router_").mp hrest)]
    | receive d' => cases d' <;> simp [area, Direction.name] at harea
    | bounced | anyBounced => simp [area] at harea
  | receive d what =>
    cases role' with
    | receive d' what' => rw [hdirection harea, What.text_inj hrest]
    | router | bounced | anyBounced => cases d <;> simp [area, Direction.name] at harea
  | bounced type =>
    cases role' with
    | bounced type' => rw [(String.append_right_inj "binary_bounce_").mp hrest]
    | anyBounced => simp [rest] at hlist
    | router => simp [area] at harea
    | receive d' => cases d' <;> simp [area, Direction.name] at harea
  | anyBounced =>
    cases role' with
    | anyBounced => rfl
    | bounced => simp [rest] at hlist
    | router => simp [area] at harea
    | receive d' => cases d' <;> simp [area, Direction.name] at harea

/-- The name of a function tells its contract and what it is for. -/
theorem name_inj (ha : '$' ∉ a.toList) (hb : '$' ∉ b.toList) (h : role.name a = role'.name b) :
    a = b ∧ role = role' := by
  have hlist := congrArg String.toList h
  rw [toList_name, toList_name] at hlist
  obtain ⟨hcontract, hsuffix⟩ := eq_of_append_cons ha hb (List.cons.inj hlist).2
  have harea (role : Role) : '_' ∉ role.area.toList := by
    have hmem := role.mem_areas
    simp only [List.mem_cons, List.not_mem_nil, or_false] at hmem
    rcases hmem with h | h | h | h <;> rw [h] <;> decide
  obtain ⟨harea, hrest⟩ := eq_of_append_cons (harea role) (harea role') (List.cons.inj hsuffix).2
  exact ⟨String.toList_inj.mp hcontract,
    eq_of_area_of_rest (String.toList_inj.mp harea) (String.toList_inj.mp hrest)⟩

/-- No function of a contract has the name of a reader. -/
theorem name_ne_readerName (ha : '$' ∉ a.toList) (hrest : '$' ∉ role.rest.toList) (message : String)
    (isPartial : Bool) : role.name a ≠ Plan.readerName message isPartial := by
  intro h
  have hlist := congrArg String.toList h
  rw [toList_name, toList_readerName] at hlist
  have hmem := role.mem_areas
  simp only [List.mem_cons, List.not_mem_nil, or_false] at hmem
  have hsuffix : '$' ∉ '_' :: (role.area.toList ++ '_' :: role.rest.toList) := by
    have harea : '$' ∉ role.area.toList := by rcases hmem with h | h | h | h <;> rw [h] <;> decide
    simp [harea, hrest]
  obtain ⟨-, -, hsame⟩ :=
    (List.append_cons_inj_of_notMem ha hsuffix).mp (List.cons.inj hlist).2
  rcases hmem with h | h | h | h <;> rw [h] at hsame <;> cases isPartial <;>
    simp [readerSuffix] at hsame

end Role
end Func.Name

namespace Contract

/-! ## Receivers -/

variable {c : Contract} {r r' : Receiver} {role : Func.Name.Role}

/-- A receiver is for no router. -/
theorem IsRole.ne_router (h : IsRole r role) (d : Direction) : role ≠ .router d := by
  cases h <;> exact nofun

/-- No tag is the word for any comment, as one of its letters is no digit. -/
theorem tag_ne_any {text tag : String} {loc : Option Span} (h : Comment.tag text loc = .ok tag) :
    tag ≠ "any" := by
  rintro rfl
  have hmem : 'y' ∈ "any".toList := by decide
  obtain ⟨d, hd, hdigit⟩ := exists_digit_of_mem_tag h hmem
  interval_cases d <;> exact absurd hdigit (by decide)

/-- There is no dollar sign in what the function of a receiver is for. -/
theorem IsRole.dollar_notMem_rest (h : IsRole r role)
    (hmessage : ∀ name, r.selector.message? = some name → IsValid .typeName name) :
    '$' ∉ role.rest.toList := by
  cases h with
  | @message d name binding hs =>
    have hname := Func.Name.dollar_notMem_of_isValid (hmessage name (by rw [hs]; rfl))
    simp [Func.Name.Role.rest, Func.Name.What.text, hname]
  | @comment d text tag hs ht =>
    have htag : '$' ∉ tag.toList := by
      intro hmem
      obtain ⟨n, hn, hdigit⟩ := exists_digit_of_mem_tag ht hmem
      interval_cases n <;> exact absurd hdigit (by decide)
    simp [Func.Name.Role.rest, Func.Name.What.text, htag]
  | @bounced name binding isPartial hs =>
    have hname := Func.Name.dollar_notMem_of_isValid (hmessage name (by rw [hs]; rfl))
    simp [Func.Name.Role.rest, hname]
  | empty | anyComment | any | anyBounced => simp [Func.Name.Role.rest, Func.Name.What.text]

/-- Receivers whose functions are for the same take the same messages. -/
theorem IsRole.eq_of_isRole (h : IsRole r role) (h' : IsRole r' role) (registry : Registry) :
    r.selector.direction = r'.selector.direction ∧
      r.selector.slot registry = r'.selector.slot registry ∧
      r.selector.isComment = r'.selector.isComment := by
  cases h with
  | message hs =>
    cases h' with
    | message hs' => rw [hs, hs']; exact ⟨rfl, rfl, rfl⟩
  | empty hs =>
    cases h' with
    | empty hs' => rw [hs, hs']; exact ⟨rfl, rfl, rfl⟩
  | comment hs ht =>
    cases h' with
    | comment hs' => rw [hs, hs']; exact ⟨rfl, rfl, rfl⟩
    | anyComment => exact absurd rfl (tag_ne_any ht)
  | anyComment hs =>
    cases h' with
    | anyComment hs' => rw [hs, hs']; exact ⟨rfl, rfl, rfl⟩
    | comment hs' ht' => exact absurd rfl (tag_ne_any ht')
  | any hs =>
    cases h' with
    | any hs' => rw [hs, hs']; exact ⟨rfl, rfl, rfl⟩
  | bounced hs =>
    cases h' with
    | bounced hs' => rw [hs, hs']; exact ⟨rfl, rfl, rfl⟩
  | anyBounced hs =>
    cases h' with
    | anyBounced hs' => rw [hs, hs']; exact ⟨rfl, rfl, rfl⟩

/-- Receivers of a contract whose functions have one name take the same messages. -/
theorem eq_of_functionName_eq (hname : IsValid .typeName c.name) {f : String}
    (h : c.functionName r = .ok f) (h' : c.functionName r' = .ok f) (registry : Registry) :
    r.selector.direction = r'.selector.direction ∧
      r.selector.slot registry = r'.selector.slot registry ∧
      r.selector.isComment = r'.selector.isComment := by
  obtain ⟨role, hrole, rfl⟩ := exists_role_of_functionName h
  obtain ⟨role', hrole', hsame⟩ := exists_role_of_functionName h'
  have hdollar := Func.Name.dollar_notMem_of_isValid hname
  obtain ⟨-, rfl⟩ := Func.Name.Role.name_inj hdollar hdollar hsame
  exact hrole.eq_of_isRole hrole' registry

end Contract
end MessageRouter

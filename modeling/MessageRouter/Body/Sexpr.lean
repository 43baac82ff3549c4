import MessageRouter.Json.Printer
/-!
# `Body.Sexpr` — bodies of receivers before they are understood

* `Sexpr`: an integer, a word or a list.
* `Sexpr.head?`: the word that a list starts with.
* `Sexpr.tagged`: a text for messages.
* `Sexpr.ofJson`: numbers, strings, truth values and arrays; anything else is no expression.
-/
namespace MessageRouter

/-- An integer, a word or a list. -/
inductive Sexpr where
  | int (value : Int64)
  | word (text : String)
  | list (items : List Sexpr)

namespace Sexpr

/-- The text of a word. -/
def word? : Sexpr → Option String
  | word text => some text
  | _ => none

/-- The word that a list starts with. -/
def head? : Sexpr → Option String
  | list (word text :: _) => some text
  | _ => none

/-! ## Text -/

mutual

/-- A text in which every part names its kind. -/
def tagged : Sexpr → String
  | int i => "Int(" ++ toString i.toInt ++ ")"
  | word text => "Ident(" ++ Text.quoted text ++ ")"
  | list items => "List([" ++ String.intercalate ", " (taggedItems items) ++ "])"

def taggedItems : List Sexpr → List String
  | [] => []
  | e :: rest => tagged e :: taggedItems rest

end

/-! ## JSON -/

/-- Why a JSON value is no expression. -/
inductive ReadError where
  | notInt64 (number : Json.Number)
  | unsupported (value : Json)

def ReadError.message : ReadError → String
  | notInt64 n => "number is not an i64: " ++ n.text
  | unsupported v => "unsupported JSON value in expr: " ++ v.tagged

mutual

/-- The expression of a JSON value. -/
def ofJson : Json → Except ReadError Sexpr
  | .number n =>
    match n.asInt64? with
    | some i => .ok (int i)
    | none => .error (.notInt64 n)
  | .string text => .ok (word text)
  | .bool b => .ok (word (toString b))
  | .array items => (ofJsonItems items).map list
  | v => .error (.unsupported v)

def ofJsonItems : List Json → Except ReadError (List Sexpr)
  | [] => .ok []
  | v :: rest => do
    let e ← ofJson v
    let es ← ofJsonItems rest
    return e :: es

end

end Sexpr
end MessageRouter

/-!
# `CommandLine.Arguments` — options and words

* `OptionSpec`: an option of a command.
* `Arguments`: the options given, in order, and the words between them.
* `Arguments.scan`: arguments told apart. An option starts with two hyphens and has its value after an equals
  sign or as the next argument; after a lone pair of hyphens everything is a word.
-/
namespace MessageRouter
namespace CommandLine

/-- An option of a command, without its hyphens. -/
structure OptionSpec where
  name : String
  takesValue : Bool
  /-- Whether it may be given more than once. -/
  repeats : Bool
  deriving DecidableEq, Repr

/-- An option with one value. -/
def OptionSpec.single (name : String) : OptionSpec := ⟨name, true, false⟩

/-- An option with any number of values. -/
def OptionSpec.many (name : String) : OptionSpec := ⟨name, true, true⟩

/-- An option without a value. -/
def OptionSpec.flag (name : String) : OptionSpec := ⟨name, false, false⟩

/-- The options given, in order, and the words between them. An option without a value has an empty one. -/
structure Arguments where
  options : List (String × String)
  words : List String
  deriving DecidableEq, Repr

namespace Arguments

/-! ## Scanning -/

/-- Whether an argument that starts with a hyphen must be an option. -/
def isOption (arg : String) : Bool :=
  match arg.toList with
  | '-' :: _ :: _ => true
  | _ => false

/-- The name and the attached value of an option with two hyphens. -/
def splitOption (arg : String) : Option (String × Option String) :=
  match arg.toList with
  | '-' :: '-' :: cs =>
    let name := String.ofList (cs.takeWhile (· ≠ '='))
    match cs.dropWhile (· ≠ '=') with
    | [] => some (name, none)
    | _ :: value => some (name, some (String.ofList value))
  | _ => none

def withOption (name value : String) (a : Arguments) : Arguments :=
  { a with options := (name, value) :: a.options }

def withWord (word : String) (a : Arguments) : Arguments := { a with words := word :: a.words }

/-- Arguments told apart, if all options are known and have the values they need. -/
def scan (specs : List OptionSpec) : List String → Option Arguments
  | [] => some ⟨[], []⟩
  | arg :: rest =>
    if arg = "--" then some ⟨[], rest⟩
    else if isOption arg then do
      let (name, attached) ← splitOption arg
      let spec ← specs.find? (·.name == name)
      if spec.takesValue then
        match attached, rest with
        | some value, rest => (scan specs rest).map (withOption name value)
        | none, value :: rest =>
          if isOption value then none else (scan specs rest).map (withOption name value)
        | none, [] => none
      else if attached.isSome then none
      else (scan specs rest).map (withOption name "")
    else (scan specs rest).map (withWord arg)

/-! ## Views -/

/-- The values of an option. -/
def values (a : Arguments) (name : String) : List String :=
  a.options.filterMap fun o => if o.1 = name then some o.2 else none

def value? (a : Arguments) (name : String) : Option String := (a.values name).head?

def has (a : Arguments) (name : String) : Bool := a.options.any (·.1 == name)

/-- Whether only options that may be repeated are. -/
def isOnce (specs : List OptionSpec) (a : Arguments) : Bool :=
  specs.all fun spec => spec.repeats || decide ((a.values spec.name).length ≤ 1)

/-- Arguments with so many words, of which no option is repeated that may not be. -/
def read (specs : List OptionSpec) (words : Nat) (args : List String) : Option Arguments :=
  (scan specs args).filter fun a => a.isOnce specs && a.words.length == words

end Arguments
end CommandLine
end MessageRouter

import TokenGate.Text.Digit
import TokenGate.Value

/-!
# Options of the demonstration

The arguments of the command line. What every argument is is settled first, by its text alone: an
option, possibly with a value behind an equals sign, or a value. An option may be shortened as
long as it is the only one that begins so. Two hyphens behind an equals sign are no value: they leave
the option with nothing. Negative numbers and texts with a space are values even
if they begin with a hyphen, and after two hyphens everything is a value. The options are then
carried out in order, each with the value that follows it, and the last value of an option counts.
-/

namespace TokenGate.Demo

/-- Where the rules come from. -/
inductive RuleSource where
  | chess
  | file (path : String)
  | nothing
  deriving DecidableEq, Repr

/-- What the demonstration is told. -/
structure Options where
  rules : RuleSource
  seed : List Int
  steps : Option Int
  level : Option String
  deriving DecidableEq, Repr

/-- What it does unless told otherwise. -/
def Options.usual : Options := ⟨.chess, [42], some 25, some "INFO"⟩

/-- What an option has that has been left with nothing, as messages call it. -/
def Options.nothing : Value := .list []

/-- Why the demonstration does not run: help was asked for, or the arguments are wrong. -/
inductive UsageError where
  | help
  | badArguments
  deriving DecidableEq, Repr

/-- The exit code of a usage error. -/
def UsageError.code : UsageError → Nat
  | help => 0
  | badArguments => 2

/-- The options that take a value. -/
inductive OptionName where
  | rules
  | seed
  | steps
  | logLevel
  deriving DecidableEq, Repr

/-- An argument as it is understood. -/
inductive Argument where
  | value (text : String)
  /-- An option, with the value behind its equals sign if there is one. -/
  | option (name : OptionName) (given : Option String)
  | help
  /-- Help with something attached that it does not take. -/
  | badHelp
  /-- The two hyphens after which everything is a value. -/
  | separator
  /-- It looks like an option but is none. -/
  | unknown
  deriving DecidableEq, Repr

namespace Argument

/-- The long forms of the options, and what they are understood as. -/
def longForms : List (String × (Option String → Argument)) :=
  [("--help", fun given => if given.isSome then badHelp else help), ("--rules", option .rules),
    ("--seed", option .seed), ("--steps", option .steps), ("--log-level", option .logLevel)]

/-- Help asked for by its letter, with more letters attached: it may be asked for repeatedly, and
what is attached otherwise does not matter unless it is another hyphen or a value. -/
def letters (attached : List Char) : Argument :=
  match attached.dropWhile (· == 'h') with
  | '-' :: _ => badHelp
  | '=' :: _ => badHelp
  | _ => help

/-- An argument cut at its first equals sign, if it has one. -/
def cutAtEquals (arg : String) : String × Option String :=
  match arg.toList.span (· != '=') with
  | (_, []) => (arg, none)
  | (name, _ :: text) => (String.ofList name, some (String.ofList text))

/-- Whether the characters after a hyphen make a negative number, with or without a fractional
part, and perhaps with the end of a line behind it. -/
def isNumber (cs : List Char) : Bool :=
  let cs := if cs.getLast? = some '\n' then cs.dropLast else cs
  match cs.span (· != '.') with
  | (whole, []) => !whole.isEmpty && whole.all Text.isDecimal
  | (whole, _ :: fraction) =>
      whole.all Text.isDecimal && !fraction.isEmpty && fraction.all Text.isDecimal

/-- What an argument is that begins with two hyphens: the options that begin so decide. -/
def long? (arg : String) : Except UsageError (Option Argument) :=
  let (name, given) := cutAtEquals arg
  match longForms.lookup name with
  | some form => .ok (some (form given))
  | none =>
      match longForms.filter fun entry => entry.1.startsWith name with
      | [] => .ok none
      | [(_, form)] => .ok (some (form given))
      | _ => .error .badArguments

/-- What an argument is that may begin with a hyphen although it is no option. -/
def plain (arg : String) : Argument :=
  if isNumber (arg.toList.drop 1) || arg.toList.contains ' ' then value arg else unknown

/-- What an argument is. -/
def ofText (arg : String) : Except UsageError Argument :=
  match arg.toList with
  | ['-', '-'] => .ok separator
  | '-' :: '-' :: _ => do return (← long? arg).getD (plain arg)
  | '-' :: 'h' :: attached => .ok (letters attached)
  | '-' :: _ :: _ => .ok (plain arg)
  | _ => .ok (value arg)

/-- What the arguments are. -/
def ofTexts : List String → Except UsageError (List Argument)
  | [] => .ok []
  | arg :: rest => do
      match ← ofText arg with
      | separator => return separator :: rest.map value
      | a => return a :: (← ofTexts rest)

end Argument

namespace Options

/-- The integer that the value of an option writes. -/
def integer (text : String) : Except UsageError Int :=
  match Text.integer? text with
  | some n => .ok n
  | none => .error .badArguments

/-- Leaves an option with nothing. -/
def clear (o : Options) : OptionName → Options
  | .rules => { o with rules := .nothing }
  | .seed => { o with seed := [] }
  | .steps => { o with steps := none }
  | .logLevel => { o with level := none }

/-- Sets an option. -/
def set (o : Options) (name : OptionName) (text : String) : Except UsageError Options :=
  if text = "--" then .ok (o.clear name)
  else match name with
    | .rules => .ok { o with rules := .file text }
    | .seed => do return { o with seed := [← integer text] }
    | .steps => do return { o with steps := some (← integer text) }
    | .logLevel => .ok { o with level := some text }

/-- Carries out arguments. Those that are of no use are an error, but not before all others have
been carried out; `useless` says whether there has been one. -/
def carryOut (o : Options) (useless : Bool) : List Argument → Except UsageError Options
  | [] => if useless then .error .badArguments else .ok o
  | .help :: _ => .error .help
  | .badHelp :: _ => .error .badArguments
  | .option name (some text) :: rest => do (← o.set name text).carryOut useless rest
  | .option name none :: .value text :: rest => do (← o.set name text).carryOut useless rest
  | .option _ none :: _ => .error .badArguments
  | .value _ :: rest => o.carryOut true rest
  | .separator :: rest => o.carryOut true rest
  | .unknown :: rest => o.carryOut true rest

/-- The options that arguments tell. -/
def read (args : List String) : Except UsageError Options := do
  usual.carryOut false (← Argument.ofTexts args)

end Options

end TokenGate.Demo

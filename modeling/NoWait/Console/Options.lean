/-!
# Options on a command line

A command line is read from left to right.  An argument of a dash and something behind it is an option:
`--name` or `-n`, with its value behind an `=`, right behind the letter, or in the next argument.  Two
dashes alone end the options; what is behind them stands for itself.

* `readOptions` reads options up to the first argument that is none, and lets each value change what is
  being read;
* `operands` gives the arguments that stand for themselves;
* `readCount` and `readSigned` read whole numbers.
-/

namespace NoWait.Console

/-- Why a command line asks for nothing to be carried out. -/
inductive Halt where
  /-- It is not understood. -/
  | refused
  /-- It asks for the version of the program. -/
  | version
  deriving DecidableEq, Inhabited, Repr

/-- What an option does: it takes a value, which changes what is being read or does not suit it, or it
ends the reading. -/
inductive OptionUse (σ : Type) where
  | value (set : String → σ → Option σ)
  | halt (halt : Halt)

/-- An option: its long name, its letter if it has one, and what it does. -/
structure Flag (σ : Type) where
  long : String
  short : Option Char := none
  use : OptionUse σ

variable {σ : Type}

/-- The option that an argument names, and the value if the argument holds that too: `--name`,
`--name=value`, `-n`, `-nvalue` or `-n=value`.  An option without a value leaves alone what follows its
letter, and refuses what follows its name. -/
def Flag.ofArgument? (flags : List (Flag σ)) (arg : List Char) :
    Option (Flag σ × Option String) := do
  match arg with
  | '-' :: '-' :: body =>
    let name := String.ofList (body.takeWhile (· ≠ '='))
    let flag ← flags.find? (·.long = name)
    match flag.use, body.dropWhile (· ≠ '=') with
    | _, [] => return (flag, none)
    | .value _, _ :: value => return (flag, some (String.ofList value))
    | .halt _, _ => none
  | '-' :: letter :: rest =>
    let flag ← flags.find? (·.short = some letter)
    match rest with
    | [] => return (flag, none)
    | '=' :: value => return (flag, some (String.ofList value))
    | value => return (flag, some (String.ofList value))
  | _ => none

/-- The argument that ends the options. -/
def endOfOptions : String := "--"

/-- Whether an argument is an option, or the end of the options, and not a value. -/
def looksLikeOption (arg : String) : Bool :=
  match arg.toList with
  | '-' :: _ :: _ => true
  | _ => false

/-- Reads options up to the first argument that is none.  `waiting` is the use of the option whose value
comes next, if one does, and `seen` names the options that have been given, which must not be given
again.  Returns what was read and the arguments from there on. -/
def readOptions (flags : List (Flag σ)) (waiting : Option (String → σ → Option σ))
    (seen : List String) (state : σ) : List String → Except Halt (σ × List String)
  | [] => if waiting.isSome then .error .refused else .ok (state, [])
  | arg :: rest =>
    match waiting with
    | some set =>
      if looksLikeOption arg then .error .refused
      else
        match set arg state with
        | none => .error .refused
        | some state => readOptions flags none seen state rest
    | none =>
      if arg = endOfOptions || !looksLikeOption arg then .ok (state, arg :: rest)
      else
        match Flag.ofArgument? flags arg.toList with
        | none => .error .refused
        | some (flag, value) =>
          match flag.use with
          | .halt halt => .error halt
          | .value set =>
            if seen.contains flag.long then .error .refused
            else
              match value with
              | none => readOptions flags (some set) (flag.long :: seen) state rest
              | some value =>
                match set value state with
                | none => .error .refused
                | some state => readOptions flags none (flag.long :: seen) state rest

/-- The arguments that stand for themselves: all of them behind two dashes, and ahead of those only what
is no option. -/
def operands : List String → Except Halt (List String)
  | [] => .ok []
  | arg :: rest =>
    if arg = endOfOptions then .ok rest
    else if looksLikeOption arg then .error .refused
    else (operands rest).map (arg :: ·)

/-! ### Numbers -/

/-- A decimal number below a limit. -/
def readDigits (limit : Nat) (digits : List Char) : Option Nat :=
  if digits.isEmpty || digits.any (fun c => !c.isDigit) then none
  else
    let n := digits.foldl (fun n c => n * 10 + (c.toNat - '0'.toNat)) 0
    if n < limit then some n else none

/-- A decimal number below a limit, with or without a plus sign. -/
def readCount (limit : Nat) (text : String) : Option Nat :=
  match text.toList with
  | '+' :: digits => readDigits limit digits
  | digits => readDigits limit digits

/-- A decimal number below a limit, with or without a sign.  Of the numbers with a minus sign only zero
is not below zero. -/
def readSigned (limit : Nat) (text : String) : Option Nat :=
  match text.toList with
  | '-' :: digits => readDigits 1 digits
  | _ => readCount limit text

end NoWait.Console

import RunControl.Cli.Invocation
import RunControl.Text.Cut

/-!
Reading the arguments of the tool.

The options of the whole invocation stand before the command and those of the command
after it; among its own options a command may have words. A value follows its option
as the next argument or in the same one. After `--` every argument is a word, and a
command is no such word. Arguments are read from the left, and the first that ends the
reading decides.
-/

namespace RunControl.Cli

/-! ### One argument -/

/-- An argument by its form. -/
inductive Argument where
  /-- The argument `--`. -/
  | separator
  /-- A long name, and the value after the first `=` if there is one. -/
  | long (name : String) (attached : Option String)
  /-- A letter, and what follows it. -/
  | short (letter : Char) (rest : List Char)
  | word
  deriving DecidableEq, Repr

namespace Argument

/-- The form of an argument. A single `-` is a word. -/
def ofString (s : String) : Argument :=
  match s.toList with
  | ['-', '-'] => .separator
  | '-' :: '-' :: r =>
    match Text.cut? ['='] r with
    | some (name, value) => .long (String.ofList name) (some (String.ofList value))
    | none => .long (String.ofList r) none
  | '-' :: c :: r => .short c r
  | _ => .word

/-- The value that follows a letter in the same argument; an `=` between them does not
belong to it. -/
def attached? : List Char → Option String
  | [] => none
  | '=' :: r => some (String.ofList r)
  | r => some (String.ofList r)

/-- The value of the option that an argument names, if it stands in the argument. -/
def value? : Argument → Option String
  | .long _ value => value
  | .short _ r => attached? r
  | _ => none

/-- The option that an argument names, before or after a command. -/
def setting? (command : Option Subcommand) : Argument → Option Setting
  | .long name _ =>
    match command with
    | none => [Setting.deployment, .group, .component].find? (·.name = name)
    | some .remove => if name = Setting.extra.name then some .extra else none
    | some .start => if name = Setting.run.name then some .run else none
    | some _ => none
  | .short letter _ =>
    match command, letter with
    | none, 'd' => some .deployment
    | none, 'g' => some .group
    | none, 'c' => some .component
    | _, _ => none
  | _ => none

end Argument

/-! ### All arguments -/

/-- What ends the reading of arguments before an invocation is complete. -/
inductive Ending where
  | misuse (m : Misuse)
  | help
  | version
  deriving DecidableEq, Repr

/-- The switch that an argument is, before or after a command. -/
def Argument.ending? (command : Option Subcommand) : Argument → Option Ending
  | .long "help" none => some .help
  | .short 'h' _ => some .help
  | .long "version" none => if command.isNone then some .version else none
  | .short 'V' _ => if command.isNone then some .version else none
  | _ => none

/-- What the word `help` asks for: everything, or one command. -/
def helpOn : List String → Ending
  | [] => .help
  | w :: r =>
    if w ≠ "help" ∧ (Subcommand.ofWord? w).isNone then .misuse (.unknownCommand w)
    else match r with
      | [] => .help
      | a :: _ => .misuse (.unknownCommand a)

/-- A step that can only be a misuse. -/
def checked {α : Type} (r : Except Misuse α) : Except Ending α :=
  r.mapError .misuse

/-- Reads arguments of which every one is a word. -/
def readWords (d : Draft) (words : List String) : Except Ending Invocation :=
  match d.command, words with
  | none, w :: _ => .error (.misuse (.unexpected w))
  | _, _ => checked do (← words.foldlM Draft.addWord d).finish

/-- Reads arguments after those in a draft. -/
def readFrom (d : Draft) : List String → Except Ending Invocation
  | [] => checked d.finish
  | s :: r =>
    let argument := Argument.ofString s
    match argument.ending? d.command, argument.setting? d.command with
    | some ending, _ => .error ending
    | none, some o =>
      match argument.value? with
      | some value => do readFrom (← checked (d.set o value)) r
      | none =>
        match r with
        | [] => .error (.misuse (.noValue o))
        | value :: r =>
          if Argument.ofString value = .word then do readFrom (← checked (d.set o value)) r
          else .error (.misuse (.noValue o))
    | none, none =>
      match argument with
      | .word =>
        if d.command.isNone ∧ s = "help" then .error (helpOn r)
        else do readFrom (← checked (d.addWord s)) r
      | .separator => readWords d r
      | _ => .error (.misuse (.unexpected s))

/-- Reads the arguments of the tool. -/
def Invocation.ofArguments (arguments : List String) : Except Ending Invocation :=
  readFrom .blank arguments

end RunControl.Cli

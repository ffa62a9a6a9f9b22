import RunControl.Text.Numeral

/-!
Invocations of the tool: which deployment, which group, which components, and what to
do with them.

A `Draft` is an invocation of which only the first arguments are known. It takes
options and words one at a time, each at most as often as it makes sense, and
`Draft.finish` turns it into an invocation when nothing is missing.
-/

namespace RunControl.Cli

/-! ### Commands -/

/-- The commands. -/
inductive Subcommand where
  | add
  | addScripts
  | boot
  | remove
  | configure
  | unconfigure
  | start
  | stop
  | shutdown
  | custom
  | status
  | pids
  deriving DecidableEq, Repr

namespace Subcommand

/-- The word for a command. -/
def word : Subcommand → String
  | .add => "add"
  | .addScripts => "add-scripts"
  | .boot => "boot"
  | .remove => "remove"
  | .configure => "configure"
  | .unconfigure => "unconfigure"
  | .start => "start"
  | .stop => "stop"
  | .shutdown => "shutdown"
  | .custom => "custom"
  | .status => "status"
  | .pids => "pids"

/-- All commands. -/
def all : List Subcommand :=
  [.add, .addScripts, .boot, .remove, .configure, .unconfigure, .start, .stop, .shutdown,
    .custom, .status, .pids]

/-- The command of a word. Words are not completed. -/
def ofWord? (w : String) : Option Subcommand :=
  all.find? fun c => c.word = w

@[simp]
theorem ofWord?_word (c : Subcommand) : ofWord? c.word = some c := by
  cases c <;> decide

/-- How many words may follow a command. -/
def capacity : Subcommand → Nat
  | .custom => 2
  | .pids => 1
  | _ => 0

end Subcommand

/-! ### Options -/

/-- The options with a value. -/
inductive Setting where
  | deployment
  | group
  | component
  | extra
  | run
  deriving DecidableEq, Repr

/-- The long name of an option. -/
def Setting.name : Setting → String
  | .deployment => "deployment"
  | .group => "group"
  | .component => "component"
  | .extra => "extra"
  | .run => "run"

/-- Why arguments make no invocation. -/
inductive Misuse where
  | noCommand
  | unknownCommand (word : String)
  | unexpected (argument : String)
  | noValue (option : Setting)
  | repeated (option : Setting)
  | badValue (option : Setting) (value : String)
  | missing (argument : String)
  deriving DecidableEq, Repr

/-- The text of a misuse. -/
def Misuse.message : Misuse → String
  | .noCommand => "a command is required"
  | .unknownCommand w => "unknown command '" ++ w ++ "'"
  | .unexpected a => "unexpected argument '" ++ a ++ "'"
  | .noValue o => "a value is required for '--" ++ o.name ++ "'"
  | .repeated o => "'--" ++ o.name ++ "' cannot be used multiple times"
  | .badValue o v => "invalid value '" ++ v ++ "' for '--" ++ o.name ++ "'"
  | .missing a => "a value is required for <" ++ a ++ ">"

/-! ### Invocations -/

/-- What to do. -/
inductive Action where
  | add
  | addScripts
  | boot
  /-- Remove components and further processes on their hosts. -/
  | remove (extra : List String)
  | configure
  | unconfigure
  | start (run : Nat)
  | stop
  | shutdown
  | custom (name : String) (arg : Option String)
  | status
  | pids (host : String)
  deriving DecidableEq, Repr

/-- What the tool is asked for. -/
structure Invocation where
  /-- The path of the deployment. -/
  deployment : Option String
  /-- The group, instead of the configured one. -/
  group : Option String
  /-- The names of the components to be restricted to; none for all. -/
  only : List String
  action : Action
  deriving DecidableEq, Repr

/-- An invocation as far as its arguments are known. -/
structure Draft where
  deployment : Option String
  group : Option String
  only : List String
  command : Option Subcommand
  extra : List String
  run : Option Nat
  /-- The words after the command. -/
  words : List String
  deriving DecidableEq, Repr

namespace Draft

/-- Nothing is known. -/
def blank : Draft :=
  ⟨none, none, [], none, [], none, []⟩

/-- The number of a run: 32 bits, with a sign if one likes. -/
def runNumber? (text : List Char) : Option Nat :=
  match text with
  | '-' :: '+' :: _ => none
  | '-' :: digits => Text.countUpTo? 0 digits
  | digits => Text.countUpTo? (UInt32.size - 1) digits

/-- The draft with the value of an option. -/
def set (d : Draft) (o : Setting) (value : String) : Except Misuse Draft :=
  match o with
  | .deployment =>
    if d.deployment.isSome then .error (.repeated o)
    else if value.isEmpty then .error (.badValue o value)
    else .ok { d with deployment := some value }
  | .group =>
    if d.group.isSome then .error (.repeated o) else .ok { d with group := some value }
  | .component => .ok { d with only := d.only ++ [value] }
  | .extra => .ok { d with extra := d.extra ++ [value] }
  | .run =>
    if d.run.isSome then .error (.repeated o)
    else match runNumber? value.toList with
      | some n => .ok { d with run := some n }
      | none => .error (.badValue o value)

/-- The draft with one more word: the first one is the command. -/
def addWord (d : Draft) (w : String) : Except Misuse Draft :=
  match d.command with
  | none =>
    match Subcommand.ofWord? w with
    | some c => .ok { d with command := some c }
    | none => .error (.unknownCommand w)
  | some c =>
    if d.words.length < c.capacity then .ok { d with words := d.words ++ [w] }
    else .error (.unexpected w)

/-- What a command does with what it was given. -/
def action (d : Draft) : Subcommand → Except Misuse Action
  | .add => .ok .add
  | .addScripts => .ok .addScripts
  | .boot => .ok .boot
  | .remove => .ok (.remove d.extra)
  | .configure => .ok .configure
  | .unconfigure => .ok .unconfigure
  | .start => .ok (.start (d.run.getD 0))
  | .stop => .ok .stop
  | .shutdown => .ok .shutdown
  | .custom =>
    match d.words with
    | [] => .error (.missing "NAME")
    | name :: r => .ok (.custom name r.head?)
  | .status => .ok .status
  | .pids =>
    match d.words with
    | [] => .error (.missing "HOST")
    | host :: _ => .ok (.pids host)

/-- The invocation, if nothing is missing. -/
def finish (d : Draft) : Except Misuse Invocation :=
  match d.command with
  | none => .error .noCommand
  | some c => (d.action c).map (⟨d.deployment, d.group, d.only, ·⟩)

end Draft

end RunControl.Cli

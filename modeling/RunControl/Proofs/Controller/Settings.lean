import RunControl.Controller
import RunControl.Proofs.Registrar
import RunControl.Proofs.Template.Expansion

/-!
The settings that a registration gives back.

They are made of texts that were expanded one by one, and what was submitted is made of the same
texts before. Expanding the finished settings gives the same, as long as no placeholder reaches over
the end of a text (`settings_expanded`). Names, log levels and executables may hold anything: they
stand at the end, or alone.
-/

namespace RunControl

open Template

/-! ### Blanks at the start -/

namespace Text

variable {s t : List Char}

theorem trimStart_append_trimStart (s t : List Char) :
    trimStart (trimStart s ++ t) = trimStart (s ++ t) := by
  induction s with
  | nil => rfl
  | cons c s ih =>
      by_cases blank : isBlank c
      · simpa [trimStart, blank] using ih
      · simp [trimStart, blank]

/-- Trimming stops before what begins with no blank. -/
theorem trimStart_append (visible : ∃ c r, t = c :: r ∧ isBlank c = false) :
    trimStart (s ++ t) = trimStart s ++ t := by
  obtain ⟨c, r, rfl, visible⟩ := visible
  induction s with
  | nil => simp [trimStart, visible]
  | cons d s ih =>
      by_cases blank : isBlank d
      · simpa [trimStart, blank] using ih
      · simp [trimStart, blank]

theorem mem_of_mem_trimStart {c : Char} (member : c ∈ trimStart s) : c ∈ s :=
  (List.dropWhile_sublist _).subset member

end Text

/-- A text without the blanks at its start. -/
def trimmed (s : String) : String :=
  String.ofList (Text.trimStart s.toList)

namespace ProcessSpec

variable {s : ProcessSpec} {vars : Table String}

/-! ### Expanded specifications -/

/-- The texts of a specification end between placeholders wherever another text is put behind
them. -/
structure Separable (s : ProcessSpec) : Prop where
  command : '%' ∉ s.command.toList
  directory : Parted s.directory
  /-- The directory is not touched when blanks are trimmed off the command line. -/
  visible : ∃ c r, s.directory.toList = c :: r ∧ Text.isBlank c = false
  names : ∀ e ∈ s.environment.entries, '%' ∉ e.1.toList
  values : ∀ e ∈ s.environment.entries, Parted e.2

/-- The command line of an expanded specification is the expanded command line, but for blanks that
a value may have brought to its start. -/
theorem Separable.commandLine (separable : s.Separable) :
    (s.mapTemplates (substitute vars)).commandLine = trimmed (substitute vars s.commandLine) := by
  have plain : '%' ∉ s.command.toList ++ [' '] := by simp [separable.command]
  have short : '%' ∉ Text.trimStart (s.command.toList ++ [' ']) := fun member =>
    plain (Text.mem_of_mem_trimStart member)
  have visible : ∃ c r, s.directory.toList ++ s.executable.toList = c :: r ∧
      Text.isBlank c = false := by
    obtain ⟨c, r, same, visible⟩ := separable.visible
    exact ⟨c, r ++ s.executable.toList, by rw [same]; rfl, visible⟩
  have line : s.commandLine.toList = Text.trimStart (s.command.toList ++ [' ']) ++
      (s.directory.toList ++ s.executable.toList) := by
    rw [← Text.trimStart_append visible]
    simp [ProcessSpec.commandLine]
  have apart := parted_iff.mp separable.directory vars s.executable.toList
  rw [trimmed, toList_substitute, line, expand_append_of_notMem short, apart,
    Text.trimStart_append_trimStart, ProcessSpec.commandLine]
  simp [mapTemplates, substitute_of_notMem separable.command, toList_substitute]

/-- A line of parts with commas between them is expanded part by part. -/
theorem substitute_intercalate {parts : List String} (apart : ∀ part ∈ parts, Parted part) :
    substitute vars (",".intercalate parts) = ",".intercalate (parts.map (substitute vars)) := by
  have comma : Parted "," := parted_of_notMem (by decide)
  induction parts with
  | nil => exact substitute_of_notMem (by decide)
  | cons part parts ih =>
      cases parts with
      | nil => simp
      | cons next parts =>
          obtain ⟨first, others⟩ := List.forall_mem_cons.mp apart
          have unchanged : substitute vars "," = "," := substitute_of_notMem (by decide)
          rw [String.intercalate_cons_cons, first.append comma, first, unchanged, ih others]
          exact String.intercalate_cons_cons.symm

/-- The variables' line of an expanded specification is the expanded line. -/
theorem Separable.environmentLine (separable : s.Separable) :
    (s.mapTemplates (substitute vars)).environmentLine = substitute vars s.environmentLine := by
  have entry (e : String × String) (member : e ∈ s.environment.entries) :
      Parted (e.1 ++ "=") ∧
        substitute vars (e.1 ++ "=" ++ e.2) = e.1 ++ "=" ++ substitute vars e.2 := by
    have plain : '%' ∉ (e.1 ++ "=").toList := by
      simpa using separable.names e member
    exact ⟨parted_of_notMem plain, by rw [parted_of_notMem plain, substitute_of_notMem plain]⟩
  have apart : ∀ part ∈ s.environment.entries.map fun e => e.1 ++ "=" ++ e.2, Parted part := by
    intro part member
    obtain ⟨e, here, rfl⟩ := List.mem_map.mp member
    exact (entry e here).1.append (separable.values e here)
  unfold ProcessSpec.environmentLine
  rw [substitute_intercalate apart, List.map_map]
  simp only [mapTemplates, Table.map, List.map_map]
  congr 1
  exact List.map_congr_left fun e member => (entry e member).2.symm

/-! ### Expanded settings -/

theorem settings_command (s : ProcessSpec) : s.settings.get? "command" = some s.commandLine := by
  unfold ProcessSpec.settings
  split <;> split <;> simp [Table.ofList]

theorem settings_logFile (s : ProcessSpec) :
    s.settings.get? "stdout_logfile" = some s.logFile := by
  unfold ProcessSpec.settings
  split <;> split <;> simp [Table.ofList]

/-- What is shown of a setting: the user as it is, and everything else expanded, without blanks at
the start of the command line. -/
def shown (vars : Table String) (key value : String) : String :=
  if key = "user" then value
  else if key = "command" then trimmed (substitute vars value)
  else substitute vars value

/-- The settings of an expanded specification are what is shown of the settings before. -/
theorem Separable.settings (separable : s.Separable) (key : String) :
    (s.mapTemplates (substitute vars)).settings.get? key =
      (s.settings.get? key).map (shown vars key) := by
  have no : substitute vars "false" = "false" := substitute_of_notMem (by decide)
  have zero : substitute vars "0" = "0" := substitute_of_notMem (by decide)
  have empty : (s.environment.map (substitute vars)).isEmpty = s.environment.isEmpty := by
    simp [Table.isEmpty, Table.map]
  unfold ProcessSpec.settings
  rw [← Table.get?_ofList_map, separable.commandLine, separable.environmentLine]
  simp only [mapTemplates, empty]
  congr 2
  by_cases bare : s.environment.isEmpty <;> by_cases anonymous : s.user.isEmpty <;>
    simp only [bare, anonymous] <;> simp [shown, no, zero]

end ProcessSpec

/-! ### Registrations -/

namespace Registrar

variable {vars : Table String} {host user stamp : String} {r : ProcessRequest}

/-- What is given back shows what was submitted. -/
structure Shows (vars submitted : Table String) (given : Registration) : Prop where
  keys : ∀ key, given.settings.contains key = submitted.contains key
  others : ∀ key, key ≠ "command" → key ≠ "user" →
    given.settings.get? key = (submitted.get? key).map (substitute vars)
  user : given.settings.get? "user" = submitted.get? "user"
  command : ∃ line, submitted.get? "command" = some line ∧
    given.settings.get? "command" = some (trimmed (substitute vars line))
  logFile : ∃ file, submitted.get? "stdout_logfile" = some file ∧
    given.logFile = substitute vars file

/-- Expanding without values leaves a specification as it is, so it makes no difference that it is
left out then. -/
theorem registered_eq (host : String) (vars : Table String) (s : ProcessSpec) :
    registered host vars s = ⟨host, substitute vars s.logFile,
      (s.mapTemplates (substitute vars)).settings, !vars.isEmpty⟩ := by
  unfold registered
  split
  · rename_i empty
    have same : substitute vars = id := funext fun _ => if_pos empty
    have whole : s.environment.map id = s.environment := by
      ext key
      rw [Table.get?_map, Option.map_id, id]
    simp [ProcessSpec.mapTemplates, same, whole]
  · rfl

theorem shows_of_separable (separable : (submitted user stamp r).Separable) :
    Shows vars (submitted user stamp r).settings
      (registered host vars (submitted user stamp r)) := by
  have settings (key : String) :
      (registered host vars (submitted user stamp r)).settings.get? key =
        ((submitted user stamp r).settings.get? key).map (ProcessSpec.shown vars key) := by
    rw [registered_eq]
    exact separable.settings key
  constructor
  case keys =>
    intro key
    rw [Table.contains, settings, Option.isSome_map]
    rfl
  case others =>
    intro key command name
    have same : ProcessSpec.shown vars key = substitute vars :=
      funext fun value => by simp [ProcessSpec.shown, name, command]
    rw [settings, same]
  case user =>
    rw [settings]
    exact Option.map_id'
  case command =>
    exact ⟨_, ProcessSpec.settings_command _, by
      rw [settings, ProcessSpec.settings_command]
      rfl⟩
  case logFile =>
    exact ⟨_, ProcessSpec.settings_logFile _, by rw [registered_eq]⟩

/-- What is wanted of the registration of a process. -/
structure Reported (r : ProcessRequest) : Prop where
  /-- Whatever the environment of the host holds, what is given back shows what was submitted. -/
  shows : ∀ user stamp host (v : Vocabulary) environment,
    Shows (v.values environment) (submitted user stamp r).settings
      (registered host (v.values environment) (submitted user stamp r))
  /-- Whoever answers, these are the settings that are submitted, and what is given back if they
  are accepted. An environment that cannot be had counts as empty. -/
  course : ∀ c host events given, (register c host r).Course events (.ok given) →
    ∃ stamp resolution rest, events = ⟨.now, stamp⟩ ::
        ⟨.order host (.add c.group r.name (submitted c.user stamp r).settings), .ok ()⟩ :: rest ∧
      (HostEnvironment.resolve ⟨host, c.group⟩ c.poll).Course rest resolution ∧
      given = registered host ((vocabulary c).values (resolution.toOption.getD .empty))
        (submitted c.user stamp r)
  /-- Whenever they are accepted, they are given back in this way: from there on nothing fails. -/
  accepted : ∀ c host stamp rest result,
    (register c host r).Course (addition c host r stamp (.ok ()) ++ rest) result →
      ∃ resolution, (HostEnvironment.resolve ⟨host, c.group⟩ c.poll).Course rest resolution ∧
        result = .ok (registered host ((vocabulary c).values (resolution.toOption.getD .empty))
          (submitted c.user stamp r))

/-- A registration that succeeds has submitted the settings and resolved the environment. -/
theorem register_course {c : Config} {events : List Event} {given : Registration}
    (course : (register c host r).Course events (.ok given)) :
    ∃ stamp resolution rest, events = ⟨.now, stamp⟩ ::
        ⟨.order host (.add c.group r.name (submitted c.user stamp r).settings), .ok ()⟩ :: rest ∧
      (HostEnvironment.resolve ⟨host, c.group⟩ c.poll).Course rest resolution ∧
      given = registered host ((vocabulary c).values (resolution.toOption.getD .empty))
        (submitted c.user stamp r) := by
  cases submission_of_course course with
  | accepted stamp resolved => exact ⟨stamp, _, _, rfl, resolved, rfl⟩

/-- A registration whose addition is accepted succeeds. -/
theorem accepted_course {c : Config} {rest : List Event} {result : Except RpcError Registration}
    (course : (register c host r).Course (addition c host r stamp (.ok ()) ++ rest) result) :
    ∃ resolution, (HostEnvironment.resolve ⟨host, c.group⟩ c.poll).Course rest resolution ∧
      result = .ok (registered host ((vocabulary c).values (resolution.toOption.getD .empty))
        (submitted c.user stamp r)) := by
  generalize same : addition c host r stamp (.ok ()) ++ rest = events at course
  cases submission_of_course course with
  | refused stamp' e => cases same
  | accepted stamp' resolved =>
      cases same
      exact ⟨_, resolved, rfl⟩

end Registrar

namespace Controller

open Registrar

/-! ### Components and scripts -/

variable {user stamp : String}

theorem parted_buildDirectory : Parted buildDirectory :=
  parted_placeholder (by decide) (by decide)

/-- What begins with a placeholder begins with no blank. -/
theorem visible_placeholder (key s : String) :
    ∃ c r, (placeholder key ++ s).toList = c :: r ∧ Text.isBlank c = false :=
  ⟨'%', '(' :: key.toList ++ closing ++ s.toList, by
    simp [toList_placeholder, opening], rfl⟩

theorem componentRequest_separable (c : Component) :
    (submitted user stamp (componentRequest c)).Separable := by
  have entry : ∀ e ∈ (componentRequest c).environment.entries,
      '%' ∉ e.1.toList ∧ Parted e.2 := by
    rintro ⟨key, value⟩ member
    have found := Table.mem_of_get?_ofList (Table.get?_eq_some_iff.mpr member)
    simp only [List.mem_cons, List.not_mem_nil, or_false, Prod.mk.injEq] at found
    rcases found with ⟨rfl, rfl⟩ | ⟨rfl, rfl⟩
    · have libraries : Parted (placeholder (variableKey "LD_LIBRARY_PATH")) :=
        parted_placeholder (by decide) (by decide)
      have colon : Parted ":" := parted_of_notMem (by decide)
      have folder : Parted "/lib/" := parted_of_notMem (by decide)
      exact ⟨by decide, ((libraries.append colon).append parted_buildDirectory).append folder⟩
    · exact ⟨by decide, parted_of_notMem (by decide)⟩
  constructor
  case command => exact List.not_mem_nil
  case directory => exact parted_buildDirectory
  case visible =>
    have shown := visible_placeholder (variableKey "DAQ_BUILD_DIR") ""
    rwa [String.append_empty] at shown
  case names => exact fun e member => (entry e member).1
  case values => exact fun e member => (entry e member).2

theorem scriptRequest_separable {s : Script} (command : '%' ∉ s.command.toList)
    (directory : '%' ∉ s.directory.toList) :
    (submitted user stamp (scriptRequest s)).Separable := by
  constructor
  case command => exact command
  case directory =>
    have scripts : Parted (placeholder (variableKey "DAQ_SCRIPT_DIR")) :=
      parted_placeholder (by decide) (by decide)
    exact scripts.append (parted_of_notMem directory)
  case visible => exact visible_placeholder _ s.directory
  case names => exact nofun
  case values => exact nofun

/-- The settings that are given back are the expansion of those that are submitted, whatever the
environment of the host holds: for every component, and for every script with no percent sign in
its command and its directory. The user is given back as it is, and the command line without blanks
at its start. -/
theorem settings_expanded :
    (∀ c : Component, Reported (componentRequest c)) ∧
    ∀ s : Script, '%' ∉ s.command.toList → '%' ∉ s.directory.toList →
      Reported (scriptRequest s) := by
  constructor
  · intro c
    exact ⟨fun _ _ _ _ _ => shows_of_separable (componentRequest_separable c),
      fun _ _ _ _ => register_course, fun _ _ _ _ _ => accepted_course⟩
  · intro s command directory
    exact ⟨fun _ _ _ _ _ => shows_of_separable (scriptRequest_separable command directory),
      fun _ _ _ _ => register_course, fun _ _ _ _ _ => accepted_course⟩

/-- The settings of a script without a launcher, in a folder of its own. -/
theorem settings_expanded_monitor :
    let monitor : Script := ⟨"monitor", "np04", "", "monitor.py", "/tools/"⟩
    '%' ∉ monitor.command.toList ∧ '%' ∉ monitor.directory.toList ∧
      Reported (scriptRequest monitor) ∧
      (registered "np04" ((Vocabulary.mk ["DAQ_SCRIPT_DIR"]).values
        (.ofList [("DAQ_SCRIPT_DIR", " /srv")])) (submitted "daq" "20260101120000"
          (scriptRequest monitor))).settings.get? "command" = some "/srv/tools/monitor.py" := by
  have command : '%' ∉ "".toList := by decide
  have directory : '%' ∉ "/tools/".toList := by decide
  exact ⟨command, directory, settings_expanded.2 _ command directory, by decide +kernel⟩

end Controller

end RunControl

import Mathlib
import RunControl.Components.Command
import RunControl.Deployment.Script
import RunControl.Deployment.Status
import RunControl.Process.Spec
import RunControl.Proofs.Json.Keeping
import RunControl.Proofs.Json.Spelled
import RunControl.Proofs.Rpc.Course

/-!
Descriptions survive their JSON.

What is written of a component is read back as the same component, with the members that are passed
on untouched, and how the text was laid out makes no difference. The same holds of what stands in
or beside a component (`descriptions_survive`). Only the members that are passed on can hold
numbers other than ports; for them the texts are taken to hold no floating-point numbers.
-/

namespace RunControl

namespace Json

/-- The texts differ in nothing but the blanks between their tokens, the order in which objects
list members with distinct names, and the spelling of characters in strings. -/
def Alike (s s' : String) : Prop :=
  ∃ d d', SpellsText d s ∧ SpellsText d' s' ∧ Reordered d d'

/-- The values of a type survive their JSON, as far as they come from texts that fit. -/
structure Survives {α : Type} (r : Reader α) (toJson : α → Json) (fits : Doc → Prop) : Prop where
  /-- Every text that gives a value is a spelling of its outline. -/
  spelled : ∀ {s : String} {a : α}, r.ofText s = .ok a → SpellsText (outline s).doc s
  /-- The text that is written of a value that was read gives the same value, and so the same
  text, again. -/
  back : ∀ {s : String} {a : α}, r.ofText s = .ok a → fits (outline s).doc →
    r.ofText (toJson a).compact = .ok a
  /-- Alike texts give the same value, and so the same text. -/
  layout : ∀ {s s' : String} {a : α}, Alike s s' → r.ofText s = .ok a → r.ofText s' = .ok a

variable {α : Type} {r : Reader α} {toJson : α → Json} {fits : Doc → Prop}

theorem ofText_eq_ok {s : String} {a : α} :
    r.ofText s = .ok a ↔ r depthLimit (outline s).doc = .ok a ∧ (outline s).clean = true := by
  simp only [Reader.ofText]
  split
  · rename_i failed
    simp [failed]
  · rename_i failed
    simp [failed]
  · rename_i read
    rw [read]
    split <;> simp_all

theorem survives_of_stable (stable : r.Stable)
    (back : ∀ {s : String} {a : α}, r depthLimit (outline s).doc = .ok a → fits (outline s).doc →
      r depthLimit (toJson a).toDoc = .ok a ∧ (toJson a).Integers) : Survives r toJson fits where
  spelled read := spells_of_outline (ofText_eq_ok.mp read).2
  back {s a} read fit := by
    obtain ⟨again, integers⟩ := back (ofText_eq_ok.mp read).1 fit
    exact ofText_compact integers again
  layout {s s' a} alike read := by
    obtain ⟨d, d', spelled, spelled', reordered⟩ := alike
    rw [ofText_eq_ok, outline_of_spells spelled] at read
    rw [ofText_eq_ok, outline_of_spells spelled']
    exact ⟨stable.reads reordered read.1, rfl⟩

/-- Values survive without condition where every value is read back. -/
theorem survives_of_toDoc (stable : r.Stable)
    (back : ∀ a, r depthLimit (toJson a).toDoc = .ok a) (integers : ∀ a, (toJson a).Integers) :
    Survives r toJson fun _ => True :=
  survives_of_stable stable fun {_ a} _ _ => ⟨back a, integers a⟩

end Json

open Json Json.Record

/-! ### Log levels, scripts, specifications and reports -/

theorem LogLevels.reader_stable : LogLevels.reader.Stable :=
  record_stable _ <| (((optional_stable _ _ text_stable).map mk).ap
    (optional_stable _ _ text_stable)).ap (optional_stable _ _ text_stable)

theorem LogLevels.reader_toDoc (room : Nat) (l : LogLevels) :
    LogLevels.reader (room + 1) l.toJson.toDoc = .ok l :=
  record_toDoc ((((optional_prints rfl).map mk).ap (optional_prints rfl)).ap (optional_prints rfl))
    (by simp)

theorem LogLevels.integers (l : LogLevels) : l.toJson.Integers :=
  integers_object (by simp [integers_string])

theorem Script.reader_stable : Script.reader.Stable :=
  record_stable _ <| (((((required_stable _ text_stable).map mk).ap
    (required_stable _ text_stable)).ap (optional_stable _ _ text_stable)).ap
    (required_stable _ text_stable)).ap (optional_stable _ _ text_stable)

theorem Script.reader_toDoc (room : Nat) (s : Script) :
    Script.reader (room + 1) s.toJson.toDoc = .ok s :=
  record_toDoc ((((((required_prints rfl).map mk).ap (required_prints rfl)).ap
    (optional_prints rfl)).ap (required_prints rfl)).ap (optional_prints rfl)) (by simp)

theorem Script.integers (s : Script) : s.toJson.Integers :=
  integers_object (by simp [integers_string])

theorem ProcessSpec.reader_stable : ProcessSpec.reader.Stable :=
  record_stable _ <| (((((((required_stable _ text_stable).map mk).ap
    (required_stable _ text_stable)).ap (required_stable _ text_stable)).ap
    (required_stable _ text_stable)).ap (required_stable _ (table_stable text_stable))).ap
    (required_stable _ text_stable)).ap (required_stable _ text_stable)

theorem ProcessSpec.reader_toDoc (room : Nat) (s : ProcessSpec) :
    ProcessSpec.reader (room + 2) s.toJson.toDoc = .ok s :=
  record_toDoc ((((((((required_prints rfl).map mk).ap (required_prints rfl)).ap
    (required_prints rfl)).ap (required_prints rfl)).ap
    (required_prints (textTable_toDoc s.environment))).ap (required_prints rfl)).ap
    (required_prints rfl)) (by simp)

theorem ProcessSpec.integers (s : ProcessSpec) : s.toJson.Integers := by
  have environment : (ofTextTable s.environment).Integers :=
    integers_object fun e member => by
      obtain ⟨e, -, rfl⟩ := List.mem_map.mp member
      exact integers_string e.2
  exact integers_object (by simp [integers_string, environment])

theorem ModuleStatus.reader_stable : ModuleStatus.reader.Stable :=
  record_stable _ <| ((required_stable _ text_stable).map mk).ap (required_stable _ text_stable)

theorem ModuleStatus.reader_toDoc (room : Nat) (s : ModuleStatus) :
    ModuleStatus.reader (room + 1) s.toJson.toDoc = .ok s :=
  record_toDoc (((required_prints rfl).map mk).ap (required_prints rfl)) (by simp)

theorem StatusReport.reader_stable : StatusReport.reader.Stable :=
  record_stable _ <| (required_stable _ (list_stable ModuleStatus.reader_stable)).map mk

theorem StatusReport.reader_toDoc (room : Nat) (r : StatusReport) :
    StatusReport.reader (room + 3) r.toJson.toDoc = .ok r :=
  record_toDoc ((required_prints (list_toDoc fun s _ => s.reader_toDoc room)).map mk) (by simp)

theorem StatusReport.integers (r : StatusReport) : r.toJson.Integers := by
  have entries : (Json.array (r.entries.map ModuleStatus.toJson)).Integers :=
    integers_array fun j member => by
      obtain ⟨s, -, rfl⟩ := List.mem_map.mp member
      exact integers_object (by simp [integers_string])
  exact integers_object (by simp [entries])

/-! ### Modules -/

namespace Module

/-- The fields of a module. -/
def record : Record (Table Json → Module) :=
  mk <$> .required "name" Json.text

theorem reader_stable : reader.Stable :=
  openRecord_stable _ ((required_stable _ text_stable).map mk)

/-- What a module that was read passes on. -/
theorem spare {room : Nat} {d : Doc} {m : Module} (integers : ∀ v, d.Has v → v.IsInteger)
    (read : reader room d = .ok m) :
    ∃ left, room = left + 1 ∧ Spare record.fields left m.extra := by
  obtain ⟨left, given, make, extra, rfl, built, rfl, spare, -⟩ := openRecord_spare integers read
  obtain ⟨name, -, rfl⟩ := build_map_eq_ok.mp built
  exact ⟨left, rfl, spare⟩

theorem reader_toDoc {room : Nat} {m : Module} (spare : Spare record.fields room m.extra) :
    reader (room + 1) m.toJson.toDoc = .ok m :=
  openRecord_toDoc ((required_prints rfl).map mk) (by simp) spare

theorem integers {room : Nat} {m : Module} (spare : Spare record.fields room m.extra) :
    m.toJson.Integers :=
  integers_object <| List.forall_mem_cons.mpr
    ⟨integers_string m.name, fun e member => (spare e member).2.integers⟩

end Module

/-! ### Components -/

namespace Component

/-- The fields of a component. -/
def record : Record (Table Json → Component) :=
  mk <$> .required "name" Json.text <*> .required "host" Json.text
    <*> .required "port" Json.port <*> .optional "loglevel" LogLevels.reader .default
    <*> .optional "modules" (Json.list Module.reader) []

theorem reader_stable : reader.Stable :=
  openRecord_stable _ <| (((((required_stable _ text_stable).map mk).ap
    (required_stable _ text_stable)).ap (required_stable _ port_stable)).ap
    (optional_stable _ _ LogLevels.reader_stable)).ap
    (optional_stable _ _ (list_stable Module.reader_stable))

/-- The modules of a component are those that were given. -/
theorem modules_of_build {room : Nat} {given : String → Option Doc} {make : Table Json → Component}
    (built : record.build room given = .ok make) (extra : Table Json) :
    (optional "modules" (list Module.reader) []).build room given = .ok (make extra).modules ∧
      (make extra).extra = extra := by
  obtain ⟨_, modules, upToLevels, last, rfl⟩ := build_ap_eq_ok.mp built
  obtain ⟨_, logLevels, upToPort, -, rfl⟩ := build_ap_eq_ok.mp upToLevels
  obtain ⟨_, port, upToHost, -, rfl⟩ := build_ap_eq_ok.mp upToPort
  obtain ⟨_, host, named, -, rfl⟩ := build_ap_eq_ok.mp upToHost
  obtain ⟨name, -, rfl⟩ := build_map_eq_ok.mp named
  exact ⟨last, rfl⟩

/-- What a component passes on, itself and in its modules, is read back. -/
structure Spare (room : Nat) (c : Component) : Prop where
  extra : Record.Spare record.fields (room + 2) c.extra
  modules : ∀ m ∈ c.modules, Record.Spare Module.record.fields room m.extra

/-- This is so of a component that was read. -/
theorem spare {room : Nat} {d : Doc} {c : Component} (integers : ∀ v, d.Has v → v.IsInteger)
    (read : reader (room + 3) d = .ok c) : c.Spare room := by
  obtain ⟨left, given, make, extra, same, built, rfl, spare, integers⟩ :=
    openRecord_spare integers read
  cases same
  obtain ⟨built, kept⟩ := modules_of_build built extra
  refine ⟨kept.symm ▸ spare, fun m member => ?_⟩
  obtain none | ⟨d, found, read⟩ := optional_cases built
  · rw [none] at member
    cases member
  · cases d with
    | array items stop =>
        obtain ⟨left, same, -, read⟩ := list_array_eq_ok.mp read
        cases same
        obtain ⟨d, here, read⟩ := exists_of_forall₂ read member
        obtain ⟨left, same, spare⟩ :=
          Module.spare (fun v has => integers _ _ found v (.item here has)) read
        cases same
        exact spare
    | absent | word | number | string | object => exact not_ok rfl read

theorem reader_toDoc {room : Nat} {c : Component} (spare : c.Spare room) :
    reader (room + 3) c.toJson.toDoc = .ok c :=
  openRecord_toDoc ((((((required_prints rfl).map mk).ap (required_prints rfl)).ap
    (required_prints (port_toDoc c.port))).ap
    (optional_prints (LogLevels.reader_toDoc _ c.logLevels))).ap
    (optional_prints (list_toDoc fun m member => Module.reader_toDoc (spare.modules m member))))
    (by simp) spare.extra

theorem integers {room : Nat} {c : Component} (spare : c.Spare room) : c.toJson.Integers := by
  have port : (ofNat c.port.toNat).Integers := by
    rintro v ⟨⟨⟩⟩
    trivial
  have modules : (Json.array (c.modules.map Module.toJson)).Integers :=
    integers_array fun j member => by
      obtain ⟨m, here, rfl⟩ := List.mem_map.mp member
      exact Module.integers (spare.modules m here)
  refine integers_object (List.forall_mem_append.mpr ⟨?_, ?_⟩)
  · simp [integers_string, port, modules, c.logLevels.integers]
  · exact fun e member => (spare.extra e member).2.integers

end Component

/-- The document that a component is configured with is its JSON. -/
theorem configure_course {c : Component} {events : List Event} {reply : Except RpcError Reply}
    (course : (Command.configure c).Course events reply) :
    ∃ answer, events = [⟨.command c.host c.port "configure" [c.toJson.compact], answer⟩] := by
  obtain ⟨first, answer, second, rfl, asked, rest⟩ := Plan.course_bind_iff.mp course
  obtain rfl := Plan.course_request_iff.mp asked
  cases answer with
  | ok payload =>
      obtain ⟨rfl, -⟩ := Plan.course_pure_iff.mp rest
      exact ⟨_, rfl⟩
  | error e =>
      obtain ⟨rfl, -⟩ := Plan.course_pure_iff.mp rest
      exact ⟨_, rfl⟩

/-- Components, modules, log levels, scripts, process specifications and status reports survive
their JSON, components and modules as far as no number in their texts is floating-point. The
document that a component is configured with is this JSON. -/
theorem descriptions_survive :
    (Survives Component.reader Component.toJson Doc.Integral ∧
      ∀ c events reply, (Command.configure c).Course events reply →
        ∃ answer, events = [⟨.command c.host c.port "configure" [c.toJson.compact], answer⟩]) ∧
      Survives Module.reader Module.toJson Doc.Integral ∧
      Survives LogLevels.reader LogLevels.toJson (fun _ => True) ∧
      Survives Script.reader Script.toJson (fun _ => True) ∧
      Survives ProcessSpec.reader ProcessSpec.toJson (fun _ => True) ∧
      Survives StatusReport.reader StatusReport.toJson (fun _ => True) := by
  refine ⟨⟨?component, fun c events reply => configure_course⟩, ?module, ?levels, ?script, ?spec,
    ?report⟩
  case component =>
    refine survives_of_stable Component.reader_stable fun {s c} read integral => ?_
    have spare : c.Spare 124 := Component.spare (fun v => isInteger_of_integral integral) read
    exact ⟨Component.reader_toDoc spare, Component.integers spare⟩
  case module =>
    refine survives_of_stable Module.reader_stable fun {s m} read integral => ?_
    obtain ⟨left, same, spare⟩ := Module.spare (fun v => isInteger_of_integral integral) read
    rw [same]
    exact ⟨Module.reader_toDoc spare, Module.integers spare⟩
  case levels =>
    exact survives_of_toDoc LogLevels.reader_stable (LogLevels.reader_toDoc _) LogLevels.integers
  case script =>
    exact survives_of_toDoc Script.reader_stable (Script.reader_toDoc _) Script.integers
  case spec =>
    exact survives_of_toDoc ProcessSpec.reader_stable (ProcessSpec.reader_toDoc _)
      ProcessSpec.integers
  case report =>
    exact survives_of_toDoc StatusReport.reader_stable (StatusReport.reader_toDoc _)
      StatusReport.integers

/-! ### A description that is written by hand -/

namespace Component

/-- A component, with an escape, and blanks and members as they came. -/
def handwritten : String :=
  "\x7b \"tags\" : \x7b \"b\": 2, \"a\": \"x\" \x7d,\n  \"modules\" : [ \x7b \"r\\u0061te\": -1, " ++
    "\"name\": \"source\" \x7d ],\n  \"port\": 5555, \"host\": \"np04\", \"name\": \"readout\" \x7d\n"

/-- The same component, with the members of two objects the other way round. -/
def turnedRound : String :=
  "\x7b\"name\":\"readout\",\"host\":\"np04\",\"port\":5555,\"modules\":[\x7b\"rate\":-1," ++
    "\"name\":\"source\"\x7d],\"tags\":\x7b\"a\":\"x\",\"b\":2\x7d\x7d"

/-- The document that it is configured with: the log levels are filled in, what is passed on comes
last, in key order. -/
def handedOn : String :=
  "\x7b\"name\":\"readout\",\"host\":\"np04\",\"port\":5555,\"loglevel\":\x7b\"core\":\"INFO\"," ++
    "\"module\":\"INFO\",\"connection\":\"INFO\"\x7d,\"modules\":[\x7b\"name\":\"source\"," ++
    "\"rate\":-1\x7d],\"tags\":\x7b\"a\":\"x\",\"b\":2\x7d\x7d"

/-- The tags of the component. -/
def tags : List (Token String × Doc) :=
  [(.good "b", .number (.good (.natural 2))), (.good "a", .string (.good "x"))]

/-- Its members, with the tags in some order. -/
def described (tags : List (Token String × Doc)) : List (Token String × Doc) :=
  [(.good "tags", .object tags none),
    (.good "modules", .array [.object [(.good "rate", .number (.good (.negative (-1)))),
      (.good "name", .string (.good "source"))] none] none),
    (.good "port", .number (.good (.natural 5555))), (.good "host", .string (.good "np04")),
    (.good "name", .string (.good "readout"))]

theorem outline_handwritten : outline handwritten = ⟨.object (described tags) none, true⟩ := by
  cbv

theorem outline_turnedRound :
    outline turnedRound = ⟨.object (described tags.reverse).reverse none, true⟩ := by
  simp only [described, tags, List.reverse_cons, List.reverse_nil, List.nil_append,
    List.cons_append]
  cbv

theorem described_integral : (Doc.object (described tags) none).Integral := by
  intro bits has
  unfold described tags at has
  grind [Token.good, cases Doc.Has]

/-- Both are read as one component, which is what is read of the document too. -/
theorem descriptions_survive_handwritten :
    (outline handwritten).doc.Integral ∧ Alike handwritten turnedRound ∧
      ∃ c, reader.ofText handwritten = .ok c ∧ reader.ofText c.toJson.compact = .ok c ∧
        reader.ofText turnedRound = .ok c ∧ c.toJson.compact = handedOn := by
  have integral : (outline handwritten).doc.Integral := outline_handwritten ▸ described_integral
  have alike : Alike handwritten turnedRound := by
    refine ⟨_, _, spells_of_outline (by rw [outline_handwritten]),
      spells_of_outline (by rw [outline_turnedRound]), ?_⟩
    rw [outline_handwritten, outline_turnedRound]
    have within : Reordered (.object tags none) (.object tags.reverse none) :=
      .order (by decide) (List.reverse_perm tags)
    have tagged : Reordered (.object (described tags) none)
        (.object (described tags.reverse) none) := @Reordered.value [] _ _ _ _ _ within
    exact tagged.trans (.order (by decide) (List.reverse_perm _))
  have written : (reader.ofText handwritten).map (·.toJson.compact) = .ok handedOn := by
    decide +kernel
  obtain ⟨⟨component, -⟩, -⟩ := descriptions_survive
  cases given : reader.ofText handwritten with
  | error e => simp [given, Except.map] at written
  | ok c =>
      rw [given] at written
      exact ⟨integral, alike, c, rfl, component.back given integral, component.layout alike given,
        Except.ok.inj written⟩

end Component

end RunControl

import RunControl.Proofs.Controller.Removal

/-!
A deployment that is taken down again.

Every step of a batch is about a process of the group, or about the environment helper, on the
host of its component. Registrations bring processes into the tables of their hosts, starts bring
none, and removals take them out, so a deployment that is registered, started and removed leaves
every table as it was (`teardown_restores`).
-/

namespace RunControl.Controller

open HostEnvironment Registrar Simulation

variable {c : Config} {host : String} {r : ProcessRequest} {w w' : World}

/-! ### Hosts on which processes can be taken out -/

/-- The supervisor of a host answers for itself and makes neither stops nor removals fail. -/
structure Removable (host : String) (w : World) : Prop where
  plain : w.Unprepared host
  stops : (w.hosts host).injected? .stop = none
  removes : (w.hosts host).injected? .remove = none

theorem Removable.of_confined {places : String → String → Prop} (removable : Removable host w)
    (confined : Confined places w w') : Removable host w' where
  plain := confined.plain host removable.plain
  stops := by rw [Host.injected?_of_setup (confined.setup host), removable.stops]
  removes := by rw [Host.injected?_of_setup (confined.setup host), removable.removes]

/-! ### Registrations -/

/-- The identifiers that the registration of a process is about. -/
def touches (c : Config) (name id : String) : Prop :=
  id = qualified c.group name ∨ id = qualified c.group helperName

/-- A registration is an addition, and after one that was accepted a resolution. -/
theorem register_after (c : Config) (host : String) (r : ProcessRequest) (w : World) :
    (w.play (register c host r)).2 = afterAdd c host r w ∨
      (w.play (register c host r)).2 =
        ((afterAdd c host r w).play (resolve ⟨host, c.group⟩ c.poll)).2 := by
  cases answer : (w.answerOrder host
      (.add c.group r.name (submitted c.user w.now r).settings)).1 with
  | ok u => exact .inr (register_play answer).2.1
  | error e =>
      have run : (register c host r).run World.answer w =
          (afterAnswer c host r w.now (w.answerOrder host
            (.add c.group r.name (submitted c.user w.now r).settings)).1).run
              World.answer (afterAdd c host r w) := by
        rw [register_eq]
        rfl
      rw [answer] at run
      exact .inl (congrArg Prod.snd run)

theorem add_confined (r : ProcessRequest) (plain : w.Unprepared host) :
    Confined (fun other id => other = host ∧ id = qualified c.group r.name) w
      (afterAdd c host r w) :=
  confined_of_concerns (b := ⟨host, c.group⟩)
    (concerns_operation (.add r.name (submitted c.user w.now r).settings)) plain

/-- A registration changes nothing but its process and the helper. -/
theorem register_confined (r : ProcessRequest) (plain : w.Unprepared host) :
    Confined (fun other id => other = host ∧ touches c r.name id) w
      (w.play (register c host r)).2 := by
  have added := add_confined (c := c) r plain
  have wider : Confined (fun other id => other = host ∧ touches c r.name id) w
      (afterAdd c host r w) := added.mono fun other id place => ⟨place.1, .inl place.2⟩
  rcases register_after c host r w with same | same
  · rw [same]
    exact wider
  · rw [same]
    refine wider.trans ((confined_of_concerns (concerns_resolve c.poll)
      (added.plain host plain)).mono ?_)
    exact fun other id place => ⟨place.1, .inr place.2⟩

/-- The registration of another process leaves no helper that was not there. -/
theorem register_absent (removable : Removable host w) (other : r.name ≠ helperName)
    (free : (w.hosts host).processes.get? (qualified c.group helperName) = none) :
    ((w.play (register c host r)).2.hosts host).processes.get? (qualified c.group helperName) =
      none := by
  have added := add_confined (c := c) r removable.plain
  have apart : ¬ (host = host ∧ qualified c.group helperName = qualified c.group r.name) :=
    fun ⟨_, same⟩ => other (qualified_inj.mp same).symm
  have still := (added.frame host _ apart).trans free
  have removable' := removable.of_confined added
  rcases register_after c host r w with same | same
  · rw [same]
    exact still
  · rw [same]
    exact resolve_absent (b := ⟨host, c.group⟩) c.poll removable'.plain removable'.stops
      removable'.removes still

/-! ### Batches -/

variable {components : List Component}

/-- The places that a deployment is about: on the host of each component the identifiers of its
process and of the helper. -/
def places (c : Config) (components : List Component) (host id : String) : Prop :=
  ∃ component ∈ components, component.host = host ∧ touches c component.name id

/-- Registering a deployment changes nothing but its places, and leaves no helper on a host where
there was none and no component has the name of the helper. -/
theorem addComponents_leaves (removable : ∀ component ∈ components, Removable component.host w) :
    Confined (places c components) w (w.play (addComponents c components)).2 ∧
    ∀ host, (∀ component ∈ components, component.host = host → component.name ≠ helperName) →
      (w.hosts host).processes.get? (qualified c.group helperName) = none →
      ((w.play (addComponents c components)).2.hosts host).processes.get?
        (qualified c.group helperName) = none := by
  let holds (w' : World) : Prop := Confined (places c components) w w' ∧
    ∀ host, (∀ component ∈ components, component.host = host → component.name ≠ helperName) →
      (w.hosts host).processes.get? (qualified c.group helperName) = none →
      (w'.hosts host).processes.get? (qualified c.group helperName) = none
  show holds (w.play (addComponents c components)).2
  have ended : (w.play (addComponents c components)).2 = (w.play (Plan.forEach
      (components.map fun component => (component.host, componentRequest component))
      fun item => register c item.1 item.2)).2 := congrArg Prod.snd (Plan.run_bind ..)
  rw [ended]
  refine Plan.forEach_keeps (fun item member w' kept => ?_) ⟨.refl _ w, fun _ _ free => free⟩
  obtain ⟨component, listed, rfl⟩ := List.mem_map.mp member
  obtain ⟨confined, absent⟩ := kept
  have removable' := (removable component listed).of_confined confined
  have step := register_confined (c := c) (componentRequest component) removable'.plain
  refine ⟨confined.trans (step.mono ?_), fun host others free => ?_⟩
  · rintro host id ⟨rfl, touched⟩
    exact ⟨component, listed, rfl, touched⟩
  · by_cases here : host = component.host
    · subst here
      exact register_absent removable' (others component listed rfl) (absent _ others free)
    · exact (step.frame host _ fun place => here place.1).trans (absent host others free)

theorem bootOne_after (component : Component) : (w.play (bootOne c component)).2 =
    (w.play ((Operation.start component.name).plan (bindingOf c component))).2 := by
  refine (congrArg Prod.snd
    (Plan.run_bind World.answer ((bindingOf c component).start component.name) _ w)).trans ?_
  split <;> rfl

/-- Starting a deployment changes nothing but its places, and brings no process into a table. -/
theorem bootComponents_leaves (removable : ∀ component ∈ components, Removable component.host w) :
    Confined (places c components) w (w.play (bootComponents c components)).2 ∧
    ∀ host id, (w.hosts host).processes.get? id = none →
      ((w.play (bootComponents c components)).2.hosts host).processes.get? id = none := by
  let holds (w' : World) : Prop := Confined (places c components) w w' ∧
    ∀ host id, (w.hosts host).processes.get? id = none → (w'.hosts host).processes.get? id = none
  show holds (w.play (bootComponents c components)).2
  have ended : (w.play (bootComponents c components)).2 =
      (w.play (Plan.forEach components (bootOne c))).2 := congrArg Prod.snd (Plan.run_bind ..)
  rw [ended]
  refine Plan.forEach_keeps (fun component listed w' kept => ?_) ⟨.refl _ w, fun _ _ free => free⟩
  obtain ⟨confined, absent⟩ := kept
  have plain := ((removable component listed).of_confined confined).plain
  show holds (w'.play (bootOne c component)).2
  rw [bootOne_after]
  constructor
  · refine confined.trans ((confined_of_concerns (concerns_operation _) plain).mono ?_)
    rintro host id ⟨rfl, rfl⟩
    exact ⟨component, listed, rfl, .inl rfl⟩
  · intro host id free
    exact operation_absent (.start component.name) nofun plain (absent host id free)

/-- Removing a deployment changes nothing but its places, brings no process into a table and takes
out those of the components. -/
theorem removeComponents_leaves (removable : ∀ component ∈ components, Removable component.host w) :
    Confined (places c components) w (w.play (removeComponents c components [])).2 ∧
    (∀ host id, (w.hosts host).processes.get? id = none →
      ((w.play (removeComponents c components [])).2.hosts host).processes.get? id = none) ∧
    ∀ component ∈ components, ((w.play (removeComponents c components [])).2.hosts
      component.host).processes.get? (qualified c.group component.name) = none := by
  let holds (w' : World) : Prop := Confined (places c components) w w' ∧
    ∀ host id, (w.hosts host).processes.get? id = none → (w'.hosts host).processes.get? id = none
  have kept : holds (w.play (removeComponents c components [])).2 := by
    rw [removeComponents_removals]
    refine Plan.forEach_keeps (fun target member w' kept => ?_) ⟨.refl _ w, fun _ _ free => free⟩
    obtain ⟨component, listed, member⟩ := List.mem_flatMap.mp member
    obtain rfl : target = (component.host, component.name) := List.mem_singleton.mp member
    obtain ⟨confined, absent⟩ := kept
    have plain := ((removable component listed).of_confined confined).plain
    show holds (w'.play ((Operation.remove component.name).plan (bindingOf c component))).2
    constructor
    · refine confined.trans ((confined_of_concerns (concerns_operation _) plain).mono ?_)
      rintro host id ⟨rfl, rfl⟩
      exact ⟨component, listed, rfl, .inl rfl⟩
    · intro host id free
      exact operation_absent (.remove component.name) nofun plain (absent host id free)
  refine ⟨kept.1, kept.2, fun component listed => ?_⟩
  have plain := fun other listed => (removable other listed).plain
  exact removeComponents_gone plain listed (removable component listed).stops
    (removable component listed).removes (.head _)

/-! ### A whole deployment -/

/-- On the host of a component there is room for its process and for the helper, and processes
that are registered there can be removed. -/
structure Vacant (c : Config) (component : Component) (w : World) : Prop where
  plain : w.Unprepared component.host
  reached : (w.hosts component.host).unreachable = false
  stops : .stop ∉ (w.hosts component.host).failing
  removes : .remove ∉ (w.hosts component.host).failing
  free : (w.hosts component.host).processes.get? (qualified c.group component.name) = none
  helperFree : (w.hosts component.host).processes.get? (qualified c.group helperName) = none

theorem Vacant.removable {component : Component} (vacant : Vacant c component w) :
    Removable component.host w where
  plain := vacant.plain
  stops := Host.injected?_eq_none_iff.mpr ⟨vacant.reached, vacant.stops⟩
  removes := Host.injected?_eq_none_iff.mpr ⟨vacant.reached, vacant.removes⟩

/-- A supervisor with the same set-up and the same table differs in the last process id only. -/
theorem eq_of_setup {h h' : Host} (setup : h'.setup = h.setup) (same : h'.processes = h.processes) :
    h' = { h with lastPid := h'.lastPid } := by
  show { h'.setup with processes := h'.processes, lastPid := h'.lastPid } =
    { h.setup with processes := h.processes, lastPid := h'.lastPid }
  rw [setup, same]

/-- The world after a deployment was registered, then started, and then removed. -/
def tornDown (c : Config) (components : List Component) (w : World) : World :=
  let added := (w.play (addComponents c components)).2
  let booted := (added.play (bootComponents c components)).2
  (booted.play (removeComponents c components [])).2

/-- Whatever the components are, on however many hosts, and however the helper behaves: a
deployment that is registered, started and removed where there was room for it leaves every
supervisor as it was but for the last process id, so every table of processes is the same in all
its records. -/
theorem teardown_restores (c : Config) (components : List Component) (w : World)
    (vacant : ∀ component ∈ components, Vacant c component w) (host : String) :
    (tornDown c components w).hosts host =
      { w.hosts host with lastPid := ((tornDown c components w).hosts host).lastPid } := by
  have removable := fun component listed => (vacant component listed).removable
  obtain ⟨adding, unhelped⟩ := addComponents_leaves (c := c) removable
  obtain ⟨booting, unbooted⟩ := bootComponents_leaves (c := c) fun component listed =>
    (removable component listed).of_confined adding
  obtain ⟨removing, unmoved, gone⟩ := removeComponents_leaves (c := c) fun component listed =>
    (removable component listed).of_confined (adding.trans booting)
  have whole : Confined (places c components) w (tornDown c components w) :=
    (adding.trans booting).trans removing
  refine eq_of_setup (whole.setup host) (Table.ext fun id => ?_)
  by_cases place : places c components host id
  · -- In the places of the deployment there was nothing, and there is nothing now.
    obtain ⟨component, listed, rfl, rfl | rfl⟩ := place
    · exact (gone component listed).trans (vacant component listed).free.symm
    · by_cases named : ∃ other ∈ components, other.host = component.host ∧ other.name = helperName
      · obtain ⟨other, listed', here, name⟩ := named
        have taken := gone other listed'
        rw [here, name] at taken
        exact taken.trans (vacant component listed).helperFree.symm
      · have others : ∀ other ∈ components, other.host = component.host →
            other.name ≠ helperName := fun other listed' here name =>
          named ⟨other, listed', here, name⟩
        have free := unhelped component.host others (vacant component listed).helperFree
        have still := unmoved _ _ (unbooted _ _ free)
        exact still.trans (vacant component listed).helperFree.symm
  · exact whole.frame host id place

/-! ### Two hosts -/

/-- A component without modules. -/
def component (name host : String) : Component :=
  ⟨name, host, 5555, .default, [], .empty⟩

/-- A component that is listed twice, beside a process that stays, and one that has the name of
the helper on a host where helpers hang. -/
theorem teardown_restores_twice :
    let w := ((World.fresh "20260101120000").onHost "np04" fun h =>
      h.insertRunning "daq" "monitor" "bin/monitor").onHost "np05" fun h =>
        { h with helperHangs := true }
    let components :=
      [component "trigger" "np04", component "trigger" "np04", component "printenv" "np05"]
    (∀ component ∈ components, Vacant operator component w) ∧
      ∀ host, (tornDown operator components w).hosts host =
        { w.hosts host with lastPid := ((tornDown operator components w).hosts host).lastPid } := by
  intro w components
  have vacant : ∀ component ∈ components, Vacant operator component w := by
    have first : Vacant operator (component "trigger" "np04") w :=
      ⟨fun _ => rfl, rfl, by decide, by decide, by decide +kernel, by decide +kernel⟩
    have last : Vacant operator (component "printenv" "np05") w :=
      ⟨fun _ => rfl, rfl, by decide, by decide, rfl, rfl⟩
    intro component listed
    simp only [components, List.mem_cons, List.not_mem_nil, or_false] at listed
    rcases listed with rfl | rfl | rfl
    · exact first
    · exact first
    · exact last
  exact ⟨vacant, teardown_restores operator components w vacant⟩

end RunControl.Controller

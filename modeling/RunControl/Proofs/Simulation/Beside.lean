import RunControl.Proofs.Simulation.Site
import RunControl.Simulation.Clock

/-!
Two worlds side by side that agree but for one host.

A request elsewhere gets the same answer in both worlds (`answer_beside`), and a request there
changes nothing elsewhere (`answer_own`), so a plan that stays at some host keeps the worlds side by
side, whichever host it is (`staying_beside`), and so do batches of such plans.
-/

namespace RunControl

/-- Whether a request goes to no host, or to another one. -/
def Request.Avoids (host : String) : Request → Prop
  | .order other _ | .command other .. => other ≠ host
  | .now | .pause _ => True

theorem Request.StaysAt.avoids {host other : String} (away : other ≠ host) {r : Request}
    (stays : r.StaysAt other) : r.Avoids host := by
  cases r with
  | order here o =>
      obtain rfl : here = other := stays
      exact away
  | pause milliseconds => trivial
  | command _ _ _ _ => cases stays
  | now => trivial

namespace Simulation

variable {clock : Clock} {host other : String} {s t u : Timed}

/-! ### Worlds side by side -/

/-- Two worlds that agree in all that belongs to other hosts than one, in the endpoints of
components, and in how often the clock was read. -/
structure Beside (host : String) (s t : Timed) : Prop where
  sites : ∀ other, other ≠ host → s.world.site other = t.world.site other
  endpoints : s.world.endpoints = t.world.endpoints
  readings : s.readings = t.readings

theorem Beside.refl (host : String) (s : Timed) : Beside host s s :=
  ⟨fun _ _ => rfl, rfl, rfl⟩

theorem Beside.symm (beside : Beside host s t) : Beside host t s where
  sites other away := (beside.sites other away).symm
  endpoints := beside.endpoints.symm
  readings := beside.readings.symm

theorem Beside.trans (first : Beside host s t) (second : Beside host t u) : Beside host s u where
  sites other away := (first.sites other away).trans (second.sites other away)
  endpoints := first.endpoints.trans second.endpoints
  readings := first.readings.trans second.readings

/-- Orders change no endpoint. -/
theorem endpoints_answerOrder (w : World) (host : String) (o : Order) :
    (w.answerOrder host o).2.endpoints = w.endpoints := by
  unfold World.answerOrder World.takePrepared
  dsimp only
  split <;> split <;> rfl

/-- A command is answered from the answers that are prepared for its host and from the endpoint,
and uses up one prepared answer. -/
theorem answerCommand_congr {w v : World} (port : UInt16) (command : String) (args : List String)
    (prepared : w.prepared host .call = v.prepared host .call)
    (endpoints : w.endpoints = v.endpoints) :
    (w.answerCommand host port command args).1 = (v.answerCommand host port command args).1 ∧
      (w.answerCommand host port command args).2.endpoints =
        (v.answerCommand host port command args).2.endpoints := by
  have first (w : World) : ((w.record (.command host port command args)).takePrepared host .call).1 =
      (w.prepared host .call).headD .pass := World.takePrepared_fst
  have kept (w : World) : ((w.record (.command host port command args)).takePrepared host
      .call).2.endpoints = w.endpoints := by
    unfold World.takePrepared
    split <;> rfl
  unfold World.answerCommand
  dsimp only
  rw [first, first, kept, kept, prepared, endpoints]
  split
  · exact ⟨rfl, by rw [kept, kept, endpoints]⟩
  · split
    · exact ⟨rfl, by rw [kept, kept, endpoints]⟩
    · refine ⟨rfl, ?_⟩
      simp only [World.setEndpoint, kept, endpoints]

theorem site_answerCommand (w : World) (host : String) (port : UInt16) (command : String)
    (args : List String) (other : String) :
    (w.answerCommand host port command args).2.site other =
      ((w.record (.command host port command args)).takePrepared host .call).2.site other := by
  unfold World.answerCommand
  dsimp only
  split
  · rfl
  · split <;> rfl

theorem site_record_command (w : World) (host : String) (port : UInt16) (command : String)
    (args : List String) (other : String) :
    (w.record (.command host port command args)).site other = w.site other := by
  simp [World.site, World.callsTo, World.record, Request.isOrderTo]

/-- A request that is not made at the one host gets the same answer in both worlds, and keeps them
side by side. -/
theorem answer_beside (clock : Clock) {r : Request} (avoids : r.Avoids host) (beside : Beside host s t) :
    (Timed.answer clock r s).1 = (Timed.answer clock r t).1 ∧
      Beside host (Timed.answer clock r s).2 (Timed.answer clock r t).2 := by
  cases r with
  | order here o =>
      have same := beside.sites here avoids
      obtain ⟨reply, after⟩ := World.site_answerOrder s.world here o
      obtain ⟨reply', after'⟩ := World.site_answerOrder t.world here o
      rw [← same] at reply' after'
      refine ⟨reply.trans reply'.symm, ?_, ?_, beside.readings⟩
      · intro other away
        by_cases own : other = here
        · exact own ▸ after.trans after'.symm
        · exact (World.site_answerOrder_away own).trans
            ((beside.sites other away).trans (World.site_answerOrder_away own).symm)
      · exact (endpoints_answerOrder ..).trans
          (beside.endpoints.trans (endpoints_answerOrder ..).symm)
  | command here port command args =>
      have prepared := congrArg (fun site => site.prepared .call) (beside.sites here avoids)
      obtain ⟨reply, endpoints⟩ := answerCommand_congr port command args prepared beside.endpoints
      refine ⟨reply, ?_, endpoints, beside.readings⟩
      intro other away
      show (s.world.answerCommand here port command args).2.site other =
        (t.world.answerCommand here port command args).2.site other
      rw [site_answerCommand, site_answerCommand]
      by_cases own : other = here
      · subst own
        rw [World.site_takePrepared, World.site_takePrepared, site_record_command,
          site_record_command, beside.sites other away]
        simp only [World.record]
        congr 1
        funext m
        rw [show s.world.prepared other = t.world.prepared other from
          congrArg Site.prepared (beside.sites other away)]
      · rw [World.site_takePrepared_away own, World.site_takePrepared_away own,
          site_record_command, site_record_command, beside.sites other away]
  | now =>
      refine ⟨congrArg clock beside.readings, beside.sites, beside.endpoints, ?_⟩
      exact congrArg (· + 1) beside.readings
  | pause milliseconds => exact ⟨rfl, beside.sites, beside.endpoints, beside.readings⟩

/-- A request that stays at the one host changes nothing elsewhere. -/
theorem answer_own {r : Request} (stays : r.StaysAt host) (s : Timed) :
    Beside host s (Timed.answer clock r s).2 := by
  cases r with
  | order here o =>
      obtain rfl : here = host := stays
      exact ⟨fun other away => (World.site_answerOrder_away away).symm,
        (endpoints_answerOrder s.world here o).symm, rfl⟩
  | pause milliseconds => exact ⟨fun _ _ => rfl, rfl, rfl⟩
  | command _ _ _ _ => cases stays
  | now => cases stays

/-! ### Plans side by side -/

variable {α β : Type} {p : Plan α}

/-- A plan that asks for nothing at the one host goes in the same way in both worlds. -/
theorem avoiding_beside (clock : Clock) (only : p.Only (Request.Avoids host))
    (beside : Beside host s t) :
    (p.run (Timed.answer clock) s).1 = (p.run (Timed.answer clock) t).1 ∧
      Beside host (p.run (Timed.answer clock) s).2 (p.run (Timed.answer clock) t).2 := by
  induction p generalizing s t with
  | done a => exact ⟨rfl, beside⟩
  | ask r next ih =>
      obtain ⟨reply, after⟩ := answer_beside clock (only.first (Timed.answer clock) s) beside
      simp only [Plan.run]
      rw [← reply]
      exact ih _ (only.next _) after

/-- A plan that stays at the one host changes nothing elsewhere. -/
theorem staying_own (only : p.Only (Request.StaysAt host)) (s : Timed) :
    Beside host s (p.run (Timed.answer clock) s).2 :=
  only.keeps (Beside host s) (fun _ t stays beside => beside.trans (answer_own stays t))
    (.refl host s)

/-- A plan that stays at some host keeps two worlds side by side, and at another host than the one
it has the same result in both. -/
theorem staying_beside (clock : Clock) (only : p.Only (Request.StaysAt other))
    (beside : Beside host s t) :
    (other ≠ host → (p.run (Timed.answer clock) s).1 = (p.run (Timed.answer clock) t).1) ∧
      Beside host (p.run (Timed.answer clock) s).2 (p.run (Timed.answer clock) t).2 := by
  by_cases here : other = host
  · subst here
    refine ⟨absurd rfl, ?_⟩
    exact ((staying_own only s).symm.trans beside).trans (staying_own only t)
  · have avoids : p.Only (Request.Avoids host) := only.mono fun r stays => stays.avoids here
    obtain ⟨same, after⟩ := avoiding_beside clock avoids beside
    exact ⟨fun _ => same, after⟩

/-- A batch whose items keep two worlds side by side does so too, and what is to be the same of the
results of items is the same of those of the batch. -/
theorem forEach_beside {γ : Type} (clock : Clock) (items : List α) (plan : α → Plan β) (seen : β → γ)
    (each : ∀ a ∈ items, ∀ s t, Beside host s t →
      seen ((plan a).run (Timed.answer clock) s).1 = seen ((plan a).run (Timed.answer clock) t).1 ∧
        Beside host ((plan a).run (Timed.answer clock) s).2 ((plan a).run (Timed.answer clock) t).2)
    (beside : Beside host s t) :
    ((Plan.forEach items plan).run (Timed.answer clock) s).1.map seen =
        ((Plan.forEach items plan).run (Timed.answer clock) t).1.map seen ∧
      Beside host ((Plan.forEach items plan).run (Timed.answer clock) s).2
        ((Plan.forEach items plan).run (Timed.answer clock) t).2 := by
  induction items generalizing s t with
  | nil => exact ⟨rfl, beside⟩
  | cons a items ih =>
      obtain ⟨head, between⟩ := each a (.head _) s t beside
      obtain ⟨tail, after⟩ := ih (fun a' member => each a' (.tail _ member)) between
      simp only [Plan.forEach, Plan.run_bind, Plan.run, List.map_cons]
      exact ⟨by rw [head, tail], after⟩

end Simulation

end RunControl

import RunControl.Proofs.Rpc.Locality
import RunControl.Simulation.World

/-!
The part of a world that belongs to one host.

A host has its supervisor, the answers that are prepared for it, and the calls that it got.
An order to it is answered from these (`site_answerOrder`), so the hosts of a world are kept
apart (`World.separate`).
-/

namespace RunControl

/-- Whether a request is an order to the supervisor of a host. -/
def Request.isOrderTo (host : String) : Request → Bool
  | .order other _ => other = host
  | .command .. | .now | .pause _ => false

namespace Simulation

/-- What belongs to a host. -/
structure Site where
  supervisor : Host
  prepared : Method → List Prepared
  /-- The orders that were sent to it. -/
  calls : List Request

/-- The answer of a host to an order. -/
def Site.answer (host : String) (o : Order) (s : Site) : Except RpcError o.Reply × Site :=
  let waiting := s.prepared (.ofOrder o)
  let prepared := fun m => if m = .ofOrder o then waiting.tail else s.prepared m
  let calls := s.calls ++ [.order host o]
  match (waiting.headD .pass).toOrder? o with
  | some reply => (reply, ⟨s.supervisor, prepared, calls⟩)
  | none => ((s.supervisor.answer o).1, ⟨(s.supervisor.answer o).2, prepared, calls⟩)

namespace World

variable {w : World} {host other : String} {m : Method} {o : Order} {r : Request}

/-- The orders that the supervisor of a host got, in order. -/
def callsTo (w : World) (host : String) : List Request :=
  w.calls.filter (Request.isOrderTo host)

/-- What belongs to a host in a world. -/
def site (host : String) (w : World) : Site :=
  ⟨w.hosts host, w.prepared host, w.callsTo host⟩

/-- Orders to other hosts do not count as calls of a host. -/
theorem site_record_away (away : other ≠ host) :
    (w.record (.order host o)).site other = w.site other := by
  simp [site, callsTo, record, Request.isOrderTo, away.symm]

theorem site_record : (w.record (.order host o)).site host =
    { w.site host with calls := (w.site host).calls ++ [.order host o] } := by
  simp [site, callsTo, record, Request.isOrderTo]

theorem site_setHost_away {h : Host} (away : other ≠ host) :
    (w.setHost host h).site other = w.site other := by
  simp [site, callsTo, setHost, away]

theorem site_setHost {h : Host} :
    (w.setHost host h).site host = { w.site host with supervisor := h } := by
  simp [site, callsTo, setHost]

theorem takePrepared_fst : (w.takePrepared host m).1 = (w.prepared host m).headD .pass := by
  unfold takePrepared
  split <;> rename_i waiting <;> rw [waiting] <;> rfl

theorem site_takePrepared_away (away : other ≠ host) :
    (w.takePrepared host m).2.site other = w.site other := by
  unfold takePrepared
  split
  · rfl
  · simp [site, callsTo, setPrepared, away]

theorem site_takePrepared (w : World) (host : String) (m : Method) :
    (w.takePrepared host m).2.site host = { w.site host with
      prepared := fun n => if n = m then (w.prepared host m).tail else w.prepared host n } := by
  unfold takePrepared
  split
  · rename_i waiting
    have same : (fun n => if n = m then ([] : List Prepared).tail else w.prepared host n) =
        w.prepared host := by
      funext n
      split
      · rename_i here
        rw [here, waiting]
        rfl
      · rfl
    rw [waiting, same]
    rfl
  · rename_i waiting
    rw [waiting]
    simp [site, callsTo, setPrepared]

/-- A host answers orders from what belongs to it. -/
theorem site_answerOrder (w : World) (host : String) (o : Order) :
    (w.answerOrder host o).1 = ((w.site host).answer host o).1 ∧
      (w.answerOrder host o).2.site host = ((w.site host).answer host o).2 := by
  have first : ((w.record (.order host o)).takePrepared host (.ofOrder o)).1 =
      ((w.site host).prepared (.ofOrder o)).headD .pass := takePrepared_fst
  have taken := site_takePrepared (w.record (.order host o)) host (.ofOrder o)
  rw [site_record] at taken
  have supervisor := congrArg Site.supervisor taken
  unfold answerOrder Site.answer
  dsimp only
  rw [first]
  cases (((w.site host).prepared (.ofOrder o)).headD .pass).toOrder? o with
  | some reply => exact ⟨rfl, taken⟩
  | none =>
      dsimp only
      rw [site_setHost, taken]
      have given : ((w.record (.order host o)).takePrepared host (.ofOrder o)).2.hosts host =
          (w.site host).supervisor := supervisor
      rw [given]
      exact ⟨rfl, rfl⟩

/-- An order leaves what belongs to other hosts as it is. -/
theorem site_answerOrder_away (away : other ≠ host) :
    (w.answerOrder host o).2.site other = w.site other := by
  have taken : ((w.record (.order host o)).takePrepared host (.ofOrder o)).2.site other =
      w.site other := by
    rw [site_takePrepared_away away, site_record_away away]
  unfold answerOrder
  dsimp only
  split
  · exact taken
  · rw [site_setHost_away away, taken]

/-- In a world every host has a part of its own. -/
theorem separate : Separate answer site := by
  constructor
  case same =>
    intro host r w v stays same
    cases r with
    | order other o =>
        obtain rfl : other = host := stays
        obtain ⟨reply, site⟩ := site_answerOrder w other o
        obtain ⟨reply', site'⟩ := site_answerOrder v other o
        rw [← same] at reply' site'
        exact ⟨reply.trans reply'.symm, site.trans site'.symm⟩
    | pause milliseconds => exact ⟨rfl, same⟩
    | _ => cases stays
  case away =>
    intro host other r w stays away
    cases r with
    | order here o =>
        obtain rfl : here = host := stays
        exact site_answerOrder_away away
    | pause milliseconds => rfl
    | _ => cases stays

/-- A request that stays at a host is a call of this host if it is an order. -/
theorem callsTo_answer (stays : r.StaysAt host) :
    (answer r w).2.callsTo host = w.callsTo host ++ [r].filter (Request.isOrderTo host) := by
  cases r with
  | order other o =>
      obtain rfl : other = host := stays
      have site := congrArg Site.calls (site_answerOrder w other o).2
      have calls : ((w.site other).answer other o).2.calls = w.callsTo other ++ [.order other o] := by
        unfold Site.answer
        dsimp only
        split <;> rfl
      simp only [Request.isOrderTo, decide_true, List.filter_cons_of_pos, List.filter_nil]
      exact site.trans calls
  | pause milliseconds => simp [answer, callsTo, Request.isOrderTo]
  | _ => cases stays

end World

end Simulation

end RunControl

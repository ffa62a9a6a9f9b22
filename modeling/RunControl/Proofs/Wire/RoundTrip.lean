import RunControl.Proofs.Wire.Field
import RunControl.Wire.Component
import RunControl.Wire.Supervisor

/-!
Messages read back.

Whatever its fields hold, a message of either service is read back from what is written of it. What
is read from bytes of any other form, with overlong numbers, unknown fields, or fields that are
repeated or out of order, is read back as well once it is written (`messages_round_trip`).
-/

namespace RunControl.Wire

open Utf8 (Bytes)

variable {ρ : Type} {m : Message ρ} {need : Nat}

/-- What is wanted of a message. Byte strings have fewer than 2^63 bytes, and a message that was
read from one may be written in twice as many. -/
structure Message.RoundTrips (m : Message ρ) : Prop where
  /-- The length that is computed is the length of what is written. -/
  size : ∀ r, (m.encode r).length < 2 ^ 64 → m.encodedSize r = (m.encode r).length
  /-- What is written of a record is read as this record. -/
  back : ∀ r, (m.encode r).length < 2 ^ 64 → m.decode (m.encode r) = .ok r
  /-- What was read from whatever bytes is read again from what is written of it, and is written
  as before. -/
  stable : ∀ bytes r, bytes.length < 2 ^ 63 → m.decode bytes = .ok r →
    m.decode (m.encode r) = .ok r ∧
      ∀ again, m.decode (m.encode r) = .ok again → m.encode again = m.encode r

/-- What was read from bytes is written in at most twice as many. -/
theorem Layout.length_of_decode {bytes : Bytes} {r : ρ} (layout : Layout need m.blank m.fields)
    (read : m.decode bytes = .ok r) : (m.encode r).length ≤ 2 * bytes.length := by
  obtain ⟨⟨r', rest⟩, merged, same⟩ := bind_eq_ok.mp read
  cases same
  have grown := mergeUntil_growth (fun r => (m.encode r).length)
    (fun _ _ _ _ taken => layout.growth taken) merged
  have silent : (m.encode m.blank).length = 0 := congrArg List.length layout.silent
  omega

/-- Bytes that take a reader from the record of which nothing is written to another are read as
this one. -/
theorem decode_of_takes {bytes : Bytes} {r : ρ}
    (takes : Takes (m.merge depthLimit) m.blank bytes r) : m.decode bytes = .ok r := by
  have taken : Merges (m.merge depthLimit) m.blank (bytes ++ []) r [] := takes []
  rw [List.append_nil] at taken
  have whole : mergeUntil (m.merge depthLimit) 0 bytes.length m.blank bytes = .ok (r, []) :=
    mergeUntil_of_merges taken (Nat.le_refl _)
  unfold Message.decode
  rw [whole, ok_bind]
  rfl

theorem Layout.decode_encode {r : ρ} (layout : Layout need m.blank m.fields)
    (shallow : need ≤ depthLimit) (fits : (m.encode r).length < UInt64.size) :
    m.decode (m.encode r) = .ok r :=
  decode_of_takes (layout.takes shallow fits)

theorem Layout.roundTrips (layout : Layout need m.blank m.fields) (shallow : need ≤ depthLimit) :
    m.RoundTrips where
  size _ fits := layout.size_eq fits
  back _ fits := layout.decode_encode shallow fits
  stable bytes r short read := by
    have twice := layout.length_of_decode read
    have back : m.decode (m.encode r) = .ok r := by
      apply layout.decode_encode shallow
      rw [show UInt64.size = 2 ^ 64 from rfl]
      omega
    refine ⟨back, fun again read => ?_⟩
    rw [back] at read
    cases read
    rfl

/-! ### Layouts

The places of the fields are projections and updates of structures, so what is needed of them holds
by definition. -/

open Payload (bool_lawful int32_lawful int64_lawful uint32_lawful bytes_lawful text_lawful)

theorem ack_layout : Layout 0 ack.blank ack.fields where
  tags := by decide
  silent := rfl
  fills r := by
    refine .single ?_ (bool_lawful 0) rfl <| .nil _ _ r
    all_goals constructor <;> intros <;> first | rfl | decide

theorem addProgram_layout : Layout 1 addProgram.blank addProgram.fields where
  tags := by decide
  silent := rfl
  fills r := by
    refine .single ?_ (text_lawful 1) rfl <| .single ?_ (text_lawful 1) rfl <|
      .table ?_ (text_lawful 0) rfl <| .nil _ _ r
    all_goals constructor <;> intros <;> first | rfl | decide

theorem removeProcess_layout : Layout 0 removeProcess.blank removeProcess.fields where
  tags := by decide
  silent := rfl
  fills r := by
    refine .single ?_ (text_lawful 0) rfl <| .single ?_ (text_lawful 0) rfl <| .nil _ _ r
    all_goals constructor <;> intros <;> first | rfl | decide

theorem processControl_layout : Layout 0 processControl.blank processControl.fields where
  tags := by decide
  silent := rfl
  fills r := by
    refine .single ?_ (text_lawful 0) rfl <| .single ?_ (bool_lawful 0) rfl <| .nil _ _ r
    all_goals constructor <;> intros <;> first | rfl | decide

theorem getProcess_layout : Layout 0 getProcess.blank getProcess.fields where
  tags := by decide
  silent := rfl
  fills r := by
    refine .single ?_ (text_lawful 0) rfl <| .nil _ _ r
    all_goals constructor <;> intros <;> first | rfl | decide

theorem getAllProcesses_layout : Layout 0 getAllProcesses.blank getAllProcesses.fields where
  tags := by decide
  silent := rfl
  fills r := .nil _ _ r

theorem processInfo_layout : Layout 0 processInfo.blank processInfo.fields where
  tags := by decide
  silent := rfl
  fills r := by
    refine .single ?_ (text_lawful 0) rfl <| .single ?_ (text_lawful 0) rfl <|
      .single ?_ (int32_lawful 0) rfl <| .single ?_ (text_lawful 0) rfl <|
      .single ?_ (uint32_lawful 0) rfl <| .single ?_ (int64_lawful 0) rfl <|
      .single ?_ (text_lawful 0) rfl <| .nil _ _ r
    all_goals constructor <;> intros <;> first | rfl | decide

theorem allProcesses_layout : Layout 1 allProcesses.blank allProcesses.fields where
  tags := by decide
  silent := rfl
  fills r := by
    refine .repeated ?_ processInfo_layout.payload_lawful rfl <| .nil _ _ r
    all_goals constructor <;> intros <;> first | rfl | decide

theorem readLog_layout : Layout 0 readLog.blank readLog.fields where
  tags := by decide
  silent := rfl
  fills r := by
    refine .single ?_ (text_lawful 0) rfl <| .single ?_ (int64_lawful 0) rfl <|
      .single ?_ (int64_lawful 0) rfl <| .nil _ _ r
    all_goals constructor <;> intros <;> first | rfl | decide

theorem logData_layout : Layout 0 logData.blank logData.fields where
  tags := by decide
  silent := rfl
  fills r := by
    refine .single ?_ (bytes_lawful 0) rfl <| .nil _ _ r
    all_goals constructor <;> intros <;> first | rfl | decide

theorem clearLogs_layout : Layout 0 clearLogs.blank clearLogs.fields where
  tags := by decide
  silent := rfl
  fills r := by
    refine .single ?_ (text_lawful 0) rfl <| .nil _ _ r
    all_goals constructor <;> intros <;> first | rfl | decide

theorem commandRequest_layout : Layout 0 commandRequest.blank commandRequest.fields where
  tags := by decide
  silent := rfl
  fills r := by
    refine .single ?_ (text_lawful 0) rfl <| .repeated ?_ (text_lawful 0) rfl <| .nil _ _ r
    all_goals constructor <;> intros <;> first | rfl | decide

theorem commandReply_layout : Layout 0 commandReply.blank commandReply.fields where
  tags := by decide
  silent := rfl
  fills r := by
    refine .single ?_ (bytes_lawful 0) rfl <| .nil _ _ r
    all_goals constructor <;> intros <;> first | rfl | decide

theorem moduleResult_layout : Layout 0 moduleResult.blank moduleResult.fields where
  tags := by decide
  silent := rfl
  fills r := by
    refine .single ?_ (text_lawful 0) rfl <| .single ?_ (text_lawful 0) rfl <| .nil _ _ r
    all_goals constructor <;> intros <;> first | rfl | decide

theorem commandResult_layout : Layout 2 commandResult.blank commandResult.fields where
  tags := by decide
  silent := rfl
  fills r := by
    refine .single ?_ (text_lawful 2) rfl <| .single ?_ (text_lawful 2) rfl <|
      .table ?_ moduleResult_layout.payload_lawful rfl <| .nil _ _ r
    all_goals constructor <;> intros <;> first | rfl | decide

/-- Every message of the two services is read back from what is written of it, and computes its own
length. -/
theorem messages_round_trip :
    ack.RoundTrips ∧ addProgram.RoundTrips ∧ removeProcess.RoundTrips ∧
      processControl.RoundTrips ∧ getProcess.RoundTrips ∧ getAllProcesses.RoundTrips ∧
      processInfo.RoundTrips ∧ allProcesses.RoundTrips ∧ readLog.RoundTrips ∧
      logData.RoundTrips ∧ clearLogs.RoundTrips ∧ commandRequest.RoundTrips ∧
      commandReply.RoundTrips ∧ moduleResult.RoundTrips ∧ commandResult.RoundTrips :=
  ⟨ack_layout.roundTrips (by decide), addProgram_layout.roundTrips (by decide),
    removeProcess_layout.roundTrips (by decide), processControl_layout.roundTrips (by decide),
    getProcess_layout.roundTrips (by decide), getAllProcesses_layout.roundTrips (by decide),
    processInfo_layout.roundTrips (by decide), allProcesses_layout.roundTrips (by decide),
    readLog_layout.roundTrips (by decide), logData_layout.roundTrips (by decide),
    clearLogs_layout.roundTrips (by decide), commandRequest_layout.roundTrips (by decide),
    commandReply_layout.roundTrips (by decide), moduleResult_layout.roundTrips (by decide),
    commandResult_layout.roundTrips (by decide)⟩

/-- A name that is given twice, behind a number with an idle byte and before a field that is not
known. -/
example : readLog.decode [16, 129, 0, 10, 1, 97, 10, 1, 98, 32, 5] = .ok ⟨"b", 1, 0⟩ ∧
    readLog.encode ⟨"b", 1, 0⟩ = [10, 1, 98, 16, 1] := by
  decide +kernel

end RunControl.Wire

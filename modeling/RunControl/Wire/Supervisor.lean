import RunControl.Wire.Message

/-!
The messages and methods of the supervisor's service.
-/

namespace RunControl

/-- A supervisor's record of a process. -/
structure ProcessInfo where
  name : String
  group : String
  /-- The state code; see `StateCode`. -/
  state : Int32
  stateName : String
  pid : UInt32
  /-- The time of the last start, 0 if there was none. -/
  start : Int64
  description : String
  deriving DecidableEq, Repr

namespace Wire

open Utf8 (Bytes)

structure Ack where
  ok : Bool
  deriving DecidableEq, Repr

structure AddProgram where
  group : String
  name : String
  settings : Table String
  deriving DecidableEq, Repr

structure RemoveProcess where
  group : String
  name : String
  deriving DecidableEq, Repr

/-- The name is the identifier `group:name`. -/
structure ProcessControl where
  name : String
  wait : Bool
  deriving DecidableEq, Repr

structure GetProcess where
  name : String
  deriving DecidableEq, Repr

structure GetAllProcesses where
  deriving DecidableEq, Repr

structure AllProcesses where
  processes : List ProcessInfo
  deriving DecidableEq, Repr

structure ReadLog where
  name : String
  offset : Int64
  length : Int64
  deriving DecidableEq, Repr

structure LogData where
  data : Bytes
  deriving DecidableEq, Repr

structure ClearLogs where
  name : String
  deriving DecidableEq, Repr

/-! ### Layouts -/

def ack : Message Ack :=
  ⟨"Ack", ⟨false⟩, [.single 1 "ok" .bool Ack.ok fun r v => { r with ok := v }]⟩

def addProgram : Message AddProgram :=
  ⟨"AddProgramToGroupRequest", ⟨"", "", .empty⟩,
    [.single 1 "group" .text AddProgram.group fun r v => { r with group := v },
      .single 2 "name" .text AddProgram.name fun r v => { r with name := v },
      .table 3 "settings" .text AddProgram.settings fun r v => { r with settings := v }]⟩

def removeProcess : Message RemoveProcess :=
  ⟨"RemoveProcessFromGroupRequest", ⟨"", ""⟩,
    [.single 1 "group" .text RemoveProcess.group fun r v => { r with group := v },
      .single 2 "name" .text RemoveProcess.name fun r v => { r with name := v }]⟩

def processControl : Message ProcessControl :=
  ⟨"ProcessControlRequest", ⟨"", false⟩,
    [.single 1 "name" .text ProcessControl.name fun r v => { r with name := v },
      .single 2 "wait" .bool ProcessControl.wait fun r v => { r with wait := v }]⟩

def getProcess : Message GetProcess :=
  ⟨"GetProcessInfoRequest", ⟨""⟩,
    [.single 1 "name" .text GetProcess.name fun r v => { r with name := v }]⟩

def getAllProcesses : Message GetAllProcesses :=
  ⟨"GetAllProcessInfoRequest", ⟨⟩, []⟩

def processInfo : Message ProcessInfo :=
  ⟨"ProcessInfo", ⟨"", "", 0, "", 0, 0, ""⟩,
    [.single 1 "name" .text ProcessInfo.name fun r v => { r with name := v },
      .single 2 "group" .text ProcessInfo.group fun r v => { r with group := v },
      .single 3 "state" .int32 ProcessInfo.state fun r v => { r with state := v },
      .single 4 "statename" .text ProcessInfo.stateName fun r v => { r with stateName := v },
      .single 5 "pid" .uint32 ProcessInfo.pid fun r v => { r with pid := v },
      .single 6 "start" .int64 ProcessInfo.start fun r v => { r with start := v },
      .single 7 "description" .text ProcessInfo.description fun r v => { r with description := v }]⟩

def allProcesses : Message AllProcesses :=
  ⟨"GetAllProcessInfoResponse", ⟨[]⟩,
    [.repeated 1 "processes" processInfo.payload AllProcesses.processes
      fun r v => { r with processes := v }]⟩

def readLog : Message ReadLog :=
  ⟨"ReadProcessLogRequest", ⟨"", 0, 0⟩,
    [.single 1 "name" .text ReadLog.name fun r v => { r with name := v },
      .single 2 "offset" .int64 ReadLog.offset fun r v => { r with offset := v },
      .single 3 "length" .int64 ReadLog.length fun r v => { r with length := v }]⟩

def logData : Message LogData :=
  ⟨"ReadProcessLogResponse", ⟨[]⟩,
    [.single 1 "data" .bytes LogData.data fun r v => { r with data := v }]⟩

def clearLogs : Message ClearLogs :=
  ⟨"ClearProcessLogsRequest", ⟨""⟩,
    [.single 1 "name" .text ClearLogs.name fun r v => { r with name := v }]⟩

/-! ### Methods -/

/-- The path of a method of the supervisor's service. -/
def supervisorPath (method : String) : String :=
  "/daq.supervisor.v1.Supervisor/" ++ method

end Wire

end RunControl

/-!
Why a call fails.

A call fails because its endpoint cannot be reached, because the endpoint refuses, or
because time, a reply or a request is lost on this side. `RpcError.ofStatus` sorts the
status codes of the transport into these causes.
-/

namespace RunControl

/-- How a reachable endpoint refuses a request. -/
inductive FaultKind where
  /-- There is no such process. -/
  | badName
  /-- The process to be stopped does not run. -/
  | notRunning
  /-- The process to be started runs already. -/
  | alreadyStarted
  | rejected
  deriving DecidableEq, Repr

/-- The name of a fault kind in messages. -/
def FaultKind.name : FaultKind → String
  | .badName => "BadName"
  | .notRunning => "NotRunning"
  | .alreadyStarted => "AlreadyStarted"
  | .rejected => "Rejected"

/-- The failure of a call. -/
inductive RpcError where
  /-- The endpoint was not reached, or the time for the call ran out. -/
  | unavailable (endpoint : String) (message : String)
  /-- The endpoint was reached and refuses. -/
  | fault (kind : FaultKind) (message : String)
  /-- Something that was waited for did not happen in time. -/
  | timeout (what : String)
  /-- The reply makes no sense. -/
  | malformedReply (message : String)
  /-- The request could not be built, and nothing was sent. -/
  | unencodable (message : String)
  deriving DecidableEq, Repr

namespace RpcError

/-- The text of a failure. -/
def message : RpcError → String
  | .unavailable endpoint m => "transport unavailable (" ++ endpoint ++ "): " ++ m
  | .fault kind m => "remote fault (" ++ kind.name ++ "): " ++ m
  | .timeout what => "timed out waiting for " ++ what
  | .malformedReply m => "malformed reply: " ++ m
  | .unencodable m => "cannot encode request: " ++ m

/-- Whether the same call may succeed later. -/
def isRetryable : RpcError → Bool
  | .unavailable .. => true
  | _ => false

/-- Whether the endpoint knows no such process. -/
def isBadName : RpcError → Bool
  | .fault .badName _ => true
  | _ => false

/-- Whether the process to be stopped does not run. -/
def isNotRunning : RpcError → Bool
  | .fault .notRunning _ => true
  | _ => false

end RpcError

/-! ### Status codes -/

/-- The codes of the transport's statuses. -/
inductive StatusCode where
  | ok
  | cancelled
  | unknown
  | invalidArgument
  | deadlineExceeded
  | notFound
  | alreadyExists
  | permissionDenied
  | resourceExhausted
  | failedPrecondition
  | aborted
  | outOfRange
  | unimplemented
  | internal
  | unavailable
  | dataLoss
  | unauthenticated
  deriving DecidableEq, Repr

/-- The code with a number; numbers without a code count as unknown. -/
def StatusCode.ofNumber : Int → StatusCode
  | 0 => .ok
  | 1 => .cancelled
  | 3 => .invalidArgument
  | 4 => .deadlineExceeded
  | 5 => .notFound
  | 6 => .alreadyExists
  | 7 => .permissionDenied
  | 8 => .resourceExhausted
  | 9 => .failedPrecondition
  | 10 => .aborted
  | 11 => .outOfRange
  | 12 => .unimplemented
  | 13 => .internal
  | 14 => .unavailable
  | 15 => .dataLoss
  | 16 => .unauthenticated
  | _ => .unknown

/-- The failure of a call that ended with a status. -/
def RpcError.ofStatus (endpoint : String) (code : StatusCode) (message : String) : RpcError :=
  match code with
  | .unavailable | .deadlineExceeded | .cancelled => .unavailable endpoint message
  | .notFound => .fault .badName message
  | .failedPrecondition => .fault .notRunning message
  | .alreadyExists => .fault .alreadyStarted message
  | _ => .fault .rejected message

end RunControl

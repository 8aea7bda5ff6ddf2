import Overseer.Worker.SuspendReason

/-!
What a worker reports about itself.

`RunStatus` is all that a minimal read asks for; a full read gathers the other reports as well into
one `FullRead`, which is published as a whole.
-/

namespace Overseer

/-- Whether the worker computes and transfers, and in which modes it was told to. -/
structure RunStatus where
  taskSuspendReason : SuspendReason
  networkSuspendReason : SuspendReason
  taskMode : Int32
  networkMode : Int32
deriving DecidableEq, Repr

/-- A unit of work that is processed or queued. -/
structure Task where
  name : String
  projectUrl : String
  fractionDone : Float
  active : Bool
deriving BEq, Repr

structure Project where
  masterUrl : String
  name : String
  suspendedByUser : Bool
deriving DecidableEq, Repr

structure Transfer where
  name : String
  projectUrl : String
  isUpload : Bool
  bytesTransferred : UInt64
  totalBytes : UInt64
deriving DecidableEq, Repr

/-- The host as the worker sees it. -/
structure HostInfo where
  domainName : String
  osName : String
  osVersion : String
  productName : String
  cpuCount : UInt32
deriving DecidableEq, Repr

/-- Tasks, projects and host. The host is absent when the worker could not determine it. -/
structure StateReport where
  tasks : List Task
  projects : List Project
  host : Option HostInfo
deriving BEq, Repr

structure AccountManager where
  name : String
  url : String
  present : Bool
deriving DecidableEq, Repr

/-- A message from the worker or from a project's feed. -/
structure Notice where
  seqno : UInt64
  title : String
  description : String
  createTime : Float
  isFeed : Bool
deriving BEq, Repr

/-- The worker's own rules on when to compute. -/
structure Preferences where
  runOnBatteries : Bool
  runIfUserActive : Bool
  batteryChargeMinPct : Float
  batteryMaxTemperature : Float
  maxCpusPct : Float
  networkWifiOnly : Bool
deriving BEq, Repr

/-- The reports of one full read, with the notices received so far in order of arrival. -/
structure FullRead where
  status : RunStatus
  tasks : List Task
  projects : List Project
  transfers : List Transfer
  host : HostInfo
  accountManager : AccountManager
  notices : List Notice
deriving BEq, Repr

/-- Where the next request for notices goes on: the number of the last one held, 0 without any. -/
def FullRead.latestSeqno (read : FullRead) : UInt64 :=
  match read.notices.getLast? with
  | none => 0
  | some notice => notice.seqno

/-- How many notices are kept. -/
def maxNotices : Nat := 256

/-- The held notices followed by those that arrived, without the oldest beyond `maxNotices`. -/
def appendNotices (held arrived : List Notice) : List Notice :=
  if arrived.isEmpty then held
  else (held ++ arrived).drop (held.length + arrived.length - maxNotices)

end Overseer

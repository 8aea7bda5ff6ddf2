import Overseer.Json.Reader
import Overseer.Json.Writer
import Overseer.Wire.Report

/-!
Requests to a worker and its responses.

Each kind of request has one kind of response as its answer (`Request.Reply`, `Request.accept?`); a
worker may also answer with an error, or with the response to something else. A message is read as a
whole before it is looked at, so every value in it, also one that is passed over, must be
well-formed.
-/

namespace Overseer

open Json (Value)

inductive Request where
  | authenticate (token : String)
  | quit
  | getStatus
  | getState
  | getTransfers
  | getAccountManager
  | getNotices (since : UInt64)
  | getPreferences
  | reportDevice (device : DeviceStatus)
  | setHostInfo (model osVersion : String)
deriving BEq, Repr

inductive Response where
  | ok
  | error (message : String)
  | status (status : RunStatus)
  | state (state : StateReport)
  | transfers (transfers : List Transfer)
  | accountManager (info : AccountManager)
  | notices (notices : List Notice)
  | preferences (preferences : Preferences)
deriving BEq, Repr

namespace Request

/-- The tag of a request. -/
def tag : Request → String
  | authenticate _ => "authenticate"
  | quit => "quit"
  | getStatus => "get_status"
  | getState => "get_state"
  | getTransfers => "get_transfers"
  | getAccountManager => "get_acct_mgr_info"
  | getNotices _ => "get_notices"
  | getPreferences => "get_preferences"
  | reportDevice _ => "report_device_status"
  | setHostInfo _ _ => "set_host_info"

/-- What a request is answered with when all goes well. -/
@[reducible] def Reply : Request → Type
  | getStatus => RunStatus
  | getState => StateReport
  | getTransfers => List Transfer
  | getAccountManager => AccountManager
  | getNotices _ => List Notice
  | getPreferences => Preferences
  | _ => Unit

/-- The reply in the response that a request asks for; `none` in any other response. -/
def accept? : (request : Request) → Response → Option request.Reply
  | authenticate _, .ok => some ()
  | quit, .ok => some ()
  | reportDevice _, .ok => some ()
  | setHostInfo _ _, .ok => some ()
  | getStatus, .status status => some status
  | getState, .state state => some state
  | getTransfers, .transfers transfers => some transfers
  | getAccountManager, .accountManager info => some info
  | getNotices _, .notices notices => some notices
  | getPreferences, .preferences preferences => some preferences
  | _, _ => none

/-- A reply as JSON; null where it says nothing but that all went well. -/
def replyToJson : (request : Request) → request.Reply → Value
  | getStatus, status => status.toJson
  | getState, state => state.toJson
  | getTransfers, transfers => .array (transfers.map Transfer.toJson)
  | getAccountManager, info => info.toJson
  | getNotices _, notices => .array (notices.map Notice.toJson)
  | getPreferences, preferences => preferences.toJson
  | authenticate _, _ => .null
  | quit, _ => .null
  | reportDevice _, _ => .null
  | setHostInfo _ _, _ => .null

/-- The fields of a request after its tag. -/
def fields : Request → List (String × Value)
  | authenticate token => [("token", .text token)]
  | getNotices since => [("since_seqno", .natural since.toNat)]
  | reportDevice device => [("device", device.toJson)]
  | setHostInfo model osVersion => [("model", .text model), ("os_version", .text osVersion)]
  | _ => []

def toJson (r : Request) : Value := .record (("type", .text r.tag) :: r.fields)

/-- The text of a request. -/
def encode (r : Request) : String := r.toJson.render

/-- The request with a tag, from the value that holds its fields. -/
def ofTagged? (tag : String) (content : Value) : Option Request :=
  match tag with
  | "authenticate" => do
    let r ← content.record? ["token"]
    return authenticate (← r.required "token" Value.text?)
  | "quit" => content.unit?.map fun _ => quit
  | "get_status" => content.unit?.map fun _ => getStatus
  | "get_state" => content.unit?.map fun _ => getState
  | "get_transfers" => content.unit?.map fun _ => getTransfers
  | "get_acct_mgr_info" => content.unit?.map fun _ => getAccountManager
  | "get_notices" => do
    let r ← content.record? ["since_seqno"]
    return getNotices (← r.required "since_seqno" Value.uint64?)
  | "get_preferences" => content.unit?.map fun _ => getPreferences
  | "report_device_status" => do
    let r ← content.record? ["device"]
    return reportDevice (← r.required "device" (DeviceStatus.ofJson? true))
  | "set_host_info" => do
    let r ← content.record? ["model", "os_version"]
    return setHostInfo (← r.required "model" Value.text?) (← r.required "os_version" Value.text?)
  | _ => none

def ofJson? (v : Value) : Option Request :=
  if v.wellFormed then v.tagged?.bind fun (tag, content) => ofTagged? tag content else none

def decode (payload : ByteArray) : Option Request := (Json.read payload).bind ofJson?

end Request

namespace Response

/-- The tag of a response. -/
def tag : Response → String
  | ok => "ok"
  | error _ => "error"
  | status _ => "status"
  | state _ => "state"
  | transfers _ => "transfers"
  | accountManager _ => "acct_mgr_info"
  | notices _ => "notices"
  | preferences _ => "preferences"

/-- The fields of a response after its tag. -/
def fields : Response → List (String × Value)
  | ok => []
  | error message => [("message", .text message)]
  | status s => [("status", s.toJson)]
  | state s => [("state", s.toJson)]
  | transfers ts => [("transfers", .array (ts.map Transfer.toJson))]
  | accountManager info => [("info", info.toJson)]
  | notices ns => [("notices", .array (ns.map Notice.toJson))]
  | preferences p => [("preferences", p.toJson)]

def toJson (r : Response) : Value := .record (("type", .text r.tag) :: r.fields)

/-- The text of a response. -/
def encode (r : Response) : String := r.toJson.render

/-- The response with a tag, from the value that holds its fields. -/
def ofTagged? (tag : String) (content : Value) : Option Response :=
  match tag with
  | "ok" => content.unit?.map fun _ => ok
  | "error" => do
    let r ← content.record? ["message"]
    return error (← r.required "message" Value.text?)
  | "status" => do
    let r ← content.record? ["status"]
    return status (← r.required "status" RunStatus.ofJson?)
  | "state" => do
    let r ← content.record? ["state"]
    return state (← r.required "state" StateReport.ofJson?)
  | "transfers" => do
    let r ← content.record? ["transfers"]
    return transfers (← r.required "transfers" (Value.list? Transfer.ofJson?))
  | "acct_mgr_info" => do
    let r ← content.record? ["info"]
    return accountManager (← r.required "info" AccountManager.ofJson?)
  | "notices" => do
    let r ← content.record? ["notices"]
    return notices (← r.required "notices" (Value.list? Notice.ofJson?))
  | "preferences" => do
    let r ← content.record? ["preferences"]
    return preferences (← r.required "preferences" Preferences.ofJson?)
  | _ => none

def ofJson? (v : Value) : Option Response :=
  if v.wellFormed then v.tagged?.bind fun (tag, content) => ofTagged? tag content else none

def decode (payload : ByteArray) : Option Response := (Json.read payload).bind ofJson?

end Response

end Overseer

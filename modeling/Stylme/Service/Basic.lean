-- SUMMARY: Service programs, the store methods they call, and the text and time helpers they share.
import Stylme.Domain.Graph
import Stylme.Lib.Prog
import Stylme.Store.World

/-!
# Service programs

A method of `service.Service` is a program over the commands of the `World`; a
Go result `(T, error)` is an `Except Err T`, and a lone `error` an `Option Err`.
The methods of `store.MongoStore` are the programs of one command each.
-/

namespace Stylme

open Conc

abbrev Service (α : Type) := Prog Cmd Resp α

/-! ## Store methods -/

namespace Store

abbrev now : Service Time := Prog.call Cmd.now

abbrev randomID (kind : String) : Service String := Prog.call (Cmd.randomID kind)

abbrev getAgent (id : String) : Service (Except Err Agent) := Prog.call (Cmd.getAgent id)

abbrev saveAgent (agent : Agent) : Service (Except Err Unit) := Prog.call (Cmd.saveAgent agent)

abbrev clearAgentDefaults (id : String) (channels : List String) (direction : String) :
    Service (Except Err Unit) :=
  Prog.call (Cmd.clearAgentDefaults id channels direction)

abbrev seedAgent (agent : Agent) : Service (Except Err Unit) := Prog.call (Cmd.seedAgent agent)

abbrev seedSwarm (swarm : AgentSwarm) : Service (Except Err Unit) := Prog.call (Cmd.seedSwarm swarm)

abbrev seedCampaign (campaign : Campaign) : Service (Except Err Unit) :=
  Prog.call (Cmd.seedCampaign campaign)

abbrev getSwarm (id : String) : Service (Except Err AgentSwarm) := Prog.call (Cmd.getSwarm id)

abbrev getDefaultSwarm (channel direction : String) : Service (Except Err AgentSwarm) :=
  Prog.call (Cmd.getDefaultSwarm channel direction)

abbrev getOutboundSwarmForAgent (agentID : String) : Service (Except Err AgentSwarm) :=
  Prog.call (Cmd.getOutboundSwarmForAgent agentID)

abbrev saveSwarm (swarm : AgentSwarm) : Service (Except Err Unit) := Prog.call (Cmd.saveSwarm swarm)

abbrev clearSwarmDefaults (id : String) (channels directions : List String) :
    Service (Except Err Unit) :=
  Prog.call (Cmd.clearSwarmDefaults id channels directions)

abbrev getCampaign (id : String) : Service (Except Err Campaign) := Prog.call (Cmd.getCampaign id)

abbrev saveCampaign (campaign : Campaign) : Service (Except Err Unit) :=
  Prog.call (Cmd.saveCampaign campaign)

abbrev incrementCampaignCount (campaignID key : String) (delta : Int) : Service (Except Err Unit) :=
  Prog.call (Cmd.incrementCampaignCount campaignID key delta)

abbrev insertCalls (calls : List Call) : Service (Except Err ℕ) := Prog.call (Cmd.insertCalls calls)

abbrev saveCall (call : Call) : Service (Except Err Unit) := Prog.call (Cmd.saveCall call)

abbrev getCall (id : String) : Service (Except Err Call) := Prog.call (Cmd.getCall id)

abbrev getCallByIdempotencyKey (key : String) : Service (Except Err Call) :=
  Prog.call (Cmd.getCallByIdempotencyKey key)

abbrev getCallByRoom (room : String) : Service (Except Err Call) := Prog.call (Cmd.getCallByRoom room)

abbrev claimPendingCall (now : Time) (lease : Duration) : Service (Except Err Call) :=
  Prog.call (Cmd.claimPendingCall now lease)

abbrev countActiveCampaignCalls (campaignID excludeCallID : String) : Service (Except Err Int) :=
  Prog.call (Cmd.countActiveCampaignCalls campaignID excludeCallID)

end Store

/-- `s.Telephony.DispatchOutbound` -/
abbrev dispatchOutbound (call : Call) (swarm : AgentSwarm) : Service (Except Err String) :=
  Prog.call (Cmd.dispatchOutbound call swarm)

/-- `s.aiClient` followed by `ai.Disposition`; the caller treats their errors alike. -/
abbrev disposition (agent : Agent) (transcript : List TranscriptTurn) :
    Service (Except Err Disposition) :=
  Prog.call (Cmd.disposition agent transcript)

/-! ## Text -/

/-- `unicode.IsSpace` -/
def isSpace (c : Char) : Bool :=
  c.toNat ∈ [0x09, 0x0a, 0x0b, 0x0c, 0x0d, 0x20, 0x85, 0xa0, 0x1680, 0x2028, 0x2029, 0x202f, 0x205f,
    0x3000] ∨ (0x2000 ≤ c.toNat ∧ c.toNat ≤ 0x200a)

/-- `strings.TrimSpace` -/
def trimSpace (s : String) : String :=
  String.ofList (((s.toList.dropWhile isSpace).reverse.dropWhile isSpace).reverse)

/-- `e164Pattern.MatchString`, for `^\+[1-9][0-9]{7,14}$`. -/
def isE164 (s : String) : Bool :=
  match s.toList with
  | '+' :: d :: rest =>
    '1' ≤ d ∧ d ≤ '9' ∧ rest.all Char.isDigit ∧ 7 ≤ rest.length ∧ rest.length ≤ 14
  | _ => false

/-- The keys of `supportedBulbulLanguages`. -/
def supportedBulbulLanguages : List String :=
  ["en-IN", "hi-IN", "bn-IN", "ta-IN", "te-IN", "gu-IN", "kn-IN", "ml-IN", "mr-IN", "pa-IN", "od-IN"]

/-! ## Time zones -/

/-- The zone in force at an instant: seconds east of UTC, and the half-open
interval of Unix seconds in which it is in force. -/
structure Zone where
  offset : Int
  start : Int
  stop : Int

/-- `time.Location`, by the zone in force at each Unix second. -/
structure Location where
  lookup : Int → Zone

namespace Location

/-- Seconds of the local clock since the start of 1970; a civil date is its
number of days since then. -/
def clock (loc : Location) (t : Time) : Int :=
  let unix := t / second
  unix + (loc.lookup unix).offset

def day (loc : Location) (t : Time) : Int := loc.clock t / 86400

def hour (loc : Location) (t : Time) : Int := loc.clock t % 86400 / 3600

def minute (loc : Location) (t : Time) : Int := loc.clock t % 3600 / 60

/-- `time.Date` at `secs` seconds into a civil date: the zone is looked up as if
the local clock were UTC, and once more when that zone is not in force. -/
def date (loc : Location) (day secs : Int) : Time :=
  let unix := day * 86400 + secs
  let zone := loc.lookup unix
  if zone.offset = 0 then unix * second
  else
    let utc := unix - zone.offset
    let offset := if utc < zone.start ∨ zone.stop ≤ utc then (loc.lookup utc).offset else zone.offset
    (unix - offset) * second

/-- `t.AddDate(0, 0, 1)` for an instant on a full second. -/
def nextDay (loc : Location) (t : Time) : Time := loc.date (loc.day t + 1) (loc.clock t % 86400)

end Location

/-! ## The calling window -/

/-- A number of one or two digits from the front of a `time.Parse` input. -/
def getnum (fixed : Bool) : List Char → Option (ℕ × List Char)
  | d :: e :: rest =>
    if ¬ d.isDigit then none
    else if e.isDigit then some ((d.toNat - 48) * 10 + (e.toNat - 48), rest)
    else if fixed then none
    else some (d.toNat - 48, e :: rest)
  | [d] => if d.isDigit ∧ ¬ fixed then some (d.toNat - 48, []) else none
  | [] => none

/-- `parseMinute` of `parseCallingWindow`: the layout `15:04` in minutes. -/
def parseMinute (value : String) : Option Int :=
  match getnum false value.toList with
  | some (hour, ':' :: rest) =>
    match getnum true rest with
    | some (minute, []) => if hour < 24 ∧ minute < 60 then some (hour * 60 + minute) else none
    | _ => none
  | _ => none

/-- What the service takes from the platform: the time zone database, and the
size of the JSON encoding of a request, if it has one. -/
structure Platform (Request : Type) where
  loadLocation : String → Option Location
  marshalSize : Request → Option ℕ

section CallingWindow

variable {Request : Type} (platform : Platform Request)

def parseCallingWindow (window : CallingWindow) : Option (Location × Int × Int) :=
  match platform.loadLocation window.timezone with
  | none => none
  | some location =>
    match parseMinute window.start, parseMinute window.stop with
    | some start, some stop => if start ≠ stop then some (location, start, stop) else none
    | _, _ => none

def withinCallingWindow (window : CallingWindow) (now : Time) : Bool :=
  match parseCallingWindow platform window with
  | none => false
  | some (location, startMinute, endMinute) =>
    let minute := location.hour now * 60 + location.minute now
    if startMinute < endMinute then startMinute ≤ minute ∧ minute < endMinute
    else startMinute ≤ minute ∨ minute < endMinute

def nextCallingWindow (window : CallingWindow) (now : Time) : Time :=
  match parseCallingWindow platform window with
  | none => now + 15 * minute
  | some (location, startMinute, _) =>
    let next := location.date (location.day now) (startMinute * 60)
    if now < next then next else location.nextDay next

end CallingWindow

end Stylme

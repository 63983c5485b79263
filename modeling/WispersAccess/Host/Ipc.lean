import Mathlib.Algebra.Ring.Int.Defs
import WispersAccess.Foundation.CompactJson
import WispersAccess.Foundation.Lines
import WispersAccess.Wire.Documents

/-!
# The control socket

The command line asks a running server one thing a connection: a request on a
line, and a response on a line.  The variants of a response are not named in its
JSON.  A reader tries them in order, and takes the first one whose fields are
there.
-/

namespace WispersAccess
namespace Host

open Foundation
open Wire (AppKind ofUtf8 utf8)

namespace Ipc

/-!
## Requests and responses
-/

/-- Request from CLI to running server. -/
inductive Request where
  | status
  | getInvite (nodeName userId : String)
  /-- Mark a guest revoked and close its live connections. -/
  | revokeGuest (number : Int64)
  | reload
  | shutdown
  deriving DecidableEq

structure AppData where
  id : String
  name : String
  kind : AppKind
  mode : Wire.AppProxyMode
  /-- Reverse-proxy mode only. -/
  upstream : Option String
  /-- Forward-proxy mode only. -/
  proxiedOrigins : List String
  deriving DecidableEq

structure GuestData where
  nodeNumber : Int32
  userId : Option String
  connectedSince : Option String
  deriving DecidableEq

structure StatusData where
  reachable : Bool
  apps : List AppData
  configHash : UInt64
  pid : UInt32
  startedAt : String
  connectedSince : Option String
  connectedGuests : Option (List GuestData)
  deriving DecidableEq

structure InviteData where
  code : String
  deriving DecidableEq

structure ReloadData where
  changed : Bool
  apps : List AppData
  deriving DecidableEq

/-- Data payload for successful responses. -/
inductive ResponseData where
  | status (data : StatusData)
  | invite (data : InviteData)
  | reload (data : ReloadData)
  | empty
  deriving DecidableEq

/-- Response from running server to CLI. -/
inductive Response where
  | success (ok : Bool) (data : ResponseData)
  | error (ok : Bool) (text : String)
  deriving DecidableEq

/-- `Response::success`. -/
def Response.ofData (data : ResponseData) : Response :=
  Response.success true data

/-- `Response::error`. -/
def Response.ofError (msg : String) : Response :=
  Response.error false msg

/-!
## Readers of one value
-/

def readBool : Json -> Option Bool
  | Json.bool b => some b
  | _ => none

/-- A number between two bounds, the upper one not included. -/
def readInt (low high : Int) : Json -> Option Int
  | Json.num n => if low ≤ n ∧ n < high then some n else none
  | _ => none

def readI32 (j : Json) : Option Int32 :=
  (readInt (-2 ^ 31) (2 ^ 31) j).map Int32.ofInt

def readI64 (j : Json) : Option Int64 :=
  (readInt (-2 ^ 63) (2 ^ 63) j).map Int64.ofInt

def readU32 (j : Json) : Option UInt32 :=
  (readInt 0 (2 ^ 32) j).map fun n => UInt32.ofNat n.toNat

def readU64 (j : Json) : Option UInt64 :=
  (readInt 0 (2 ^ 64) j).map fun n => UInt64.ofNat n.toNat

/-- An absent value is written as null. -/
def ofOption {α : Type _} (write : α -> Json) : Option α -> Json
  | none => Json.null
  | some x => write x

theorem readInt_num {low high n : Int} (hlow : low ≤ n) (hhigh : n < high) :
    readInt low high (Json.num n) = some n := by
  exact if_pos ⟨hlow, hhigh⟩

@[simp] theorem readI32_num (n : Int32) : readI32 (Json.num n.toInt) = some n := by
  unfold readI32
  rw [readInt_num n.le_toInt n.toInt_lt, Option.map_some, Int32.ofInt_toInt]

@[simp] theorem readI64_num (n : Int64) : readI64 (Json.num n.toInt) = some n := by
  unfold readI64
  rw [readInt_num n.le_toInt n.toInt_lt, Option.map_some, Int64.ofInt_toInt]

@[simp] theorem readU32_num (n : UInt32) : readU32 (Json.num n.toNat) = some n := by
  have hbound : (n.toNat : Int) < 2 ^ 32 := by exact_mod_cast n.toNat_lt
  unfold readU32
  rw [readInt_num (Int.natCast_nonneg _) hbound, Option.map_some, Int.toNat_natCast,
    UInt32.ofNat_toNat]

@[simp] theorem readU64_num (n : UInt64) : readU64 (Json.num n.toNat) = some n := by
  have hbound : (n.toNat : Int) < 2 ^ 64 := by exact_mod_cast n.toNat_lt
  unfold readU64
  rw [readInt_num (Int.natCast_nonneg _) hbound, Option.map_some, Int.toNat_natCast,
    UInt64.ofNat_toNat]

/-- An optional value reads back if a present one does and is not written as null. -/
theorem readOptional_ofOption {α : Type _} {read : Json -> Option α} {write : α -> Json}
    (hread : forall x, read (write x) = some x) (hnull : forall x, write x ≠ Json.null)
    (value : Option α) : Json.readOptional read (ofOption write value) = some value := by
  cases value with
  | none => rfl
  | some x =>
      have hsome : Json.readOptional read (write x) = (read (write x)).map some := by
        cases hwrite : write x with
        | null => exact absurd hwrite (hnull x)
        | _ => rfl
      show Json.readOptional read (write x) = some (some x)
      rw [hsome, hread x, Option.map_some]

@[simp] theorem readOptional_ofText (value : Option String) :
    Json.readOptional Json.readText (ofOption Json.str value) = some value := by
  cases value <;> rfl

/-!
## Documents
-/

def Request.toJson : Request -> Json
  | status => Json.obj [("cmd", Json.str "status")]
  | getInvite nodeName userId =>
      Json.obj [("cmd", Json.str "get_invite"), ("node_name", Json.str nodeName),
        ("user_id", Json.str userId)]
  | revokeGuest number =>
      Json.obj [("cmd", Json.str "revoke_guest"), ("number", Json.num number.toInt)]
  | reload => Json.obj [("cmd", Json.str "reload")]
  | shutdown => Json.obj [("cmd", Json.str "shutdown")]

/-- The tag says which request it is. -/
def Request.ofJson (j : Json) : Option Request := do
  let fields <- j.readFields
  let cmd <- Json.required Json.readText "cmd" fields
  if cmd = "status" then return status
  else if cmd = "get_invite" then
    let nodeName <- Json.required Json.readText "node_name" fields
    let userId <- Json.required Json.readText "user_id" fields
    return getInvite nodeName userId
  else if cmd = "revoke_guest" then
    let number <- Json.required readI64 "number" fields
    return revokeGuest number
  else if cmd = "reload" then return reload
  else if cmd = "shutdown" then return shutdown
  else none

def AppData.toJson (app : AppData) : Json :=
  Json.obj [("id", Json.str app.id), ("name", Json.str app.name),
    ("kind", Json.str app.kind.asStr), ("mode", Json.str app.mode.asStr),
    ("upstream", ofOption Json.str app.upstream),
    ("proxied_origins", Json.ofTexts app.proxiedOrigins)]

def AppData.ofJson (j : Json) : Option AppData := do
  let fields <- j.readFields
  let id <- Json.required Json.readText "id" fields
  let name <- Json.required Json.readText "name" fields
  let kind <- Json.defaulted AppKind.web (fun v => v.readText.bind AppKind.parse) "kind" fields
  let mode <- Json.defaulted Wire.AppProxyMode.reverseProxy
    (fun v => v.readText.map Wire.AppProxyMode.parse) "mode" fields
  let upstream <- Json.defaulted none (Json.readOptional Json.readText) "upstream" fields
  let proxiedOrigins <- Json.defaulted [] (Json.readArray Json.readText) "proxied_origins" fields
  return { id, name, kind, mode, upstream, proxiedOrigins }

def GuestData.toJson (guest : GuestData) : Json :=
  Json.obj [("node_number", Json.num guest.nodeNumber.toInt),
    ("user_id", ofOption Json.str guest.userId),
    ("connected_since", ofOption Json.str guest.connectedSince)]

def GuestData.ofJson (j : Json) : Option GuestData := do
  let fields <- j.readFields
  let nodeNumber <- Json.required readI32 "node_number" fields
  let userId <- Json.defaulted none (Json.readOptional Json.readText) "user_id" fields
  let connectedSince <-
    Json.defaulted none (Json.readOptional Json.readText) "connected_since" fields
  return { nodeNumber, userId, connectedSince }

def StatusData.toJson (data : StatusData) : Json :=
  Json.obj [("reachable", Json.bool data.reachable),
    ("apps", Json.arr (data.apps.map AppData.toJson)),
    ("config_hash", Json.num data.configHash.toNat),
    ("pid", Json.num data.pid.toNat),
    ("started_at", Json.str data.startedAt),
    ("connected_since", ofOption Json.str data.connectedSince),
    ("connected_guests",
      ofOption (fun guests => Json.arr (guests.map GuestData.toJson)) data.connectedGuests)]

def StatusData.ofJson (j : Json) : Option StatusData := do
  let fields <- j.readFields
  let reachable <- Json.required readBool "reachable" fields
  let apps <- Json.required (Json.readArray AppData.ofJson) "apps" fields
  let configHash <- Json.required readU64 "config_hash" fields
  let pid <- Json.required readU32 "pid" fields
  let startedAt <- Json.required Json.readText "started_at" fields
  let connectedSince <-
    Json.defaulted none (Json.readOptional Json.readText) "connected_since" fields
  let connectedGuests <-
    Json.defaulted none (Json.readOptional (Json.readArray GuestData.ofJson))
      "connected_guests" fields
  return { reachable, apps, configHash, pid, startedAt, connectedSince, connectedGuests }

def InviteData.toJson (data : InviteData) : Json :=
  Json.obj [("code", Json.str data.code)]

def InviteData.ofJson (j : Json) : Option InviteData := do
  let fields <- j.readFields
  let code <- Json.required Json.readText "code" fields
  return { code }

def ReloadData.toJson (data : ReloadData) : Json :=
  Json.obj [("changed", Json.bool data.changed),
    ("apps", Json.arr (data.apps.map AppData.toJson))]

def ReloadData.ofJson (j : Json) : Option ReloadData := do
  let fields <- j.readFields
  let changed <- Json.required readBool "changed" fields
  let apps <- Json.required (Json.readArray AppData.ofJson) "apps" fields
  return { changed, apps }

def ResponseData.toJson : ResponseData -> Json
  | status data => data.toJson
  | invite data => data.toJson
  | reload data => data.toJson
  | empty => Json.null

/-- A variant without data is null. -/
def readNull : Json -> Option Unit
  | Json.null => some ()
  | _ => none

/-- The first variant that can be read. -/
def ResponseData.ofJson (j : Json) : Option ResponseData :=
  (StatusData.ofJson j).map status <|> (InviteData.ofJson j).map invite <|>
    (ReloadData.ofJson j).map reload <|> (readNull j).map fun _ => empty

def Response.toJson : Response -> Json
  | success ok data => Json.obj [("ok", Json.bool ok), ("data", data.toJson)]
  | error ok text => Json.obj [("ok", Json.bool ok), ("error", Json.str text)]

def readSuccess (j : Json) : Option Response := do
  let fields <- j.readFields
  let ok <- Json.required readBool "ok" fields
  let data <- Json.required ResponseData.ofJson "data" fields
  return Response.success ok data

def readError (j : Json) : Option Response := do
  let fields <- j.readFields
  let ok <- Json.required readBool "ok" fields
  let text <- Json.required Json.readText "error" fields
  return Response.error ok text

/-- The first variant that can be read. -/
def Response.ofJson (j : Json) : Option Response :=
  readSuccess j <|> readError j

/-!
## What is written reads back
-/

@[simp] theorem Request.ofJson_toJson (request : Request) :
    Request.ofJson request.toJson = some request := by
  cases request
  all_goals
    simp [toJson, ofJson, Json.readFields, Json.required, Json.field, Json.readText]

@[simp] theorem AppData.ofJson_toJson (app : AppData) : AppData.ofJson app.toJson = some app := by
  simp [toJson, ofJson, Json.readFields, Json.required, Json.defaulted, Json.field, Json.readText]

@[simp] theorem GuestData.ofJson_toJson (guest : GuestData) :
    GuestData.ofJson guest.toJson = some guest := by
  simp [toJson, ofJson, Json.readFields, Json.required, Json.defaulted, Json.field]

theorem readArray_apps (apps : List AppData) :
    Json.readArray AppData.ofJson (Json.arr (apps.map AppData.toJson)) = some apps :=
  Json.readArray_map AppData.ofJson_toJson apps

theorem readOptional_guests (guests : Option (List GuestData)) :
    Json.readOptional (Json.readArray GuestData.ofJson)
      (ofOption (fun guests => Json.arr (guests.map GuestData.toJson)) guests) = some guests :=
  readOptional_ofOption (fun xs => Json.readArray_map GuestData.ofJson_toJson xs) nofun guests

@[simp] theorem StatusData.ofJson_toJson (data : StatusData) :
    StatusData.ofJson data.toJson = some data := by
  simp [toJson, ofJson, Json.readFields, Json.required, Json.defaulted, Json.field, Json.readText,
    readBool, readArray_apps, readOptional_guests]

@[simp] theorem InviteData.ofJson_toJson (data : InviteData) :
    InviteData.ofJson data.toJson = some data := by
  simp [toJson, ofJson, Json.readFields, Json.required, Json.field, Json.readText]

@[simp] theorem ReloadData.ofJson_toJson (data : ReloadData) :
    ReloadData.ofJson data.toJson = some data := by
  simp [toJson, ofJson, Json.readFields, Json.required, Json.field, readBool, readArray_apps]

example : Json.compact.print (Response.ofData ResponseData.empty).toJson =
    "\x7b\"ok\":true,\"data\":null\x7d" := by
  decide

/-!
## No variant takes the JSON of a later one
-/

theorem required_of_missing {α : Type _} {read : Json -> Option α} {name : String}
    {fields : List (String × Json)} (h : Json.field name fields = Json.Field.missing) :
    Json.required read name fields = none := by
  unfold Json.required
  rw [h]

theorem StatusData.ofJson_of_missing {fields : List (String × Json)}
    (h : Json.field "reachable" fields = Json.Field.missing) :
    StatusData.ofJson (Json.obj fields) = none := by
  unfold ofJson
  simp only [Json.readFields, Option.bind_eq_bind, Option.bind_some, required_of_missing h,
    Option.bind_none]

theorem InviteData.ofJson_of_missing {fields : List (String × Json)}
    (h : Json.field "code" fields = Json.Field.missing) :
    InviteData.ofJson (Json.obj fields) = none := by
  unfold ofJson
  simp only [Json.readFields, Option.bind_eq_bind, Option.bind_some, required_of_missing h,
    Option.bind_none]

@[simp] theorem ResponseData.ofJson_toJson (data : ResponseData) :
    ResponseData.ofJson data.toJson = some data := by
  cases data with
  | status data =>
      unfold ofJson toJson
      rw [StatusData.ofJson_toJson]
      rfl
  | invite data =>
      have hstatus : StatusData.ofJson data.toJson = none := StatusData.ofJson_of_missing rfl
      unfold ofJson toJson
      rw [hstatus, InviteData.ofJson_toJson]
      rfl
  | reload data =>
      have hstatus : StatusData.ofJson data.toJson = none := StatusData.ofJson_of_missing rfl
      have hinvite : InviteData.ofJson data.toJson = none := InviteData.ofJson_of_missing rfl
      unfold ofJson toJson
      rw [hstatus, hinvite, ReloadData.ofJson_toJson]
      rfl
  | empty => rfl

/-- Every response reads back, the ones that are never built included. -/
@[simp] theorem Response.ofJson_toJson (response : Response) :
    Response.ofJson response.toJson = some response := by
  cases response with
  | success ok data =>
      have hread : readSuccess (Response.success ok data).toJson = some (success ok data) := by
        simp [toJson, readSuccess, Json.readFields, Json.required, Json.field, readBool]
      unfold ofJson
      rw [hread]
      rfl
  | error ok text =>
      have hsuccess : readSuccess (Response.error ok text).toJson = none := by
        simp [toJson, readSuccess, Json.readFields, Json.required, Json.field, readBool]
      have hread : readError (Response.error ok text).toJson = some (error ok text) := by
        simp [toJson, readError, Json.readFields, Json.required, Json.field, Json.readText,
          readBool]
      unfold ofJson
      rw [hsuccess, hread]
      rfl

/-!
## Lines
-/

def newline : UInt8 := 10

/-- A document and the end of its line. -/
def writeLine (j : Json) : List UInt8 :=
  utf8 (Json.compact.print j) ++ [newline]

theorem newline_not_mem_utf8 (j : Json) : newline ∉ utf8 (Json.compact.print j) := by
  intro h
  exact Json.newline_not_mem_print j (Wire.mem_toList_of_mem_utf8 h (by decide))

theorem writeLine_eq (j : Json) : writeLine j = utf8 (Json.compact.print j ++ "\n") := by
  have hnewline : utf8 "\n" = [newline] := by decide
  rw [Wire.utf8_append, hnewline]
  rfl

/-- A reader of lines takes a document, and leaves what comes after it. -/
theorem readLine_writeLine (j : Json) (rest : List UInt8) :
    readLine newline (writeLine j ++ rest) = (writeLine j, rest) := by
  unfold writeLine
  rw [List.append_assoc]
  exact readLine_line (newline_not_mem_utf8 j) rest

theorem ofUtf8_writeLine (j : Json) :
    ofUtf8 (writeLine j) = some (Json.compact.print j ++ "\n") := by
  rw [writeLine_eq, Wire.ofUtf8_utf8]

/-- Why a request was not taken. -/
inductive RequestError where
  /-- "cannot read request" -/
  | unreadable
  /-- "invalid request" -/
  | invalid
  deriving DecidableEq

def parseRequest (bytes : List UInt8) : Except RequestError Request :=
  match ofUtf8 (readLine newline bytes).1 with
  | none => Except.error RequestError.unreadable
  | some line =>
      match (Json.parseLine line).bind Request.ofJson with
      | none => Except.error RequestError.invalid
      | some request => Except.ok request

def sendResponse (response : Response) : List UInt8 :=
  writeLine response.toJson

/-- What `Client::request` writes. -/
def sendRequest (request : Request) : List UInt8 :=
  writeLine request.toJson

/-- What `Client::request` reads. -/
def readResponse (bytes : List UInt8) : Option Response :=
  ((ofUtf8 (readLine newline bytes).1).bind Json.parseLine).bind Response.ofJson

theorem parseRequest_sendRequest (request : Request) (rest : List UInt8) :
    parseRequest (sendRequest request ++ rest) = Except.ok request := by
  unfold parseRequest sendRequest
  rw [readLine_writeLine, ofUtf8_writeLine]
  simp only [Json.parseLine_print, Option.bind_some, Request.ofJson_toJson]

theorem readResponse_sendResponse (response : Response) (rest : List UInt8) :
    readResponse (sendResponse response ++ rest) = some response := by
  unfold readResponse sendResponse
  rw [readLine_writeLine, ofUtf8_writeLine, Option.bind_some, Json.parseLine_print,
    Option.bind_some, Response.ofJson_toJson]

/-- A connection, as the server handles it. -/
def handleConnection (handle : Except RequestError Request -> Response) (bytes : List UInt8) :
    List UInt8 :=
  sendResponse (handle (parseRequest bytes))

/-- The client gets what the server answers to its request. -/
theorem handleConnection_sendRequest (handle : Except RequestError Request -> Response)
    (request : Request) :
    readResponse (handleConnection handle (sendRequest request)) =
      some (handle (Except.ok request)) := by
  have hparse := parseRequest_sendRequest request []
  have hread := readResponse_sendResponse (handle (Except.ok request)) []
  rw [List.append_nil] at hparse hread
  unfold handleConnection
  rw [hparse, hread]

/-- A message is one line, and the other side reads it as it was. -/
theorem messages_round_trip :
    (forall (request : Request) (rest : List UInt8),
      (exists json, sendRequest request = json ++ [newline] ∧ newline ∉ json) ∧
        parseRequest (sendRequest request ++ rest) = Except.ok request) ∧
    (forall (data : ResponseData) (rest : List UInt8),
      (exists json, sendResponse (Response.ofData data) = json ++ [newline] ∧ newline ∉ json) ∧
        readResponse (sendResponse (Response.ofData data) ++ rest) = some (Response.ofData data)) ∧
    forall (msg : String) (rest : List UInt8),
      (exists json, sendResponse (Response.ofError msg) = json ++ [newline] ∧ newline ∉ json) ∧
        readResponse (sendResponse (Response.ofError msg) ++ rest) =
          some (Response.ofError msg) := by
  constructor
  · intro request rest
    constructor
    · exact ⟨_, rfl, newline_not_mem_utf8 _⟩
    · exact parseRequest_sendRequest request rest
  constructor
  · intro data rest
    constructor
    · exact ⟨_, rfl, newline_not_mem_utf8 _⟩
    · exact readResponse_sendResponse _ rest
  · intro msg rest
    constructor
    · exact ⟨_, rfl, newline_not_mem_utf8 _⟩
    · exact readResponse_sendResponse _ rest

end Ipc
end Host
end WispersAccess

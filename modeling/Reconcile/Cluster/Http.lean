import Reconcile.Cluster.Api
import Reconcile.Identity
import Reconcile.Json.Parser

/-!
# A cluster behind HTTP

`Http.api` is a control API that sends requests to an API server. An object lives under the path
of its group, namespace and collection. A response of the 400s or 500s is an error whose body
tells the status; the code in that status decides whether an object is absent. Any other response
has to hold what was asked for.
-/

namespace Reconcile.Http

/-- A request. A body that is there is sent as JSON text. -/
structure Request where
  method : String
  path : String
  contentType : Option String
  body : Option Json
  deriving DecidableEq

/-- A response. -/
structure Response where
  status : Nat
  body : String
  deriving DecidableEq

/-- How requests get their responses in a world of state `σ`; a server out of reach gives none. -/
abbrev Transport (σ : Type) := Request → σ → Option Response × σ

/-- The transport to a server that is out of reach. -/
def unreachable {σ : Type} : Transport σ := fun _ world => (none, world)

/-- The path of the objects of a kind in a namespace. -/
def collectionPath {α : Type} (kind : Kind α) (ns : String) : String :=
  "/apis/" ++ kind.apiVersion ++ "/namespaces/" ++ ns ++ "/" ++ kind.collection

/-- The path of an object. -/
def objectPath {α : Type} (kind : Kind α) (ns name : String) : String :=
  collectionPath kind ns ++ "/" ++ name

/-- The usual phrases for codes of errors. -/
def reasonPhrases : List (Nat × String) :=
  [(400, "Bad Request"), (401, "Unauthorized"), (402, "Payment Required"), (403, "Forbidden"),
   (404, "Not Found"), (405, "Method Not Allowed"), (406, "Not Acceptable"),
   (407, "Proxy Authentication Required"), (408, "Request Timeout"), (409, "Conflict"),
   (410, "Gone"), (411, "Length Required"), (412, "Precondition Failed"),
   (413, "Payload Too Large"), (414, "URI Too Long"), (415, "Unsupported Media Type"),
   (416, "Range Not Satisfiable"), (417, "Expectation Failed"), (418, "I'm a teapot"),
   (421, "Misdirected Request"), (422, "Unprocessable Entity"), (423, "Locked"),
   (424, "Failed Dependency"), (426, "Upgrade Required"), (428, "Precondition Required"),
   (429, "Too Many Requests"), (431, "Request Header Fields Too Large"),
   (451, "Unavailable For Legal Reasons"), (500, "Internal Server Error"),
   (501, "Not Implemented"), (502, "Bad Gateway"), (503, "Service Unavailable"),
   (504, "Gateway Timeout"), (505, "HTTP Version Not Supported"),
   (506, "Variant Also Negotiates"), (507, "Insufficient Storage"), (508, "Loop Detected"),
   (510, "Not Extended"), (511, "Network Authentication Required")]

/-- The code of an error with its usual phrase. -/
def statusLine (code : Nat) : String :=
  toString code ++ " " ++ (reasonPhrases.lookup code).getD "<unknown status code>"

/-- The greatest code that a status can hold. -/
def maxCode : Int := 65535

/-- A code of 16 bits. -/
def code? : Json → Option Nat
  | .int i => if 0 ≤ i ∧ i ≤ maxCode then some i.toNat else none
  | _ => none

/-- The text of a field, empty where the field is absent. -/
def textField? (fields : Json.Fields) (key : String) : Option String :=
  match fields.lookup key with
  | none => some ""
  | some value => value.str?

/-- The status that the body of an error holds. -/
def status? (body : String) : Option ServerStatus := do
  let fields ← (← Json.parse? body).obj?
  some {
    status := ← (← fields.lookup "status").str?
    message := ← textField? fields "message"
    reason := ← textField? fields "reason"
    code := ← code? (← fields.lookup "code") }

/-- The status of an error. One whose body holds none gets one made up from its code. -/
def statusOf (response : Response) : ServerStatus :=
  (status? response.body).getD
    ⟨statusLine response.status, Text.quoted response.body, "Failed to parse error data",
      response.status⟩

/-- The failure that a fault of a call about an object means. -/
def failureOf (kind : String) (call : CallKind) (ns name : String) (fault : CallFault) :
    Failure :=
  match fault with
  | .refused status =>
    if status.code = 404 then .notFound kind (Identity.join ns name)
    else .callFailed call kind fault
  | _ => .callFailed call kind fault

/-- The body of a response that is no error. -/
def bodyOf (response : Option Response) : Except CallFault String :=
  match response with
  | none => .error .unreachable
  | some response =>
    if 400 ≤ response.status ∧ response.status < 600 then .error (.refused (statusOf response))
    else .ok response.body

/-- The object that a body holds. -/
def decodeObject {α : Type} (kind : Kind α) (body : String) : Except CallFault α :=
  match (Json.parse? body).bind kind.ofJson? with
  | some object => .ok object
  | none => .error .undecodable

/-- Whether an object is a status report of an operation that can be read. -/
def isReport (fields : Json.Fields) : Bool :=
  let outcome : Option Unit :=
    match fields.lookup "status" with
    | none | some .null => some ()
    | some value => if value = .str "Success" ∨ value = .str "Failure" then some () else none
  let code : Option Nat :=
    match fields.lookup "code" with
    | none => some 0
    | some value => code? value
  outcome.isSome && code.isSome && (textField? fields "message").isSome
    && (textField? fields "reason").isSome

/-- A body that answers a deletion: a status report or the object that goes. -/
def decodeDeleted {α : Type} (kind : Kind α) (body : String) : Except CallFault Unit :=
  match Json.parse? body with
  | none => .error .undecodable
  | some value =>
    let fields := value.obj?.getD []
    if fields.lookup "kind" = some (.str "Status") then
      if isReport fields then .ok () else .error .undecodable
    else (decodeObject kind body).map fun _ => ()

variable {α σ : Type}

/-- Whether a character may stand in the path of a request. -/
def isPathChar (c : Char) : Bool :=
  ' ' < c && c ≠ '<' && c ≠ '>' && c ≠ '\x60' && c ≠ '\x7f'

/-- Send a request about an object and read the answer. -/
def send {β : Type} (kind : Kind α) (transport : Transport σ) (call : CallKind)
    (ns name : String) (request : Request) (decode : String → Except CallFault β) (world : σ) :
    Except Failure β × σ :=
  if request.path.toList.all isPathChar then
    let (response, world) := transport request world
    let answer := (bodyOf response).bind decode
    (answer.mapError (failureOf kind.name call ns name), world)
  else (.error (.callFailed call kind.name .unaddressable), world)

/-- The failure of a call that needs the name of an object and has none. -/
def unnamed (kind : Kind α) (call : CallKind) : Failure := .callFailed call kind.name .unnamed

/-- The control API of a server. -/
def api (kind : Kind α) (transport : Transport σ) : ControlApi α σ where
  create ns object world :=
    let name := (kind.metadata object).name.getD ""
    send kind transport .create ns name
      ⟨"POST", collectionPath kind ns, some "application/json", some (kind.toJson object)⟩
      (decodeObject kind) world
  get ns name world :=
    if name = "" then (.error (unnamed kind .get), world)
    else
      send kind transport .get ns name ⟨"GET", objectPath kind ns name, none, none⟩
        (decodeObject kind) world
  patch ns name document world :=
    match Json.Operation.listOfJson? document with
    | none => (.error (.unmarshalable "not a patch document"), world)
    | some operations =>
      if name = "" then (.error (unnamed kind .patch), world)
      else
        send kind transport .patch ns name
          ⟨"PATCH", objectPath kind ns name, some "application/json-patch+json",
            some (.arr (operations.map Json.Operation.toJson))⟩
          (decodeObject kind) world
  delete ns name propagation world :=
    if name = "" then (.error (unnamed kind .delete), world)
    else
      send kind transport .delete ns name
        ⟨"DELETE", objectPath kind ns name, some "application/json",
          some (.obj [("propagationPolicy", .str propagation.name)])⟩
        (decodeDeleted kind) world

end Reconcile.Http

import Reconcile.Duration
import Reconcile.Json.Patch
import Reconcile.Progress
import Reconcile.Text.Quoted

/-!
# What can go wrong

A `Failure` is the cause of an operation's end without success. `Failure.message` words it, and
`Failure.causes` lists the wordings of the causes behind it, the nearest first.
-/

namespace Reconcile

/-- A call of the control API. -/
inductive CallKind where
  | create
  | get
  | patch
  | delete
  deriving DecidableEq, Inhabited

/-- The verb of a call. -/
def CallKind.verb : CallKind → String
  | .create => "create"
  | .get => "get"
  | .patch => "patch"
  | .delete => "delete"

/-- What is wrong with a configuration or with a stored record. -/
inductive Malformed where
  | notObject
  | blockRequired (path : String)
  | nameRequired
  | fieldRequired (path field : String)
  | outOfRange (path : String) (value : Int)
  | verbsRequired (path : String)
  | attributeType (key expected actual : String)
  | described (text : String)
  deriving DecidableEq

/-- The wording of a malformed configuration. -/
def Malformed.message : Malformed → String
  | .notObject => "configuration must be an object"
  | .blockRequired path => path ++ " block is required"
  | .nameRequired => "metadata: one of name or generate_name is required"
  | .fieldRequired path field => path ++ ": " ++ field ++ " is required"
  | .outOfRange path value => path ++ ": " ++ toString value ++ " is out of range"
  | .verbsRequired path => path ++ ": verbs must not be empty"
  | .attributeType key expected actual =>
    key ++ ": expected " ++ expected ++ ", got " ++ Text.quoted actual
  | .described text => text

/-- The account that an API server gives of a refused request. -/
structure ServerStatus where
  status : String
  message : String
  reason : String
  code : Nat
  deriving DecidableEq

/-- The short wording of a server's account. -/
def ServerStatus.summary (s : ServerStatus) : String := s.message ++ ": " ++ s.reason

/-- All fields of a server's account. -/
def ServerStatus.details (s : ServerStatus) : String :=
  "ErrorResponse \x7b status: " ++ Text.quoted s.status ++ ", message: " ++ Text.quoted s.message
    ++ ", reason: " ++ Text.quoted s.reason ++ ", code: " ++ toString s.code ++ " \x7d"

/-- Why a call of the control API failed. -/
inductive CallFault where
  /-- The server answered with an error. -/
  | refused (status : ServerStatus)
  /-- The answer does not hold what was asked for. -/
  | undecodable
  /-- The server cannot be reached. -/
  | unreachable
  | alreadyExists (id : String)
  | patchRejected (failure : Json.PatchFailure)
  /-- No request can be made because a name is missing. -/
  | unnamed
  /-- No request can be made because a name does not fit into a path. -/
  | unaddressable
  | described (text : String)
  deriving DecidableEq

/-- The wording of a fault. -/
def CallFault.message : CallFault → String
  | .refused s => "ApiError: " ++ s.summary ++ " (" ++ s.details ++ ")"
  | .undecodable => "Error deserializing response"
  | .unreachable => "ServiceError: client error (Connect)"
  | .alreadyExists id => id ++ " already exists"
  | .patchRejected failure => failure.message
  | .unnamed => "Failed to build request: failed to validate request: A non-empty name is required"
  | .unaddressable => "Failed to build request: failed to build request: invalid uri character"
  | .described text => text

/-- The wordings of the causes behind a fault. -/
def CallFault.causes : CallFault → List String
  | .refused s => [s.summary]
  | .unreachable =>
    ["client error (Connect)", "tcp connect error", "Network is unreachable (os error 101)"]
  | .unnamed => ["failed to validate request: A non-empty name is required"]
  | .unaddressable => ["failed to build request: invalid uri character", "invalid uri character"]
  | _ => []

/-- Why an operation ended without success. -/
inductive Failure where
  | malformed (cause : Malformed)
  | notFound (kind id : String)
  | callFailed (call : CallKind) (kind : String) (fault : CallFault)
  | timeout (what : String) (limit : Duration) (last : Option Progress)
  | unknownVersion (kind : String) (found latest : Nat)
  | unmarshalable (text : String)
  | invalidIdentity (id : String)
  deriving DecidableEq

namespace Failure

/-- The wording of a failure. -/
def message : Failure → String
  | .malformed cause => "invalid configuration: " ++ cause.message
  | .notFound kind id => kind ++ " " ++ id ++ " not found"
  | .callFailed call kind fault =>
    "failed to " ++ call.verb ++ " " ++ kind ++ ": " ++ fault.message
  | .timeout what limit last =>
    "timed out after " ++ limit.text ++ " waiting for " ++ what ++
      (match last with
      | some progress => " (" ++ progress.text ++ " observed)"
      | none => "")
  | .unknownVersion kind found latest =>
    "unexpected schema version " ++ toString found ++ " for " ++ kind ++ " (latest known is "
      ++ toString latest ++ ")"
  | .unmarshalable text => "failed to marshal patch operations: " ++ text
  | .invalidIdentity id =>
    "invalid identity " ++ Text.quoted id ++ ": expected <namespace>/<name>"

/-- The wordings of the causes behind a failure, the nearest first. -/
def causes : Failure → List String
  | .callFailed _ _ fault => fault.message :: fault.causes
  | .unmarshalable text => [text]
  | _ => []

/-- Whether a failure says that an object is absent. -/
def isNotFound : Failure → Bool
  | .notFound _ _ => true
  | _ => false

end Failure

end Reconcile

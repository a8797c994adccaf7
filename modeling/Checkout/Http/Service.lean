import Checkout.Gateway.Basic
import Checkout.Http.Body
import Checkout.Http.Envelope
import Checkout.Http.MediaType
import Checkout.Text.Blank
import Checkout.Text.Utf8

/-!
# The service

Two things can be asked for: whether the service is alive, and a checkout. A checkout needs a user,
who is named by a header that can be trusted, and a body in JSON. What is wrong with a request is
looked for in this sequence: its path, its method, its user, the type of its body, the size of its
body, the text of its body, and last the checkout that the body asks for. A checkout without fault
goes to the gateway, and `HttpResponse.ofOutcome` answers it when its outcome is known.
-/

namespace Checkout

/-- A request to the service. -/
structure HttpRequest where
  method : String
  target : String
  headers : List (String × String)
  body : ByteArray

/-- A response of the service. -/
structure HttpResponse where
  status : Status
  /-- The methods that could have been used instead. -/
  allow : Option String
  contentType : Option String
  body : Option Json

namespace HttpRequest

/-- What comes before query and fragment. -/
def beforeQuery (cs : List Char) : List Char := cs.takeWhile fun c => c ≠ '?' && c ≠ '#'

/-- A character of a scheme: a letter, a digit, or one of the four marks that may stand there. -/
def isSchemeChar (c : Char) : Bool := c.isAlphanum || c = '+' || c = '-' || c = '.' || c = '~'

/-- The path that is asked for, without query and fragment. The target is a path, or it names the
service before the path, with scheme, `://` and authority; if nothing follows these, the path is
`/`. Other targets ask for no path. -/
def path (r : HttpRequest) : List Char :=
  let target := r.target.toList
  if target.head? = some '/' then beforeQuery target
  else
    match target.dropWhile isSchemeChar with
    | ':' :: '/' :: '/' :: named =>
      let path := beforeQuery (named.dropWhile fun c => c ≠ '/' && c ≠ '?' && c ≠ '#')
      if path.isEmpty then ['/'] else path
    | _ => []

/-- A character that may be looked at in the value of a header. -/
def isVisible (c : Char) : Bool := c = '\t' || (0x20 ≤ c.toNat && c.toNat < 0x7F)

/-- The first value of a header, if all of it may be looked at. The name is in lower case. -/
def header? (r : HttpRequest) (name : String) : Option (List Char) :=
  (r.headers.find? (·.1.toLower = name)).bind fun h =>
    if h.2.toList.all isVisible then some h.2.toList else none

/-- The user who asks. -/
def user? (r : HttpRequest) : Option UserId :=
  (r.header? "x-user-id").bind fun value => Identifier.ofString? (String.ofList (Text.trim value))

/-- The body is said to be JSON. -/
def saysJson (r : HttpRequest) : Bool :=
  ((r.header? "content-type").bind MediaType.ofChars?).any (·.isJson)

end HttpRequest

namespace HttpResponse

/-- A response that is nothing but its status. -/
def empty (status : Status) : HttpResponse := ⟨status, none, none, none⟩

/-- A response in JSON. -/
def json (status : Status) (body : Json) : HttpResponse :=
  ⟨status, none, some "application/json", some body⟩

/-- Other methods could be used here. -/
def otherMethods (allow : String) : HttpResponse := { empty .methodNotAllowed with allow }

/-- The response that tells of a failure. -/
def failure (status : Status) (message code : String) : HttpResponse :=
  json status (Failure.new status message code).toJson

/-- Nobody knows who asks. -/
def unknownUser : HttpResponse := failure .unauthorized "認証されていません" "UNAUTHORIZED"

/-- The body cannot be read. -/
def unreadableBody (message : String) : HttpResponse :=
  failure .badRequest message "INVALID_REQUEST"

/-- A checkout failed, by a fault of the caller or not. -/
def ofError (e : CheckoutError) : HttpResponse :=
  failure (if e.isClientError then .badRequest else .internalError) e.message e.code

/-- The outcome of a checkout. An order whose total cannot be computed cannot be shown. -/
def ofOutcome : Outcome → HttpResponse
  | .error e => ofError e
  | .ok order =>
    match OrderView.ofOrder order with
    | .ok view =>
      json .created ((Success.new .created (⟨view⟩ : Receipt)).toJson Receipt.toJson)
    | .error fault =>
      failure .internalError (Refusal.invalidValue fault).message "INTERNAL_ERROR"

/-- The service is alive. -/
def healthy : HttpResponse :=
  json .ok (.object
    [ ("status", .string "healthy"),
      ("service", .string "order-checkout-batching"),
      ("version", .string "0.1.0") ])

end HttpResponse

/-! ### What a request asks for -/

/-- The things that can be asked for. -/
inductive Route where
  | health
  | checkout
  deriving DecidableEq

namespace Route

/-- The route of a path. -/
def ofPath? (path : List Char) : Option Route :=
  if path = "/health".toList then some health
  else if path = "/orders/checkout".toList then some checkout
  else none

end Route

/-- How a request is received: it is answered at once, or a checkout is made of it. -/
inductive Reception where
  | response (response : HttpResponse)
  | checkout (request : Request)

namespace HttpRequest

/-- How large a body may be, in bytes. -/
def bodyLimit : Nat := 2097152

/-- Reads the body of a checkout. -/
def readBody (r : HttpRequest) : Except HttpResponse Body :=
  if !r.saysJson then
    .error (.unreadableBody "Expected request with `Content-Type: application/json`")
  else if bodyLimit < r.body.size then .error (.unreadableBody "Failed to buffer the request body")
  else
    match Body.ofText (Text.symbols r.body.toList) with
    | .ok body => .ok body
    | .error .malformed =>
      .error (.unreadableBody "Failed to parse the request body as JSON")
    | .error .mismatched =>
      .error (.unreadableBody "Failed to deserialize the JSON body into the target type")

/-- The checkout that is asked for. -/
def checkout (r : HttpRequest) (trace : Uuid) (supply : Body.Supply) :
    Except HttpResponse Request := do
  match r.user? with
  | none => throw .unknownUser
  | some user =>
    let body ← r.readBody
    match body.toRequest user trace supply with
    | .ok request => return request
    | .error refusal => throw (.ofError (.validation refusal))

/-- Receives a request. -/
def receive (r : HttpRequest) (trace : Uuid) (supply : Body.Supply) : Reception :=
  match Route.ofPath? r.path with
  | none => .response (.empty .notFound)
  | some .health =>
    if r.method = "GET" then .response .healthy
    else if r.method = "HEAD" then .response { HttpResponse.healthy with body := none }
    else .response (.otherMethods "GET,HEAD")
  | some .checkout =>
    if r.method = "POST" then
      match r.checkout trace supply with
      | .ok request => .checkout request
      | .error response => .response response
    else .response (.otherMethods "POST")

end HttpRequest

end Checkout

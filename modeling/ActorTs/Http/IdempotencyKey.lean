import ActorTs.Library.Base64
import ActorTs.Library.FormUrlEncoded
import ActorTs.Library.Machine
import Mathlib

/-!
# The idempotency-key middleware

A request that carries an idempotency key is looked up in a cache under the caller's scope and
the key. What is found is answered again if the request is the same; otherwise the request
claims the entry, the handler runs, and its response takes the claim's place, or nothing does
if the handler throws.

Every call of the cache is a step of its own, so that the steps of concurrent requests come in any
order, and a request may stop for good between two of them. The scope and the handler's answer are
inputs.

A body is what JSON keeps of it, or bytes. The cache keeps a value as it is or as JSON text.
-/

namespace ActorTs.Http

inductive HttpMethod where
  | get | post | put | delete | patch | head | options
  deriving DecidableEq

def HttpMethod.text : HttpMethod → JsString
  | get => "GET"
  | post => "POST"
  | put => "PUT"
  | delete => "DELETE"
  | patch => "PATCH"
  | head => "HEAD"
  | options => "OPTIONS"

inductive QueryValue where
  | absent
  | one (value : JsString)
  | many (values : List JsString)

/-- A request. Its path is the pathname alone, which has neither a question mark nor a line
feed, and no surrogate that stands alone. -/
structure HttpRequest where
  method : HttpMethod
  path : JsString
  headers : OrderedMap JsString JsString
  query : OrderedMap JsString QueryValue
  body : Option Bytes
  pathNoQuery : 0x3F ∉ path
  pathNoLineFeed : 0x0A ∉ path
  pathPaired : Utf8.paired path = true

inductive HttpBody where
  | absent
  | bytes (bytes : Bytes)
  | json (value : Json)

structure HttpResponse where
  status : ℕ
  headers : Option (List (JsString × JsString))
  body : HttpBody
  contentType : Option JsString

/-- An answer of the middleware itself. -/
def complete (status : ℕ) (error : JsString) : HttpResponse :=
  ⟨status, none, .json (.obj [("error", .str error)]), none⟩

structure CachedResponse where
  status : ℕ
  headers : Option (List (JsString × JsString))
  body : Option Json
  contentType : Option JsString
  requestFingerprint : JsString

/-- How a cache keeps a value: the object itself, or its JSON text. -/
inductive Storage where
  | object | text

def Storage.keep : Storage → Json → Json
  | object => id
  | text => Json.normal

/-- What the middleware is given from outside: the digest, taken as injective, what `Buffer.from`
makes of a value that it is told to read as base64, and the cache's way to keep values. -/
structure Runtime where
  sha256 : Bytes → Bytes
  sha256Injective : Function.Injective sha256
  bufferFrom : Json → Option Bytes
  bufferFromText : ∀ s, bufferFrom (.str s) = some (Base64.decode s)
  storage : Storage

inductive MissingHeader where
  | reject | passThrough

structure IdempotencyOptions where
  header : JsString := "idempotency-key"
  keyPrefix : JsString := "idem:"
  missing : MissingHeader := .reject
  maxKeyLength : ℕ := 255
  maxScopeLength : ℕ := 255

/-- Whether a part of a key may not go into the cache, with the reason. -/
def keyRejectionReason (value : JsString) (maxLength : ℕ) : Option JsString :=
  if value.length > maxLength then
    some ("exceeds the " ++ JsonText.decimal maxLength ++ "-character limit (got " ++
      JsonText.decimal value.length ++ ")")
  else
    let index := value.findIdx fun charCode => charCode ≤ 0x20 || charCode == 0x7F
    value[index]?.map fun charCode =>
      "contains a control character or space at index " ++ JsonText.decimal index ++
        " (charCode=" ++ JsonText.decimal charCode.toNat ++ ")"

/-- A request that is let through to the cache, with its scope and key. -/
structure Call where
  request : HttpRequest
  scope : JsString
  key : JsString

def Call.caller (call : Call) : JsString × JsString := (call.scope, call.key)

/-- The scope and the key, joined by a colon unless there is no scope. -/
def Call.cacheKey (options : IdempotencyOptions) (call : Call) : JsString :=
  options.keyPrefix ++ call.scope ++ (if call.scope = [] then [] else ":") ++ call.key

inductive Admission where
  | passThrough
  | refused (response : HttpResponse)
  | threw
  | admitted (call : Call)

/-- What becomes of a request before the cache is asked; the scope is that of the identity,
which may throw. -/
def admission (options : IdempotencyOptions) (request : HttpRequest) (identity : Option JsString) :
    Admission :=
  let userKey := (request.headers.get? options.header).getD []
  if userKey = [] then
    match options.missing with
    | .passThrough => .passThrough
    | .reject =>
      .refused (complete 400 ("missing required '" ++ options.header ++ "' header"))
  else match keyRejectionReason userKey options.maxKeyLength with
    | some reason =>
      .refused (complete 400 ("invalid '" ++ options.header ++ "' header: " ++ reason))
    | none =>
      match identity with
      | none => .threw
      | some scope =>
        match keyRejectionReason scope options.maxScopeLength with
        | some reason => .refused (complete 400 ("invalid caller scope: " ++ reason))
        | none => .admitted ⟨request, scope, userKey⟩

/-- The parameters by name, the values of one name in the order they came in. -/
def queryPairs (query : OrderedMap JsString QueryValue) : List (JsString × JsString) :=
  (query.keys.mergeSort fun a b => decide (a ≤ b)).flatMap fun key =>
    match query.get? key with
    | some (.one value) => [(key, value)]
    | some (.many values) => values.map fun value => (key, value)
    | _ => []

def canonicalQuery (query : OrderedMap JsString QueryValue) : JsString :=
  FormUrlEncoded.serialize (queryPairs query)

def pathWithoutQuery (path : JsString) : JsString := path.takeWhile (· ≠ 0x3F)

def requestTarget (request : HttpRequest) : JsString :=
  let query := canonicalQuery request.query
  pathWithoutQuery request.path ++ if query = [] then [] else "?".toJs ++ query

/-- The bytes that are hashed: a line with the method and the target, and the body. -/
def fingerprintInput (request : HttpRequest) : Bytes :=
  Utf8.encode (request.method.text ++ " " ++ requestTarget request ++ "\n") ++
    request.body.getD []

def computeRequestFingerprint (runtime : Runtime) (request : HttpRequest) : JsString :=
  Base64.encode (runtime.sha256 (fingerprintInput request))

def binKey : JsString := "__bin"

/-- The response as the cache keeps it: bytes as an object with their base64 text. -/
def encodeResponse (runtime : Runtime) (response : HttpResponse) (fingerprint : JsString) :
    CachedResponse where
  status := response.status
  headers := response.headers
  body :=
    match response.body with
    | .absent => none
    | .bytes bytes => some (runtime.storage.keep (.obj [(binKey, .str (Base64.encode bytes))]))
    | .json value => some (runtime.storage.keep value)
  contentType := response.contentType
  requestFingerprint := fingerprint

/-- The member that makes a kept body one of bytes. -/
def binMember : Json → Option Json
  | .obj members => OrderedMap.lookup binKey members
  | _ => none

/-- What is answered again. Nothing is if the bytes cannot be read, which throws. -/
def decodeResponse (runtime : Runtime) (cached : CachedResponse) : Option HttpResponse :=
  let answer := fun body => ⟨cached.status, cached.headers, body, cached.contentType⟩
  match cached.body with
  | none => some (answer .absent)
  | some value =>
    match binMember value with
    | some bin => (runtime.bufferFrom bin).map fun bytes => answer (.bytes bytes)
    | none => some (answer (.json value))

inductive Entry where
  | inFlight
  | completed (response : CachedResponse)

inductive Phase where
  /-- About to look the key up. -/
  | probing
  /-- About to claim the key. -/
  | claiming
  | handling
  /-- The handler threw, and the claim is about to go. -/
  | failing
  /-- The handler answered, and the answer is about to be kept. -/
  | recording (response : HttpResponse)
  | answered (response : HttpResponse)
  | threw

structure Process where
  call : Call
  phase : Phase

/-- The response of the handler, or of the cache, to a call. -/
structure Exchange where
  call : Call
  response : HttpResponse

/-- The cache and the requests in progress; and what happened so far: what the handler
answered, what of it was kept, and what was answered from the cache. -/
structure World where
  processes : ℕ → Option Process
  cache : JsString → Option Entry
  completions : List Exchange
  records : List Exchange
  replays : List Exchange

namespace World

def init : World := ⟨fun _ => none, fun _ => none, [], [], []⟩

inductive Input where
  /-- A request comes in under a number of its own. -/
  | arrive (id : ℕ) (request : HttpRequest) (identity : Option JsString)
  | get (id : ℕ)
  | setIfAbsent (id : ℕ)
  /-- The handler answers, or it throws. -/
  | handler (id : ℕ) (response : Option HttpResponse)
  | delete (id : ℕ)
  | set (id : ℕ)

variable (options : IdempotencyOptions) (runtime : Runtime)

def inFlightConflict : HttpResponse := complete 409 "idempotency-key in-flight; retry shortly"

def differentRequest : HttpResponse :=
  complete 422 "idempotency-key already used with a different request"

def moveTo (w : World) (id : ℕ) (call : Call) (phase : Phase) : World :=
  { w with processes := Function.update w.processes id (some ⟨call, phase⟩) }

def onArrive (w : World) (id : ℕ) (request : HttpRequest) (identity : Option JsString) : World :=
  match w.processes id, admission options request identity with
  | none, .admitted call => w.moveTo id call .probing
  | _, _ => w

def onGet (w : World) (id : ℕ) (call : Call) : World :=
  match w.cache (call.cacheKey options) with
  | none => w.moveTo id call .claiming
  | some .inFlight => w.moveTo id call (.answered inFlightConflict)
  | some (.completed value) =>
    if value.requestFingerprint ≠ computeRequestFingerprint runtime call.request then
      w.moveTo id call (.answered differentRequest)
    else match decodeResponse runtime value with
      | none => w.moveTo id call .threw
      | some response =>
        { w.moveTo id call (.answered response) with
          replays := w.replays ++ [⟨call, response⟩] }

def onSetIfAbsent (w : World) (id : ℕ) (call : Call) : World :=
  match w.cache (call.cacheKey options) with
  | some _ => w.moveTo id call (.answered inFlightConflict)
  | none =>
    { w.moveTo id call .handling with
      cache := Function.update w.cache (call.cacheKey options) (some .inFlight) }

def onHandler (w : World) (id : ℕ) (call : Call) : Option HttpResponse → World
  | none => w.moveTo id call .failing
  | some response =>
    { w.moveTo id call (.recording response) with
      completions := w.completions ++ [⟨call, response⟩] }

def onDelete (w : World) (id : ℕ) (call : Call) : World :=
  { w.moveTo id call .threw with
    cache := Function.update w.cache (call.cacheKey options) none }

def onSet (w : World) (id : ℕ) (call : Call) (response : HttpResponse) : World :=
  { w.moveTo id call (.answered response) with
    cache := Function.update w.cache (call.cacheKey options) (some (.completed
      (encodeResponse runtime response (computeRequestFingerprint runtime call.request))))
    records := w.records ++ [⟨call, response⟩] }

/-- An input is taken by the request that is in the phase for it, and is nothing otherwise. -/
def step (w : World) : Input → World
  | .arrive id request identity => w.onArrive options id request identity
  | .get id =>
    match w.processes id with
    | some ⟨call, .probing⟩ => w.onGet options runtime id call
    | _ => w
  | .setIfAbsent id =>
    match w.processes id with
    | some ⟨call, .claiming⟩ => w.onSetIfAbsent options id call
    | _ => w
  | .handler id response =>
    match w.processes id with
    | some ⟨call, .handling⟩ => w.onHandler id call response
    | _ => w
  | .delete id =>
    match w.processes id with
    | some ⟨call, .failing⟩ => w.onDelete options id call
    | _ => w
  | .set id =>
    match w.processes id with
    | some ⟨call, .recording response⟩ => w.onSet options runtime id call response
    | _ => w

/-- The world once the inputs of a run are taken. -/
def run (inputs : List Input) : World := Machine.run (step options runtime) init inputs

end World

end ActorTs.Http

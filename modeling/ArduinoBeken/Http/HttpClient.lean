import ArduinoBeken.Http.Cookies
import ArduinoBeken.Library.Arrivals

/-!
# The HTTP Client

The object `HTTPClient` with the fields its functions read and set, and the
functions that touch nothing else. Fields and functions bear the names of the
source, without the leading underscore.

The connection is a client object elsewhere, named by a number, and what comes
in on it is a stream of characters. The timeouts are not numbers here: a pause
that outlasts them is a silence of the stream.

## Main definitions

* `HTTPClient`: The object.
* `TransportTraits`, `TlsConfig`: What a client object is made from.
* `HTTPClient.clear`, `HTTPClient.addHeader`, `HTTPClient.collectHeaders`: The
  functions on fields.

## Theorems

* `addHeader_frame`: Adding a header changes the header block only.
-/

namespace ArduinoBeken

namespace Http

/-- `transferEncoding_t`. -/
inductive TransferEncoding where
  | identity
  | chunked
deriving DecidableEq, Repr

/-- `followRedirects_t`. -/
inductive FollowRedirects where
  | disable
  | strict
  | force
deriving DecidableEq, Repr

/-- What `TLSTraits` hands to a secure client. Without an authority the client
is set insecure. -/
structure TlsConfig where
  cacert : Option Text
  clicert : Option Text
  clikey : Option Text
deriving DecidableEq, Repr

/-- `TransportTraits`, and `TLSTraits` with its strings. -/
inductive TransportTraits where
  | plain
  | tls (config : TlsConfig)
deriving DecidableEq, Repr

/-- A header that is collected, by name, with its last value. -/
structure RequestArgument where
  key : Text
  value : Text
deriving DecidableEq, Repr

/-- The members of the object, but for the connection, which an object of its own has. -/
structure HTTPClient where
  transportTraits : Option TransportTraits := none
  tcpDeprecated : Option Nat := none
  client : Option Nat := none
  host : Text := []
  port : Nat := 0
  reuse : Bool := true
  useHTTP10 : Bool := false
  secure : Bool := false
  uri : Text := []
  protocol : Text := []
  headers : Text := []
  userAgent : Text := "BK-IDK-HTTPClient".toList
  base64Authorization : Text := []
  authorizationType : Text := "Basic".toList
  currentHeaders : List RequestArgument := []
  returnCode : Int := 0
  size : Int := -1
  canReuse : Bool := false
  followRedirects : FollowRedirects := .disable
  redirectLimit : Nat := 10
  location : Text := []
  transferEncoding : TransferEncoding := .identity
  cookieJar : Option CookieJar := none
deriving DecidableEq, Repr

/-! ### Errors -/

/-- `HTTPC_ERROR_CONNECTION_REFUSED`. -/
def errorConnectionRefused : Int := -1
/-- `HTTPC_ERROR_SEND_HEADER_FAILED`. -/
def errorSendHeaderFailed : Int := -2
/-- `HTTPC_ERROR_SEND_PAYLOAD_FAILED`. -/
def errorSendPayloadFailed : Int := -3
/-- `HTTPC_ERROR_NOT_CONNECTED`. -/
def errorNotConnected : Int := -4
/-- `HTTPC_ERROR_CONNECTION_LOST`. -/
def errorConnectionLost : Int := -5
/-- `HTTPC_ERROR_NO_HTTP_SERVER`. -/
def errorNoHttpServer : Int := -7
/-- `HTTPC_ERROR_ENCODING`. -/
def errorEncoding : Int := -9
/-- `HTTPC_ERROR_STREAM_WRITE`. -/
def errorStreamWrite : Int := -10
/-- `HTTPC_ERROR_READ_TIMEOUT`. -/
def errorReadTimeout : Int := -11

namespace HTTPClient

/-- `clear`: the status, the size and the header block. Nothing else is cleared. -/
def clear (c : HTTPClient) : HTTPClient :=
  { c with returnCode := 0, size := -1, headers := [] }

/-- The names that `addHeader` refuses. -/
def handledByCode (c : HTTPClient) (name : Text) : Bool :=
  equalsIgnoreCase name "Connection".toList || equalsIgnoreCase name "User-Agent".toList ||
    equalsIgnoreCase name "Host".toList ||
    (equalsIgnoreCase name "Authorization".toList && !c.base64Authorization.isEmpty)

/-- The header block without the line that begins with the given text. -/
def dropLine (headers start : Text) : Text :=
  let headerStart := indexOf headers start 0
  if headerStart ≠ -1 ∧ (headerStart = 0 ∨ headers[(headerStart - 1).toNat]? = some '\n') then
    let headerEnd := indexOfChar headers '\n' headerStart
    substring headers 0 headerStart ++ substringFrom headers (headerEnd + 1)
  else headers

/-- The header block with one line more. -/
def withLine (headers name value : Text) (first replace : Bool) : Text :=
  let headerLine := name ++ ": ".toList
  let headers := if replace then dropLine headers headerLine else headers
  let headerLine := headerLine ++ value ++ "\r\n".toList
  if first then headerLine ++ headers else headers ++ headerLine

/-- `addHeader`: a line goes to the block, unless the code writes it itself. -/
def addHeader (c : HTTPClient) (name value : Text) (first replace : Bool) : HTTPClient :=
  if c.handledByCode name then c
  else { c with headers := withLine c.headers name value first replace }

/-- `collectHeaders`: from now on these names are collected, and no others. -/
def collectHeaders (c : HTTPClient) (headerKeys : List Text) : HTTPClient :=
  { c with currentHeaders := headerKeys.map fun key => ⟨key, []⟩ }

/-- The values collected from an earlier response are wiped out. -/
def wipeHeaders (c : HTTPClient) : HTTPClient :=
  { c with currentHeaders := c.currentHeaders.map fun h => { h with value := [] } }

/-- The first collected header of the name gets the value. -/
def collect (name value : Text) : List RequestArgument → List RequestArgument
  | [] => []
  | h :: hs =>
    if equalsIgnoreCase h.key name then { h with value := value } :: hs
    else h :: collect name value hs

/-- Adding a header changes the header block only. -/
theorem addHeader_frame (c : HTTPClient) (name value : Text) (first replace : Bool) :
    c.addHeader name value first replace =
      { c with headers := (c.addHeader name value first replace).headers } := by
  unfold addHeader
  split <;> rfl

end HTTPClient

end Http

end ArduinoBeken

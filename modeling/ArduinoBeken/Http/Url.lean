import ArduinoBeken.Http.HttpClient

/-!
# URLs and Credentials

What `beginInternal` and `setURL` read in a URL, and the Base64 form in which a
credential is kept.

## Main definitions

* `base64Encode`: The encoding, three bytes at a time.
* `urlProtocol`, `Url`, `readUrl`: The parts of a URL.
* `portFor`, `namesPort`: The port a redirect starts from.
-/

namespace ArduinoBeken

namespace Http

/-! ### Base64 -/

/-- A digit of base 64. -/
def base64EncodeValue (value : Nat) : Char :=
  ("ABCDEFGHIJKLMNOPQRSTUVWXYZabcdefghijklmnopqrstuvwxyz0123456789+/".toList[value]?).getD '='

/-- `base64::encode`, on the bytes of the text. -/
def base64Encode : Text → Text
  | [] => []
  | [a] =>
    [base64EncodeValue (a.toNat / 4 % 64), base64EncodeValue (a.toNat % 4 * 16), '=', '=']
  | [a, b] =>
    [base64EncodeValue (a.toNat / 4 % 64),
      base64EncodeValue (a.toNat % 4 * 16 + b.toNat / 16 % 16),
      base64EncodeValue (b.toNat % 16 * 4), '=']
  | a :: b :: c :: text =>
    base64EncodeValue (a.toNat / 4 % 64) ::
      base64EncodeValue (a.toNat % 4 * 16 + b.toNat / 16 % 16) ::
        base64EncodeValue (b.toNat % 16 * 4 + c.toNat / 64 % 4) ::
          base64EncodeValue (c.toNat % 64) :: base64Encode text

/-! ### URLs -/

/-- The text before the first colon. -/
def urlProtocol (url : Text) : Option Text :=
  let index := indexOfChar url ':' 0
  if index < 0 then none else some (substring url 0 index)

/-- What `beginInternal` takes from a URL behind its protocol. -/
structure Url where
  auth : Option Text
  host : Text
  port : Option Nat
  uri : Text
deriving DecidableEq, Repr

/-- The host and the port of an authority without a credential. A port is a
`uint16_t`. -/
def readHost (auth : Option Text) (host uri : Text) : Url :=
  let index := indexOfChar host ':' 0
  if 0 ≤ index then
    { auth, host := substring host 0 index,
      port := some (toInt (remove host 0 (index + 1).toNat) % 65536).toNat, uri }
  else { auth, host, port := none, uri }

/-- The parts of a URL, as `beginInternal` cuts them. -/
def readUrl (url : Text) : Url :=
  let url := remove url 0 (indexOfChar url ':' 0 + 3).toNat
  let slash := indexOfChar url '/' 0
  let index := if slash = -1 then (url.length : Int) else slash
  let url := if slash = -1 then url ++ ['/'] else url
  let host := substring url 0 index
  let uri := remove url 0 index.toNat
  let index := indexOfChar host '@' 0
  if 0 ≤ index then
    readHost (some (substring host 0 index)) (remove host 0 (index + 1).toNat) uri
  else readHost none host uri

/-- The port of a scheme. -/
def portFor (protocol : Text) : Nat :=
  if protocol = "https".toList then 443 else 80

/-- The test by which `setURL` takes a URL to name its port. -/
def namesPort (url : Text) : Bool :=
  let indexPort := indexOfChar url ':' 6
  let indexURI := indexOfChar url '/' 7
  !(decide (indexPort = -1) || decide (indexPort > indexURI))

/-- A location that is a path only. -/
def isPath (url : Text) : Bool :=
  decide (url.head? = some '/')

example : readUrl "http://me:pw@shop.example:8080/cart".toList =
    ⟨some "me:pw".toList, "shop.example".toList, some 8080, "/cart".toList⟩ := by decide

end Http

end ArduinoBeken

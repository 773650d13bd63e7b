import Dormouse.Lib.Challenge
import Dormouse.Lib.Json

/-!
# Dormouse.Control.Protocol

The **handshake of the `dor` control channel**, in the words that both halves of it share
(`standalone/sidecar/dor-control-server.js` and `dor/src/control-client.ts`).
-/

namespace Dormouse.Control

/-- `node:crypto` and `JSON.parse`. -/
structure ControlPlatform where
  hmacSha256 : JsString → JsString → JsString
  sha256 : JsString → JsString
  parseJson : JsString → Option Json

def CLIENT_PROOF_DOMAIN : JsString := js "dor-control/client"

def SERVER_PROOF_DOMAIN : JsString := js "dor-control/server"

namespace ControlPlatform

def proveToken (platform : ControlPlatform) (token domain nonce : JsString) : JsString :=
  platform.hmacSha256 token (domain ++ js " " ++ nonce)

/-- Both sides are hashed to one length before they are compared. -/
def proofMatches (platform : ControlPlatform) (provided : Option Json) (expected : JsString) :
    Bool :=
  match provided with
  | some (.string proof) => platform.sha256 proof = platform.sha256 expected
  | _ => false

end ControlPlatform

/-! ### Lines -/

/-- The complete lines of a buffer, and what is behind the last line feed. -/
def splitLines : JsString → List JsString × JsString
  | [] => ([], [])
  | c :: text =>
    let (lines, rest) := splitLines text
    if c = unit '\n' then ([] :: lines, rest)
    else
      match lines with
      | [] => ([], c :: rest)
      | line :: lines => ((c :: line) :: lines, rest)

/-! ### A connection

The frames of one connection, under the token `d0r`. -/

def exampleChallenge : JsString := js "0f0f0f0f0f0f0f0f0f0f0f0f0f0f0f0f"

/-- The HMAC of `dor-control/client` and the challenge. -/
def exampleClientProof : JsString :=
  js "72b92bb77c238b522f3602747f7d503ce4b68527625f8eaaad340538ca8aa1a1"

/-- The HMAC of `dor-control/server` and the nonce `a1`. -/
def exampleServerProof : JsString :=
  js "8db8b25399381f77c6621d01fa650b30e3066295c91db2047ab460f49c0b7098"

def exampleChallengeLine : JsString :=
  js "\x7b\"kind\":\"challenge\",\"nonce\":\"" ++ exampleChallenge ++ js "\"\x7d"

def exampleHello : JsString :=
  js "\x7b\"kind\":\"hello\",\"nonce\":\"a1\",\"proof\":\"" ++ exampleClientProof ++ js "\"\x7d"

def exampleWelcome : JsString :=
  js "\x7b\"kind\":\"welcome\",\"proof\":\"" ++ exampleServerProof ++ js "\"\x7d"

def exampleRequest : JsString :=
  js "\x7b\"requestId\":\"r1\",\"method\":\"surface.list\"\x7d"

/-- `JSON.parse` of these frames. -/
def exampleParse (text : JsString) : Option Json :=
  if text = js "null" then some .null
  else if text = exampleChallengeLine then
    some (.object [(js "kind", .string (js "challenge")), (js "nonce", .string exampleChallenge)])
  else if text = exampleHello then
    some (.object [(js "kind", .string (js "hello")), (js "nonce", .string (js "a1")),
      (js "proof", .string exampleClientProof)])
  else if text = exampleWelcome then
    some (.object [(js "kind", .string (js "welcome")), (js "proof", .string exampleServerProof)])
  else if text = exampleRequest then
    some (.object [(js "requestId", .string (js "r1")),
      (js "method", .string (js "surface.list"))])
  else none

end Dormouse.Control

import Dormouse.Security.Ceremony

/-!
# Dormouse.Burrow.Invitation

The **pairing invitation** and the prologues the two handshakes run under
(`remote-lib-common/src/security/pairing-invitation.ts`, `noise-transport.ts`).
-/

namespace Dormouse.Burrow

open Noise (Bytes)
open Security (utf8Encode lengthPrefixedConcat)

def pairingInvitationVersion : JsString := js "1"

def expiryDigits : Nat := 10

def maxUint32 : Int := 0xffffffff

/-- One invitation, as the Burrow holds it and the Client reads it back. -/
structure PairingInvitation where
  burrowId : JsString
  inviteId : JsString
  /-- Epoch seconds. -/
  expiry : Int
  setupToken : JsString
  ephPub : Bytes
  ephPubBase64Url : JsString
  deriving DecidableEq

/-- Epoch seconds as exactly ten digits; a value that is no `uint32` throws. -/
def formatInvitationExpiry (expirySeconds : Int) : Option JsString :=
  if expirySeconds < 0 ∨ maxUint32 < expirySeconds then none
  else
    let digits := JsString.ofInt expirySeconds
    some (List.replicate (expiryDigits - digits.length) (unit '0') ++ digits)

/-- The invitation fields the pairing prologue binds, in the order the QR carries them. -/
def pairingInvitationFields (invitation : PairingInvitation) : Option (List JsString) :=
  (formatInvitationExpiry invitation.expiry).map fun expiry =>
    [pairingInvitationVersion, invitation.inviteId, expiry, invitation.setupToken,
      invitation.ephPubBase64Url]

def e2ePrologueDomain : JsString := js "dormouse/e2e/v1"

def e2ePrologue (kind burrowId : JsString) (extra : List JsString) : Bytes :=
  lengthPrefixedConcat
    ([utf8Encode e2ePrologueDomain, utf8Encode kind, utf8Encode burrowId] ++ extra.map utf8Encode)

def e2ePairingPrologue (burrowId : JsString) (invitationFields : List JsString) : Bytes :=
  e2ePrologue (js "pairing") burrowId invitationFields

def e2eConnectionPrologue (burrowId connectionId : JsString) : Bytes :=
  e2ePrologue (js "connection") burrowId [connectionId]

/-- The pairing prologue for one invitation. -/
def pairingInvitationPrologue (invitation : PairingInvitation) : Option Bytes :=
  (pairingInvitationFields invitation).map (e2ePairingPrologue invitation.burrowId)

end Dormouse.Burrow

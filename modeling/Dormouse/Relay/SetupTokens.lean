import Dormouse.Burrow.Model
import Dormouse.Security.Presence

/-!
# Dormouse.Relay.SetupTokens

**Setup tokens** (`relay/src/setup-token.ts`) and the routes that spend them
(`relay/src/app.ts`): mint, `begin`, `finish` and `retire`, with everything a request waits
for in between.

Each stretch of a route from one `await` to the next is one step of the system; `now` is
what the clock reads during it. The state files are the environment's: it may edit them
between any two steps, and any read or write of them may fail.
-/

namespace Dormouse.Relay

open Noise (Bytes)
open Security
open Terminal (Ms)
open Burrow (maxTokensPerBurrow defaultPairingTtlMs)

/-! ### The issuer -/

/-- What a live token resolves to: the Burrow that minted it, and when it dies. -/
structure SetupTokenEntry where
  burrowId : JsString
  expiresAt : Ms
  deriving DecidableEq

def setupTokenTtlMs : Ms := defaultPairingTtlMs

structure SetupTokenIssuer where
  tokens : InsertionMap JsString SetupTokenEntry

namespace SetupTokenIssuer

def fresh : SetupTokenIssuer := ⟨.empty⟩

def pruneExpired (issuer : SetupTokenIssuer) (now : Ms) : SetupTokenIssuer :=
  ⟨issuer.tokens.filter fun _ entry => decide (now < entry.expiresAt)⟩

/-- One Burrow's tokens, oldest expiry first. -/
def own (issuer : SetupTokenIssuer) (burrowId : JsString) : List (JsString × SetupTokenEntry) :=
  (issuer.tokens.entries.filter fun e => e.2.burrowId = burrowId).mergeSort
    fun left right => left.2.expiresAt ≤ right.2.expiresAt

/-- Keep only `limit` tokens for one Burrow. -/
def trimBurrow (issuer : SetupTokenIssuer) (burrowId : JsString) (limit : Nat) :
    SetupTokenIssuer :=
  let own := issuer.own burrowId
  ⟨((own.take (own.length - limit)).map Prod.fst).foldl InsertionMap.delete issuer.tokens⟩

def prune (issuer : SetupTokenIssuer) (burrowId : JsString) (now : Ms) : SetupTokenIssuer :=
  (issuer.pruneExpired now).trimBurrow burrowId (maxTokensPerBurrow - 1)

/-- Mint the token of these random bytes, pruning first. -/
def issue (issuer : SetupTokenIssuer) (burrowId : JsString) (random : Bytes) (now : Ms) :
    SetupTokenIssuer × JsString × SetupTokenEntry :=
  let token := toBase64Url random
  let entry : SetupTokenEntry := ⟨burrowId, now + setupTokenTtlMs⟩
  (⟨(issuer.prune burrowId now).tokens.set token entry⟩, token, entry)

/-- Resolve a token without spending it. -/
def peek (issuer : SetupTokenIssuer) (token : JsString) (now : Ms) :
    SetupTokenIssuer × Option SetupTokenEntry :=
  match issuer.tokens.get token with
  | none => (issuer, none)
  | some entry =>
    if entry.expiresAt ≤ now then (⟨issuer.tokens.delete token⟩, none) else (issuer, some entry)

/-- Spend a token; it is gone either way. -/
def consume (issuer : SetupTokenIssuer) (token : JsString) (now : Ms) :
    SetupTokenIssuer × Option SetupTokenEntry :=
  match issuer.tokens.get token with
  | none => (issuer, none)
  | some entry =>
    (⟨issuer.tokens.delete token⟩, if now < entry.expiresAt then some entry else none)

/-- Put a consumed token back, with its original expiry. -/
def restore (issuer : SetupTokenIssuer) (token : JsString) (entry : SetupTokenEntry) (now : Ms) :
    SetupTokenIssuer :=
  if entry.expiresAt ≤ now then issuer
  else
    let issuer : SetupTokenIssuer := ⟨issuer.tokens.delete token⟩
    let issuer := (issuer.pruneExpired now).trimBurrow entry.burrowId (maxTokensPerBurrow - 1)
    ⟨issuer.tokens.set token entry⟩

end SetupTokenIssuer

/-! ### Requests -/

inductive SetupRoute
  | begin
  | finish
  | retire
  deriving DecidableEq

structure StoredPasskey where
  credentialId : JsString
  publicKey : JsString
  label : JsString
  createdAt : Ms
  deriving DecidableEq

/-- What a request on one of the routes waits for. -/
inductive SetupWait
  /-- The gate has taken the token's entry, and asks whether its Burrow is enrolled. -/
  | enrollment (route : SetupRoute) (body : Json) (token : JsString) (entry : SetupTokenEntry)
  /-- `burrows.json` has answered; `none` when it could not be read. -/
  | gate (route : SetupRoute) (body : Json) (token : JsString) (entry : SetupTokenEntry)
      (enrolled : Option Bool)
  /-- `begin`, for the account. -/
  | account (challenge : JsString)
  /-- `finish`, for the import of the public key. -/
  | importing (body : Json) (token : JsString) (entry : SetupTokenEntry)
  /-- `finish`, for `appendPasskey`. -/
  | appending (credentialId publicKey label : JsString) (token : JsString)
      (entry : SetupTokenEntry)

structure SetupRequest where
  number : Nat
  wait : SetupWait

inductive SetupAnswer
  | begun (challenge rpId : JsString) (existingCredentialIds : List JsString)
  | finished (credentialId : JsString)
  | retired
  | refused (status : Nat) (error : JsString)
  | crashed
  deriving DecidableEq

/-- What has become of the tokens. -/
inductive SetupEvent
  | issued (token : JsString) (entry : SetupTokenEntry)
  | admitted (request : Nat) (token : JsString) (entry : SetupTokenEntry)
      (enrolled : List JsString)
  | registered (request : Nat) (token : JsString) (passkey : StoredPasskey)
  | retired (request : Nat) (token : JsString)
  deriving DecidableEq

/-- The relay as far as these routes use it, and their requests in flight. `enrolled` and
`passkeys` are what `burrows.json` and `account.json` hold, `none` when unreadable. -/
structure SetupRelay where
  setupTokens : SetupTokenIssuer
  setupChallenges : ChallengeIssuer
  enrolled : Option (List JsString)
  passkeys : Option (List StoredPasskey)
  requests : List SetupRequest
  nextRequest : Nat
  answers : List (Nat × SetupAnswer)
  history : List SetupEvent

def setupTokenInvalidError : JsString := js "invalid setup token"

def maxPendingChallenges : Nat := 64

def maxPasskeyLabelLength : Nat := 64

/-- `ChallengeIssuer.issue` under `maxPending`: the oldest go first. -/
def issueCapped (issuer : ChallengeIssuer) (random : Bytes) (now : Ms) (maxPending : Nat) :
    ChallengeIssuer × JsString :=
  let swept := issuer.sweepExpiredPrefix now
  let room := (swept.pending.keys.take (swept.pending.size + 1 - maxPending)).foldl
    InsertionMap.delete swept.pending
  let challenge := toBase64Url random
  (⟨room.set challenge (now + defaultChallengeTtlMs)⟩, challenge)

/-- How the app is set up: its own origin, and `JSON.parse` of decoded bytes. -/
structure SetupConfig where
  origin : JsString
  rpId : JsString
  parseJson : Bytes → Option Json

namespace SetupConfig

variable (config : SetupConfig)

def decodeClientData (body : Json) : Option Json := do
  let bytes ← fromBase64Url (← body.stringField (js "clientDataJSON"))
  (config.parseJson bytes).filter Json.isObject

end SetupConfig

/-- Canonicalize browser-serialized base64url challenges. -/
def normalizeChallenge (clientData : Json) : Option JsString :=
  ((clientData.stringField (js "challenge")).bind fromBase64Url).map toBase64Url

/-- What `finish` checks before it waits for the import; the challenge is spent on the way. -/
def finishChecks (config : SetupConfig) (challenges : ChallengeIssuer) (body : Json) (now : Ms) :
    ChallengeIssuer × Option JsString :=
  match config.decodeClientData body with
  | none => (challenges, some (js "malformed clientDataJSON"))
  | some clientData =>
  if clientData.stringField (js "type") ≠ some (js "webauthn.create") then
    (challenges, some (js "clientData type must be webauthn.create"))
  else
  match normalizeChallenge clientData with
  | none => (challenges, some (js "unrecognized or expired challenge"))
  | some [] => (challenges, some (js "unrecognized or expired challenge"))
  | some challenge =>
  let (challenges, live) := challenges.consume challenge now
  if live = false then (challenges, some (js "unrecognized or expired challenge"))
  else if clientData.stringField (js "origin") ≠ some config.origin then
    (challenges, some (js "origin mismatch"))
  else (challenges, none)

namespace SetupRelay

def fresh (enrolled : Option (List JsString)) (passkeys : Option (List StoredPasskey)) :
    SetupRelay :=
  ⟨.fresh, .fresh, enrolled, passkeys, [], 0, [], []⟩

def answer (s : SetupRelay) (request : Nat) (answer : SetupAnswer) : SetupRelay :=
  { s with answers := s.answers ++ [(request, answer)] }

def record (s : SetupRelay) (event : SetupEvent) : SetupRelay :=
  { s with history := s.history ++ [event] }

/-- The request at `i` goes on to wait for something else. -/
def suspend (s : SetupRelay) (i : Nat) (request : SetupRequest) : SetupRelay :=
  { s with requests := s.requests.set i request }

/-- The request at `i` is done. -/
def complete (s : SetupRelay) (i : Nat) : SetupRelay :=
  { s with requests := s.requests.eraseIdx i }

/-- The `finally` of `finish`, and the gate's own `catch`. -/
def restore (s : SetupRelay) (token : JsString) (entry : SetupTokenEntry) (now : Ms) :
    SetupRelay :=
  { s with setupTokens := s.setupTokens.restore token entry now }

/-- `POST /api/burrow/setup-token`, of an enrolled Burrow. -/
def mint (s : SetupRelay) (burrowId : JsString) (random : Bytes) (now : Ms) : SetupRelay :=
  let (issuer, token, entry) := s.setupTokens.issue burrowId random now
  { s with setupTokens := issuer }.record (.issued token entry)

/-- A request arrives: `readSetupGated`, up to its first `await`. -/
def receive (s : SetupRelay) (route : SetupRoute) (body : Option Json) (now : Ms) : SetupRelay :=
  let number := s.nextRequest
  let s := { s with nextRequest := number + 1 }
  match body.bind fun body => (body.stringField (js "setupToken")).map (body, ·) with
  | none => s.answer number (.refused 401 setupTokenInvalidError)
  | some (body, token) =>
    let (issuer, entry) :=
      if route = .begin then s.setupTokens.peek token now else s.setupTokens.consume token now
    let s := { s with setupTokens := issuer }
    match entry with
    | none => s.answer number (.refused 401 setupTokenInvalidError)
    | some entry =>
      { s with requests := s.requests ++ [⟨number, .enrollment route body token entry⟩] }

/-- `burrowStore.has`: the file is read as it is now. -/
def readEnrolled (s : SetupRelay) (i : Nat) : SetupRelay :=
  match s.requests[i]? with
  | some ⟨number, .enrollment route body token entry⟩ =>
    match s.enrolled with
    | none => s.suspend i ⟨number, .gate route body token entry none⟩
    | some rows =>
      if rows.contains entry.burrowId then
        (s.suspend i ⟨number, .gate route body token entry (some true)⟩).record
          (.admitted number token entry rows)
      else s.suspend i ⟨number, .gate route body token entry (some false)⟩
  | _ => s

/-- The gate resumes, and with it the route. -/
def passGate (config : SetupConfig) (s : SetupRelay) (i : Nat) (random : Bytes) (now : Ms) :
    SetupRelay :=
  match s.requests[i]? with
  | some ⟨number, .gate route body token entry enrolled⟩ =>
    match enrolled with
    | none =>
      -- An unreadable file does not establish revocation.
      let s := if route = .begin then s else s.restore token entry now
      (s.complete i).answer number .crashed
    | some false => (s.complete i).answer number (.refused 401 setupTokenInvalidError)
    | some true =>
      match route with
      | .begin =>
        let (challenges, challenge) :=
          issueCapped s.setupChallenges random now maxPendingChallenges
        { s with setupChallenges := challenges }.suspend i ⟨number, .account challenge⟩
      | .retire => ((s.complete i).record (.retired number token)).answer number .retired
      | .finish =>
        let (challenges, error) := finishChecks config s.setupChallenges body now
        let s := { s with setupChallenges := challenges }
        match error with
        | some error =>
          ((s.complete i).restore token entry now).answer number (.refused 400 error)
        | none => s.suspend i ⟨number, .importing body token entry⟩
  | _ => s

/-- `begin` has its account. -/
def loadAccount (config : SetupConfig) (s : SetupRelay) (i : Nat) : SetupRelay :=
  match s.requests[i]? with
  | some ⟨number, .account challenge⟩ =>
    match s.passkeys with
    | none => (s.complete i).answer number .crashed
    | some passkeys =>
      (s.complete i).answer number
        (.begun challenge config.rpId (passkeys.map (·.credentialId)))
  | _ => s

/-- `importableSpkiP256` has answered; `imports` is what WebCrypto says of the key's bytes. -/
def keyImported (s : SetupRelay) (i : Nat) (imports : Bytes → Bool) (now : Ms) : SetupRelay :=
  match s.requests[i]? with
  | some ⟨number, .importing body token entry⟩ =>
    match (body.stringField (js "publicKey")).filter fun key =>
      (fromBase64Url key).any imports with
    | none =>
      ((s.complete i).restore token entry now).answer number
        (.refused 400 (js "unimportable public key"))
    | some publicKey =>
      match (body.stringField (js "credentialId")).filter
        (isBoundedBase64Url · ceremonyFieldLimit) with
      | none =>
        ((s.complete i).restore token entry now).answer number
          (.refused 400 (js "malformed credentialId"))
      | some credentialId =>
        let label := match body.stringField (js "label") with
          | some label => boundedPushText label maxPasskeyLabelLength []
          | none => []
        s.suspend i ⟨number, .appending credentialId publicKey label token entry⟩
  | _ => s

/-- `appendPasskey` has its turn on the account file; `fails` when a read or write of it
does. -/
def appendPasskey (s : SetupRelay) (i : Nat) (fails : Bool) (now : Ms) : SetupRelay :=
  match s.requests[i]? with
  | some ⟨number, .appending credentialId publicKey label token entry⟩ =>
    match if fails then none else s.passkeys with
    | none => ((s.complete i).restore token entry now).answer number .crashed
    | some passkeys =>
      if passkeys.any (·.credentialId = credentialId) then
        ((s.complete i).restore token entry now).answer number
          (.refused 409 (js "credential already registered"))
      else
        let passkey : StoredPasskey := ⟨credentialId, publicKey, label, now⟩
        (({ s.complete i with passkeys := some (passkeys ++ [passkey]) }).record
          (.registered number token passkey)).answer number (.finished credentialId)
  | _ => s

end SetupRelay

/-! ### Runs -/

/-- Anything that can happen on these routes; `i` is a place among the requests in flight. -/
inductive SetupAct
  | mint (burrowId : JsString) (random : Bytes) (now : Ms)
  | receive (route : SetupRoute) (body : Option Json) (now : Ms)
  | readEnrolled (i : Nat)
  | passGate (i : Nat) (random : Bytes) (now : Ms)
  | loadAccount (i : Nat)
  | keyImported (i : Nat) (imports : Bytes → Bool) (now : Ms)
  | appendPasskey (i : Nat) (fails : Bool) (now : Ms)
  | editBurrows (enrolled : Option (List JsString))
  | editAccount (passkeys : Option (List StoredPasskey))

namespace SetupRelay

variable (config : SetupConfig)

def perform (s : SetupRelay) : SetupAct → SetupRelay
  | .mint burrowId random now => s.mint burrowId random now
  | .receive route body now => s.receive route body now
  | .readEnrolled i => s.readEnrolled i
  | .passGate i random now => s.passGate config i random now
  | .loadAccount i => s.loadAccount config i
  | .keyImported i imports now => s.keyImported i imports now
  | .appendPasskey i fails now => s.appendPasskey i fails now
  | .editBurrows enrolled => { s with enrolled := enrolled }
  | .editAccount passkeys => { s with passkeys := passkeys }

/-- The random bytes of a mint are none that a token was made of before. -/
def FreshToken (s : SetupRelay) : SetupAct → Prop
  | .mint _ random _ => ∀ entry, .issued (toBase64Url random) entry ∉ s.history
  | _ => True

/-- All runs of the routes. -/
def setupRuns : System SetupRelay SetupAct where
  init s := ∃ enrolled passkeys, s = fresh enrolled passkeys
  step s act s' := s.FreshToken act ∧ s' = s.perform config act

end SetupRelay

end Dormouse.Relay

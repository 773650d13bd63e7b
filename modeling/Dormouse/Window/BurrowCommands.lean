import Dormouse.Lib.Desk
import Dormouse.Lib.InsertionMap
import Dormouse.Lib.JsString
import Dormouse.Lib.Json

/-!
# Dormouse.Window.BurrowCommands

The Burrow's **commands in one window** (`vscode-ext/src/burrow.ts`): a command of the window's own
webviews is run here, forwarded to the window that serves, held until a role settles, or refused; a
command another window forwarded is run here, and its route says whom the answer goes to.

The service, the link and the disk are the environment: they answer what they were handed, in any
order and after any delay. The log beside the state records what was asked and answered, and what
the code did with it.
-/

namespace Dormouse.Window

/-- A `PeerLinkClient`, by the identity of the object. -/
abbrev PeerLinkClient := Nat

structure BurrowCommand where
  burrowRequestId : JsString
  cmd : JsString
  params : Option Json

/-- `result`, or `error`. -/
inductive Outcome
  | result (value : Json)
  | error (message : JsString)

structure BurrowResult where
  burrowRequestId : JsString
  outcome : Outcome

/-- `isBurrowCommand`, with what it narrows to. -/
def isBurrowCommand (value : Option Json) : Option BurrowCommand := do
  let command ← value
  let burrowRequestId ← command.stringField (js "burrowRequestId")
  let cmd ← command.stringField (js "cmd")
  return ⟨burrowRequestId, cmd, command.field (js "params")⟩

def NO_BURROW : JsString := js "no Burrow is reachable"

def QUEUE_LIMIT : Nat := 12

/-- What a window with no Burrow answers without looking at the disk. -/
def idleAnswer (cmd : JsString) : Option Json :=
  if cmd = js "pushDevices" then some .null
  else if cmd = js "pairingQueue" then some (.array [])
  else none

/-- What the link has made of this window. -/
inductive PeerRole
  | unsettled
  | broker
  | client
  | refused
  deriving DecidableEq

/-- Who asked: this window's webviews, or a window over the link. -/
inductive Asker
  | webviews
  | window (client : PeerLinkClient)
  deriving DecidableEq

/-- Whose answer to a command is on its way. -/
inductive Errand
  | service
  | broker
  | disk
  deriving DecidableEq

inductive Entry
  /-- Something was asked, answered, or an asker went away. -/
  | desk (event : DeskEvent JsString Asker Outcome)
  | held (burrowRequestId : JsString)
  | ran (burrowRequestId : JsString)
  | forwarded (burrowRequestId : JsString)
  | refused (burrowRequestId : JsString)
  /-- `broadcastToWebviews` with a `burrow:result`. -/
  | posted (payload : BurrowResult)
  /-- A `commandResult` frame on a socket that is still there. -/
  | sent (client : PeerLinkClient) (payload : BurrowResult)

structure QueuedCommand where
  payload : BurrowCommand
  timer : Nat

structure BurrowWindow where
  /-- `initBurrow` has given the storage. -/
  context : Bool
  service : Bool
  contending : Bool
  link : PeerRole
  commandRoutes : InsertionMap JsString PeerLinkClient
  queued : List QueuedCommand
  /-- Running timers, with the id that the callback has captured. -/
  timers : InsertionMap Nat JsString
  nextTimer : Nat
  /-- What has been handed out and not answered. -/
  errands : List (JsString × Errand)
  /-- Windows whose socket is destroyed. -/
  gone : List PeerLinkClient
  log : List Entry

namespace BurrowWindow

def create : BurrowWindow where
  context := false
  service := false
  contending := false
  link := .unsettled
  commandRoutes := .empty
  queued := []
  timers := .empty
  nextTimer := 0
  errands := []
  gone := []
  log := []

def emit (s : BurrowWindow) (entry : Entry) : BurrowWindow := { s with log := s.log ++ [entry] }

def isPeerLinkSettled (s : BurrowWindow) : Bool := s.link != .unsettled

/-! ### Answers -/

def broadcastResult (s : BurrowWindow) (payload : BurrowResult) : BurrowWindow :=
  s.emit (.posted payload)

/-- `send` drops a frame for a destroyed socket. -/
def sendCommandResult (s : BurrowWindow) (client : PeerLinkClient) (payload : BurrowResult) :
    BurrowWindow :=
  if client ∈ s.gone then s else s.emit (.sent client payload)

def answer (s : BurrowWindow) (payload : BurrowResult) : BurrowWindow :=
  match s.commandRoutes.get payload.burrowRequestId with
  | some client =>
    sendCommandResult
      { s with commandRoutes := s.commandRoutes.delete payload.burrowRequestId } client payload
  | none => s.broadcastResult payload

/-- An answer that this window makes up itself, to its own webviews. -/
def answerHere (s : BurrowWindow) (payload : BurrowResult) : BurrowWindow :=
  (s.emit (.desk (.answered payload.burrowRequestId payload.outcome))).broadcastResult payload

def answerIdle (s : BurrowWindow) (burrowRequestId : JsString) (result : Json) : BurrowWindow :=
  s.answerHere ⟨burrowRequestId, .result result⟩

def refuse (s : BurrowWindow) (burrowRequestId : JsString) : BurrowWindow :=
  s.answerHere ⟨burrowRequestId, .error NO_BURROW⟩

/-- The `status` of a window with no Burrow reads the disk first. -/
def refuseCommand (s : BurrowWindow) (payload : BurrowCommand) : BurrowWindow :=
  let s := s.emit (.refused payload.burrowRequestId)
  if payload.cmd = js "status" then
    { s with errands := s.errands ++ [(payload.burrowRequestId, .disk)] }
  else
    match idleAnswer payload.cmd with
    | none => s.refuse payload.burrowRequestId
    | some result => s.answerIdle payload.burrowRequestId result

/-! ### The queue -/

/-- Take one command out of the queue and refuse it. -/
def dropQueued (s : BurrowWindow) (burrowRequestId : JsString) : BurrowWindow :=
  match s.queued.find? (·.payload.burrowRequestId = burrowRequestId) with
  | none => s
  | some entry =>
    refuse (emit { s with
      timers := s.timers.delete entry.timer
      queued := s.queued.eraseP (·.payload.burrowRequestId = burrowRequestId) }
        (.refused burrowRequestId)) burrowRequestId

/-- At the limit the oldest goes. -/
def makeRoom (s : BurrowWindow) : BurrowWindow :=
  match s.queued with
  | [] => s
  | oldest :: _ =>
    if QUEUE_LIMIT ≤ s.queued.length then s.dropQueued oldest.payload.burrowRequestId else s

def enqueueCommand (s : BurrowWindow) (payload : BurrowCommand) : BurrowWindow :=
  let s := s.makeRoom
  emit { s with
    timers := s.timers.set s.nextTimer payload.burrowRequestId
    nextTimer := s.nextTimer + 1
    queued := s.queued ++ [⟨payload, s.nextTimer⟩] } (.held payload.burrowRequestId)

/-! ### Handing a command on -/

/-- `service.handleCommand`, which answers only after an await. -/
def runCommand (s : BurrowWindow) (payload : BurrowCommand) : BurrowWindow :=
  emit { s with errands := s.errands ++ [(payload.burrowRequestId, .service)] }
    (.ran payload.burrowRequestId)

/-- `forwardCommand`, where there is a broker to hand it to. -/
def forwardCommand (s : BurrowWindow) (payload : BurrowCommand) : Option BurrowWindow :=
  if s.link = .client then
    some (emit { s with errands := s.errands ++ [(payload.burrowRequestId, .broker)] }
      (.forwarded payload.burrowRequestId))
  else none

/-- One turn of the loop of `drainQueuedCommands`. -/
def drainCommand (s : BurrowWindow) (entry : QueuedCommand) : BurrowWindow :=
  let s := { s with timers := s.timers.delete entry.timer }
  if s.service then s.runCommand entry.payload
  else (s.forwardCommand entry.payload).getD (s.refuseCommand entry.payload)

def drainQueuedCommands (s : BurrowWindow) : BurrowWindow :=
  s.queued.foldl drainCommand { s with queued := [] }

def startService (s : BurrowWindow) : BurrowWindow :=
  if s.service || !s.context then s else { s with service := true }

/-- `contendForBurrow`: a window that brokers already serves at once; the drain comes later. -/
def contendForBurrow (s : BurrowWindow) : BurrowWindow :=
  let s := { s with contending := true }
  if s.link = .broker then s.startService else s

def handleBurrowCommand (s : BurrowWindow) (payload : BurrowCommand) : BurrowWindow :=
  if s.service then s.runCommand payload
  else
    match s.forwardCommand payload with
    | some s' => s'
    | none =>
      if payload.cmd = js "enroll" ∨ payload.cmd = js "enrollOffer" then
        (s.enqueueCommand payload).contendForBurrow
      else if s.contending ∧ ¬ s.isPeerLinkSettled then s.enqueueCommand payload
      else s.refuseCommand payload

def handleForwardedCommand (s : BurrowWindow) (payload : BurrowCommand) (client : PeerLinkClient) :
    BurrowWindow :=
  let s := { s with commandRoutes := s.commandRoutes.set payload.burrowRequestId client }
  if s.service then s.runCommand payload
  else
    answer ((s.emit (.refused payload.burrowRequestId)).emit
        (.desk (.answered payload.burrowRequestId (.error NO_BURROW))))
      ⟨payload.burrowRequestId, .error NO_BURROW⟩

def dropForwardedCommands (s : BurrowWindow) (client : PeerLinkClient) : BurrowWindow :=
  { s with commandRoutes := s.commandRoutes.filter fun _ owner => owner != client }

/-! ### The window's steps -/

inductive BurrowEvent
  | initBurrow
  /-- A store holds an enrollment, at activation or on a write of any window. -/
  | contendIfEnrolled
  | webviewCommand (value : Option Json)
  | forwardedCommand (value : Option Json) (client : PeerLinkClient)
  | serviceAnswered (burrowRequestId : JsString) (outcome : Outcome)
  /-- A `commandResult` frame for a command this window forwarded. -/
  | brokerAnswered (burrowRequestId : JsString) (outcome : Outcome)
  | statusRead (burrowRequestId : JsString) (status : Json)
  | queueTimeout (timer : Nat)
  /-- The link settles on a role, and its listeners drain. -/
  | settled (role : PeerRole)
  | unsettled
  /-- The promise of `ensurePeerNet` resolves. -/
  | contentionEnded
  /-- `dropClient` for a window that is gone. -/
  | windowGone (client : PeerLinkClient)

/-- The answer to an errand that is out. -/
def takeAnswer (s : BurrowWindow) (burrowRequestId : JsString) (errand : Errand) (outcome : Outcome) :
    Option BurrowWindow :=
  if (burrowRequestId, errand) ∈ s.errands then
    some (emit { s with errands := s.errands.erase (burrowRequestId, errand) }
      (.desk (.answered burrowRequestId outcome)))
  else none

/-- A step, where the environment can take it. -/
def step (s : BurrowWindow) : BurrowEvent → Option BurrowWindow
  | .initBurrow => some { s with context := true }
  | .contendIfEnrolled => some s.contendForBurrow
  | .webviewCommand value =>
    match isBurrowCommand value with
    | none => some s
    | some payload =>
      some ((s.emit (.desk (.asked payload.burrowRequestId .webviews))).handleBurrowCommand payload)
  | .forwardedCommand value client =>
    match isBurrowCommand value with
    | none => some s
    | some payload =>
      some ((s.emit (.desk (.asked payload.burrowRequestId (.window client))))
        |>.handleForwardedCommand payload client)
  | .serviceAnswered burrowRequestId outcome =>
    (s.takeAnswer burrowRequestId .service outcome).map (·.answer ⟨burrowRequestId, outcome⟩)
  | .brokerAnswered burrowRequestId outcome =>
    (s.takeAnswer burrowRequestId .broker outcome).map
      (·.broadcastResult ⟨burrowRequestId, outcome⟩)
  | .statusRead burrowRequestId status =>
    (s.takeAnswer burrowRequestId .disk (.result status)).map
      (·.broadcastResult ⟨burrowRequestId, .result status⟩)
  | .queueTimeout timer =>
    match s.timers.get timer with
    | none => none
    | some burrowRequestId =>
      some (dropQueued { s with timers := s.timers.delete timer } burrowRequestId)
  | .settled role =>
    let s := { s with link := role }
    some (if role = .broker ∧ s.contending then s.startService.drainQueuedCommands
      else s.drainQueuedCommands)
  | .unsettled => some { s with link := .unsettled }
  | .contentionEnded => some s.drainQueuedCommands
  | .windowGone client =>
    some (emit { s.dropForwardedCommands client with gone := s.gone ++ [client] }
      (.desk (.left (.window client))))

end BurrowWindow

end Dormouse.Window

import Mathlib.Data.List.Nodup
import Dormouse.Lib.InsertionMap
import Dormouse.Lib.Transition
import Dormouse.Security.Ceremony
import Dormouse.Terminal.Events

/-!
# Dormouse.Relay.PresenceNonces

The **presence nonces** of the Relay (`PresenceNonceStore` of `relay/src/app.ts`): one bucket a
session, eight nonces a bucket and thirty-two buckets, each evicting the oldest.

A run keeps the calls made and the nonces redeemed. `begin` mints its nonce from 32 random bytes,
so that a call remembers none that an earlier one did; the clock may read anything.
-/

namespace Dormouse.Relay

open Security (PresenceBinding)
open Terminal (Ms)

/-! ### The store -/

def reauthNonceTtlMs : Ms := 2 * 60 * 1000

def maxPendingReauthNoncesPerSession : Nat := 8

def maxReauthNonceSessions : Nat := 32

/-- One outstanding presence nonce and the ceremony it was minted for. -/
structure PendingPresenceNonce where
  binding : PresenceBinding
  expiresAt : Ms

abbrev PresenceBucket := InsertionMap JsString PendingPresenceNonce

/-- Sessions are told apart by what `SessionStore` minted. -/
structure PresenceNonceStore (σ : Type) [DecidableEq σ] where
  bySession : InsertionMap σ PresenceBucket
  owner : InsertionMap JsString σ

namespace PresenceNonceStore

variable {σ : Type} [DecidableEq σ]

def fresh : PresenceNonceStore σ := ⟨.empty, .empty⟩

/-- The nonces of all buckets that have expired. -/
def expired (store : PresenceNonceStore σ) (now : Ms) : List JsString :=
  store.bySession.entries.flatMap fun e =>
    (e.2.entries.filter fun n => !decide (now < n.2.expiresAt)).map Prod.fst

def sweepBucket (now : Ms) (bucket : PresenceBucket) : Option PresenceBucket :=
  let live := bucket.filter fun _ entry => decide (now < entry.expiresAt)
  if live.size = 0 then none else some live

def sweepExpired (store : PresenceNonceStore σ) (now : Ms) : PresenceNonceStore σ :=
  ⟨store.bySession.filterMap (sweepBucket now),
    (store.expired now).foldl InsertionMap.delete store.owner⟩

def forget (store : PresenceNonceStore σ) (session : σ) : PresenceNonceStore σ :=
  ⟨store.bySession.delete session,
    (((store.bySession.get session).map InsertionMap.keys).getD []).foldl InsertionMap.delete
      store.owner⟩

theorem size_delete_lt {κ ν : Type} [DecidableEq κ] {m : InsertionMap κ ν} {k : κ} {rest : List κ}
    (h : m.keys = k :: rest) : (m.delete k).size < m.size := by
  rw [InsertionMap.size_eq, InsertionMap.size_eq, InsertionMap.keys_delete, h,
    List.filter_cons_of_neg (by simp), List.length_cons]
  exact Nat.lt_succ_of_le (List.length_filter_le _ rest)

/-- Oldest first, until there is room in the bucket. -/
def evictOldest (bucket : PresenceBucket) (owner : InsertionMap JsString σ) :
    PresenceBucket × InsertionMap JsString σ :=
  if maxPendingReauthNoncesPerSession ≤ bucket.size then
    match _h : bucket.keys with
    | [] => (bucket, owner)
    | oldest :: _ => evictOldest (bucket.delete oldest) (owner.delete oldest)
  else (bucket, owner)
termination_by bucket.size
decreasing_by exact size_delete_lt _h

/-- Whole buckets, least recently used first, down to the ceiling. -/
def forgetStalest (store : PresenceNonceStore σ) : PresenceNonceStore σ :=
  if maxReauthNonceSessions < store.bySession.size then
    match _h : store.bySession.keys with
    | [] => store
    | stalest :: _ => forgetStalest (store.forget stalest)
  else store
termination_by store.bySession.size
decreasing_by exact size_delete_lt _h

/-- The bucket of a session, with the nonce in it, as the most recently used one. -/
def insert (store : PresenceNonceStore σ) (session : σ) (relayNonce : JsString)
    (entry : PendingPresenceNonce) : PresenceNonceStore σ :=
  let evicted := evictOldest ((store.bySession.get session).getD .empty) store.owner
  ⟨(store.bySession.delete session).set session (evicted.1.set relayNonce entry),
    evicted.2.set relayNonce session⟩

/-- Hold `binding` against `relayNonce`, in the session's own bucket. -/
def remember (store : PresenceNonceStore σ) (session : σ) (relayNonce : JsString)
    (binding : PresenceBinding) (now : Ms) : PresenceNonceStore σ :=
  ((store.sweepExpired now).insert session relayNonce ⟨binding, now + reauthNonceTtlMs⟩).forgetStalest

/-- Spend `relayNonce`; it is gone either way. -/
def consume (store : PresenceNonceStore σ) (relayNonce : Json) (now : Ms) :
    PresenceNonceStore σ × Option PendingPresenceNonce :=
  match relayNonce with
  | .string nonce =>
    match store.owner.get nonce with
    | none => (store, none)
    | some session =>
      let bucket := store.bySession.get session
      let rest := bucket.map fun b => b.delete nonce
      let bySession :=
        match rest with
        | none => store.bySession
        | some rest =>
          if rest.size = 0 then store.bySession.delete session
          else store.bySession.set session rest
      (⟨bySession, store.owner.delete nonce⟩,
        (bucket.bind (·.get nonce)).filter fun entry => decide (now < entry.expiresAt))
  | _ => (store, none)

/-- A nonce is in the bucket of a session. -/
def Holds (store : PresenceNonceStore σ) (session : σ) (nonce : JsString)
    (entry : PendingPresenceNonce) : Prop :=
  ∃ bucket, store.bySession.get session = some bucket ∧ bucket.get nonce = some entry

end PresenceNonceStore

/-! ### Runs -/

inductive PresenceCall (σ : Type)
  | remember (session : σ) (relayNonce : JsString) (binding : PresenceBinding) (now : Ms)
  | consume (relayNonce : Json) (now : Ms)

namespace PresenceCall

variable {σ : Type}

def now : PresenceCall σ → Ms
  | remember _ _ _ now => now
  | consume _ now => now

/-- The call remembers the nonce. -/
def Remembers (session : σ) (nonce : JsString) (call : PresenceCall σ) : Prop :=
  ∃ binding now, call = remember session nonce binding now

/-- The call is a use of the session's bucket. -/
def Uses (session : σ) (call : PresenceCall σ) : Prop := ∃ nonce, Remembers session nonce call

end PresenceCall

/-- A nonce that was redeemed: when, and what for. -/
structure RedeemedNonce where
  nonce : JsString
  entry : PendingPresenceNonce
  now : Ms

structure PresenceRun (σ : Type) [DecidableEq σ] where
  store : PresenceNonceStore σ
  calls : List (PresenceCall σ)
  redeemed : List RedeemedNonce

namespace PresenceRun

variable {σ : Type} [DecidableEq σ]

def next (run : PresenceRun σ) (call : PresenceCall σ) : PresenceRun σ :=
  match call with
  | .remember session nonce binding now =>
    { run with
      store := run.store.remember session nonce binding now
      calls := run.calls ++ [call] }
  | .consume nonce now =>
    let spent := run.store.consume nonce now
    { store := spent.1
      calls := run.calls ++ [call]
      redeemed := run.redeemed ++
        (spent.2.map fun entry => ⟨nonce.asString.getD [], entry, now⟩).toList }

/-- A nonce that is remembered was not remembered before. -/
def Fresh (run : PresenceRun σ) : PresenceCall σ → Prop
  | .remember _ nonce _ _ => ∀ call ∈ run.calls, ∀ session, ¬call.Remembers session nonce
  | .consume _ _ => True

end PresenceRun

/-- The runs of the store. -/
def presenceNonces (σ : Type) [DecidableEq σ] : System (PresenceRun σ) (PresenceCall σ) where
  init run := run = ⟨.fresh, [], []⟩
  step run call run' := run.Fresh call ∧ run' = run.next call

end Dormouse.Relay

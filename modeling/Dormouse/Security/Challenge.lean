import Mathlib.Data.Rat.Floor
import Dormouse.Lib.InsertionMap
import Dormouse.Terminal.Events
import Dormouse.Security.Bytes

/-!
# Dormouse.Security.Challenge

The two rate and freshness primitives a Burrow runs on: single-use challenges
(`remote-lib-common/src/security/challenge.ts`) and the token bucket in front of its
crypto (`token-bucket.ts`).
-/

namespace Dormouse.Security

open Terminal (Ms)
open Noise (Bytes)

/-! ### Challenges -/

def defaultChallengeTtlMs : Ms := 2 * 60 * 1000

/-- Outstanding challenges and when each expires, oldest first. -/
structure ChallengeIssuer where
  pending : InsertionMap JsString Ms

namespace ChallengeIssuer

def fresh : ChallengeIssuer := ⟨.empty⟩

/-- Drop expired challenges from the front, up to the first one still live. -/
def sweepExpiredPrefix (issuer : ChallengeIssuer) (now : Ms) : ChallengeIssuer :=
  ⟨⟨issuer.pending.entries.dropWhile (fun e => decide (e.2 ≤ now)),
    ((List.dropWhile_sublist _).map Prod.fst).nodup issuer.pending.nodup⟩⟩

/-- Issue the challenge of these random bytes; the expiry goes with it. -/
def issue (issuer : ChallengeIssuer) (bytes : Bytes) (now : Ms) :
    ChallengeIssuer × JsString × Ms :=
  let issuer := issuer.sweepExpiredPrefix now
  let challenge := toBase64Url bytes
  (⟨issuer.pending.set challenge (now + defaultChallengeTtlMs)⟩, challenge,
    now + defaultChallengeTtlMs)

/-- Redeem a challenge; it is gone afterwards, expired or not. -/
def consume (issuer : ChallengeIssuer) (challenge : JsString) (now : Ms) :
    ChallengeIssuer × Bool :=
  match issuer.pending.get challenge with
  | none => (issuer, false)
  | some expiresAt => (⟨issuer.pending.delete challenge⟩, decide (now < expiresAt))

end ChallengeIssuer

/-! ### Token buckets -/

structure TokenBucket where
  capacity : Nat
  refillIntervalMs : Nat
  tokens : Nat
  lastRefillAt : Ms

namespace TokenBucket

def fresh (capacity refillIntervalMs : Nat) (now : Ms) : TokenBucket :=
  ⟨capacity, refillIntervalMs, capacity, now⟩

/-- Spend one token; `none` on success, else the wait until the next one. -/
def take (bucket : TokenBucket) (now : Ms) : TokenBucket × Option Ms :=
  let elapsed := max 0 (now - bucket.lastRefillAt)
  let refill := ⌊elapsed / bucket.refillIntervalMs⌋.toNat
  let bucket :=
    if 0 < refill then
      { bucket with
        tokens := min bucket.capacity (bucket.tokens + refill)
        lastRefillAt := bucket.lastRefillAt + refill * bucket.refillIntervalMs }
    else bucket
  if 0 < bucket.tokens then ({ bucket with tokens := bucket.tokens - 1 }, none)
  else (bucket, some (max 1 (bucket.refillIntervalMs - elapsed)))

end TokenBucket

end Dormouse.Security

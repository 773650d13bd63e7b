import Dormouse.Lib.JsString
import Dormouse.Terminal.Events

/-!
# Dormouse.Security.Acl

The **Burrow ACL** (`remote-lib-common/src/security/acl.ts`): the records of approved
Clients, each the pair of a passkey credential and a Client static public key.

That every record belongs to the ACL's own Burrow is a field of the structure, so
re-reading an ACL from its own records cannot fail.
-/

namespace Dormouse.Security

open Terminal (Ms)

structure BurrowAclRecord where
  burrowId : JsString
  accountId : JsString
  passkeyCredentialId : JsString
  passkeyPublicKeyHash : JsString
  clientStaticPublicKey : JsString
  deliveryId : JsString
  approvedAt : Ms
  approvedBy : JsString
  label : JsString
  revokedAt : Option Ms
  deriving DecidableEq

/-- The record as it was written, whatever has revoked it since. -/
def BurrowAclRecord.asWritten (r : BurrowAclRecord) : BurrowAclRecord := { r with revokedAt := none }

/-- Everything the pairing ceremony supplies when approving a Client. -/
structure ApprovedClient where
  accountId : JsString
  passkeyCredentialId : JsString
  passkeyPublicKeyHash : JsString
  clientStaticPublicKey : JsString
  deliveryId : JsString
  approvedBy : JsString
  label : JsString

structure BurrowAcl where
  burrowId : JsString
  records : List BurrowAclRecord
  owned : ∀ r ∈ records, r.burrowId = burrowId

namespace BurrowAcl

def empty (burrowId : JsString) : BurrowAcl := ⟨burrowId, [], fun _ h => by cases h⟩

/-- Restore an ACL from persisted records; a foreign record throws. -/
def fromRecords (burrowId : JsString) (records : List BurrowAclRecord) : Option BurrowAcl :=
  if owned : ∀ r ∈ records, r.burrowId = burrowId then some ⟨burrowId, records, owned⟩ else none

/-- `loadBurrowAcl`: records that cannot be reconciled leave an empty ACL. -/
def load (burrowId : JsString) (records : List BurrowAclRecord) : BurrowAcl :=
  (fromRecords burrowId records).getD (empty burrowId)

@[simp] theorem fromRecords_records (acl : BurrowAcl) :
    fromRecords acl.burrowId acl.records = some acl := by
  rw [fromRecords, dif_pos acl.owned]

/-! ### Lookups -/

/-- What `#findActive` looks for. -/
def isActivePair (passkeyCredentialId clientStaticPublicKey : JsString)
    (r : BurrowAclRecord) : Bool :=
  r.revokedAt.isNone && r.passkeyCredentialId == passkeyCredentialId &&
    r.clientStaticPublicKey == clientStaticPublicKey

def findActive (acl : BurrowAcl) (passkeyCredentialId clientStaticPublicKey : JsString) :
    Option BurrowAclRecord :=
  acl.records.find? (isActivePair passkeyCredentialId clientStaticPublicKey)

def hasActivePasskey (acl : BurrowAcl) (passkeyCredentialId : JsString) : Bool :=
  acl.records.any fun r => r.revokedAt.isNone && r.passkeyCredentialId == passkeyCredentialId

def hasActiveClient (acl : BurrowAcl) (clientStaticPublicKey : JsString) : Bool :=
  acl.records.any fun r => r.revokedAt.isNone && r.clientStaticPublicKey == clientStaticPublicKey

inductive AclAuthorizationMiss
  | passkeyNotPaired
  | clientNotPaired
  | pairingMismatch
  deriving DecidableEq

/-- The connection-time lookup: the active record matching both identities, or why none
does. -/
def authorize (acl : BurrowAcl) (passkeyCredentialId clientStaticPublicKey : JsString) :
    Except (List AclAuthorizationMiss) BurrowAclRecord :=
  match acl.findActive passkeyCredentialId clientStaticPublicKey with
  | some record => .ok record
  | none =>
    let passkeyPaired := acl.hasActivePasskey passkeyCredentialId
    let clientPaired := acl.hasActiveClient clientStaticPublicKey
    .error ((if passkeyPaired then [] else [.passkeyNotPaired]) ++
      (if clientPaired then [] else [.clientNotPaired]) ++
      if passkeyPaired && clientPaired then [.pairingMismatch] else [])

/-! ### Approval -/

/-- Revoke the first record that matches. -/
def revokeFirst (matches_ : BurrowAclRecord → Bool) (now : Ms) :
    List BurrowAclRecord → List BurrowAclRecord
  | [] => []
  | r :: rs =>
    if matches_ r then { r with revokedAt := some now } :: rs
    else r :: revokeFirst matches_ now rs

theorem map_asWritten_revokeFirst (matches_ : BurrowAclRecord → Bool) (now : Ms)
    (rs : List BurrowAclRecord) :
    (revokeFirst matches_ now rs).map BurrowAclRecord.asWritten =
      rs.map BurrowAclRecord.asWritten := by
  induction rs with
  | nil => rfl
  | cons r rs ih =>
    unfold revokeFirst
    split
    · rfl
    · rw [List.map_cons, List.map_cons, ih]

theorem burrowId_revokeFirst {burrowId : JsString} (matches_ : BurrowAclRecord → Bool) (now : Ms)
    {rs : List BurrowAclRecord} (h : ∀ r ∈ rs, r.burrowId = burrowId) :
    ∀ r ∈ revokeFirst matches_ now rs, r.burrowId = burrowId := by
  induction rs with
  | nil => exact h
  | cons r rs ih =>
    rw [List.forall_mem_cons] at h
    unfold revokeFirst
    split
    · exact List.forall_mem_cons.2 ⟨h.1, h.2⟩
    · exact List.forall_mem_cons.2 ⟨h.1, ih h.2⟩

/-- The record an approval at `now` adds. -/
def recordOf (burrowId : JsString) (client : ApprovedClient) (now : Ms) : BurrowAclRecord where
  burrowId := burrowId
  accountId := client.accountId
  passkeyCredentialId := client.passkeyCredentialId
  passkeyPublicKeyHash := client.passkeyPublicKeyHash
  clientStaticPublicKey := client.clientStaticPublicKey
  deliveryId := client.deliveryId
  approvedAt := now
  approvedBy := client.approvedBy
  label := client.label
  revokedAt := none

/-- Add an approved Client; an active record of the same pair is superseded. -/
def approve (acl : BurrowAcl) (client : ApprovedClient) (now : Ms) : BurrowAcl where
  burrowId := acl.burrowId
  records :=
    revokeFirst (isActivePair client.passkeyCredentialId client.clientStaticPublicKey) now
      acl.records ++ [recordOf acl.burrowId client now]
  owned := fun r hr => by
    rcases List.mem_append.1 hr with h | h
    · exact burrowId_revokeFirst _ now acl.owned r h
    · rw [List.mem_singleton.1 h]
      rfl

/-- An approval adds its record at the end and loses none: at most it revokes one. -/
theorem approve_asWritten (acl : BurrowAcl) (client : ApprovedClient) (now : Ms) :
    (acl.approve client now).records.map BurrowAclRecord.asWritten =
      acl.records.map BurrowAclRecord.asWritten ++ [recordOf acl.burrowId client now] := by
  rw [approve, List.map_append, map_asWritten_revokeFirst]
  rfl

@[simp] theorem approve_burrowId (acl : BurrowAcl) (client : ApprovedClient) (now : Ms) :
    (acl.approve client now).burrowId = acl.burrowId := rfl

end BurrowAcl

end Dormouse.Security

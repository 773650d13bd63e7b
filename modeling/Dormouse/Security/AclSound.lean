import Dormouse.Security.Acl

/-!
# Dormouse.Security.AclSound

**What an ACL authorizes**: over any approvals, revocations and loads, at most one active record a
pair, as long as what is loaded has no more; and a record that is revoked stays so.
-/

namespace Dormouse.Security

open Terminal (Ms)

namespace BurrowAcl

variable {acl : BurrowAcl} {passkeyCredentialId clientStaticPublicKey : JsString}
  {record : BurrowAclRecord} {records : List BurrowAclRecord}

/-! ### Revocation -/

/-- A record, revoked at `now` if it is active and matches. -/
def revoked (matches_ : BurrowAclRecord → Bool) (now : Ms) (record : BurrowAclRecord) :
    BurrowAclRecord :=
  if record.revokedAt.isNone && matches_ record then { record with revokedAt := some now }
  else record

/-- Revoke every active record that matches; answers how many were. -/
def revokeMatching (acl : BurrowAcl) (matches_ : BurrowAclRecord → Bool) (now : Ms) :
    BurrowAcl × Nat :=
  ({ burrowId := acl.burrowId
     records := acl.records.map (revoked matches_ now)
     owned := fun r hr => by
       obtain ⟨record, hrecord, rfl⟩ := List.mem_map.1 hr
       unfold revoked
       split
       · exact acl.owned record hrecord
       · exact acl.owned record hrecord },
    acl.records.countP fun record => record.revokedAt.isNone && matches_ record)

def revokeClient (acl : BurrowAcl) (clientStaticPublicKey : JsString) (now : Ms) :
    BurrowAcl × Nat :=
  acl.revokeMatching (·.clientStaticPublicKey == clientStaticPublicKey) now

def revokePasskey (acl : BurrowAcl) (passkeyCredentialId : JsString) (now : Ms) :
    BurrowAcl × Nat :=
  acl.revokeMatching (·.passkeyCredentialId == passkeyCredentialId) now

/-! ### Runs -/

/-- What is done with an ACL. -/
inductive Op
  | approve (client : ApprovedClient) (now : Ms)
  | revokeClient (clientStaticPublicKey : JsString) (now : Ms)
  | revokePasskey (passkeyCredentialId : JsString) (now : Ms)
  | load (records : List BurrowAclRecord)

/-- Records of another Burrow are not loaded: that throws. -/
def perform (acl : BurrowAcl) : Op → BurrowAcl
  | .approve client now => acl.approve client now
  | .revokeClient key now => (acl.revokeClient key now).1
  | .revokePasskey id now => (acl.revokePasskey id now).1
  | .load records => (fromRecords acl.burrowId records).getD acl

def run (acl : BurrowAcl) (ops : List Op) : BurrowAcl := ops.foldl perform acl

/-- No pair has two active records. -/
def OneEach (records : List BurrowAclRecord) : Prop :=
  ∀ passkeyCredentialId clientStaticPublicKey,
    records.countP (isActivePair passkeyCredentialId clientStaticPublicKey) ≤ 1

/-! ### One active record a pair -/

theorem isActivePair_iff : isActivePair passkeyCredentialId clientStaticPublicKey record = true ↔
    record.revokedAt = none ∧ record.passkeyCredentialId = passkeyCredentialId ∧
      record.clientStaticPublicKey = clientStaticPublicKey := by
  simp [isActivePair, and_assoc]

/-- A record with a time of revocation is of no active pair. -/
theorem not_isActivePair (h : record.revokedAt ≠ none) :
    isActivePair passkeyCredentialId clientStaticPublicKey record = false :=
  Bool.eq_false_iff.2 fun hactive => h (isActivePair_iff.1 hactive).1

/-- Superseding takes its own pair's record away, and no other's. -/
theorem countP_revokeFirst (credential key : JsString) (now : Ms) :
    ∀ records : List BurrowAclRecord,
      (revokeFirst (isActivePair credential key) now records).countP
          (isActivePair passkeyCredentialId clientStaticPublicKey) =
        records.countP (isActivePair passkeyCredentialId clientStaticPublicKey) -
          if credential = passkeyCredentialId ∧ key = clientStaticPublicKey then 1 else 0
  | [] => by simp [revokeFirst]
  | record :: records => by
    have hlater := countP_revokeFirst credential key now records
    rw [revokeFirst]
    by_cases hfirst : isActivePair credential key record = true
    · obtain ⟨hactive, rfl, rfl⟩ := isActivePair_iff.1 hfirst
      have hgone : isActivePair passkeyCredentialId clientStaticPublicKey
          { record with revokedAt := some now } = false :=
        not_isActivePair (Option.some_ne_none _)
      rw [if_pos hfirst, List.countP_cons, List.countP_cons, hgone]
      simp only [isActivePair_iff, hactive, true_and, Bool.false_eq_true, if_false]
      split <;> simp
    · rw [if_neg hfirst, List.countP_cons, List.countP_cons, hlater]
      split
      · next hsame =>
          obtain ⟨rfl, rfl⟩ := hsame
          simp [hfirst]
      · rfl

theorem OneEach.approve (h : OneEach acl.records) (client : ApprovedClient) (now : Ms) :
    OneEach (acl.approve client now).records := by
  intro credential key
  have hone := h credential key
  rw [BurrowAcl.approve, List.countP_append, countP_revokeFirst, List.countP_singleton]
  by_cases hsame : client.passkeyCredentialId = credential ∧ client.clientStaticPublicKey = key
  · rw [if_pos hsame]
    split <;> omega
  · have hother : isActivePair credential key (recordOf acl.burrowId client now) = false :=
      Bool.eq_false_iff.2 fun hactive => hsame (isActivePair_iff.1 hactive).2
    rw [if_neg hsame, hother]
    exact hone

theorem OneEach.revokeMatching (h : OneEach acl.records) (matches_ : BurrowAclRecord → Bool)
    (now : Ms) : OneEach (acl.revokeMatching matches_ now).1.records := by
  intro credential key
  refine le_trans ?_ (h credential key)
  rw [BurrowAcl.revokeMatching, List.countP_map]
  refine List.countP_mono_left fun record _ hactive => ?_
  -- What is active afterwards was so before.
  change isActivePair credential key (revoked matches_ now record) = true at hactive
  unfold revoked at hactive
  split at hactive
  · rw [not_isActivePair (Option.some_ne_none _)] at hactive
    cases hactive
  · exact hactive

theorem OneEach.perform (h : OneEach acl.records) {op : Op}
    (hload : ∀ records, op = .load records → OneEach records) :
    OneEach (acl.perform op).records := by
  cases op with
  | approve client now => exact h.approve client now
  | revokeClient key now => exact h.revokeMatching _ now
  | revokePasskey id now => exact h.revokeMatching _ now
  | load records =>
    change OneEach ((fromRecords acl.burrowId records).getD acl).records
    unfold fromRecords
    split
    · exact hload records rfl
    · exact h

theorem OneEach.run {ops : List Op} (hloads : ∀ records, Op.load records ∈ ops → OneEach records)
    (h : OneEach acl.records) : OneEach (acl.run ops).records := by
  induction ops generalizing acl with
  | nil => exact h
  | cons op ops ih =>
    refine ih (fun records hmem => hloads records (List.mem_cons_of_mem _ hmem)) ?_
    exact h.perform fun records heq => hloads records (heq ▸ List.mem_cons_self)

/-- The one active record that holds both, and none other, is the answer. -/
theorem OneEach.authorize (h : OneEach acl.records) :
    acl.authorize passkeyCredentialId clientStaticPublicKey = .ok record ↔
      record ∈ acl.records ∧ record.revokedAt = none ∧
        record.passkeyCredentialId = passkeyCredentialId ∧
        record.clientStaticPublicKey = clientStaticPublicKey := by
  rw [← isActivePair_iff, BurrowAcl.authorize]
  rcases hfound : acl.findActive passkeyCredentialId clientStaticPublicKey with _ | found
  · refine ⟨nofun, fun ⟨hmem, hactive⟩ => ?_⟩
    exact absurd hactive (List.find?_eq_none.1 hfound record hmem)
  have hmem := List.mem_of_find?_eq_some hfound
  have hactive := List.find?_some hfound
  constructor
  · intro heq
    cases heq
    exact ⟨hmem, hactive⟩
  · rintro ⟨hmem', hactive'⟩
    have hone := h passkeyCredentialId clientStaticPublicKey
    rw [List.countP_eq_length_filter] at hone
    have hin := List.mem_filter.2 ⟨hmem, hactive⟩
    have hin' := List.mem_filter.2 ⟨hmem', hactive'⟩
    obtain ⟨only, honly⟩ := List.length_eq_one_iff.1
      (le_antisymm hone (List.length_pos_of_mem hin))
    rw [honly, List.mem_singleton] at hin hin'
    rw [hin, hin']

/-! ### Revoked for good -/

theorem getElem?_revokeFirst {matches_ : BurrowAclRecord → Bool} (now : Ms)
    (hnot : matches_ record = false) : ∀ {records : List BurrowAclRecord} {i : Nat},
    records[i]? = some record → (revokeFirst matches_ now records)[i]? = some record
  | [], i, h => by simp at h
  | first :: records, i, h => by
    rw [revokeFirst]
    cases i with
    | zero =>
      obtain rfl := Option.some.inj h
      rw [if_neg (Bool.eq_false_iff.1 hnot)]
      rfl
    | succ i =>
      split
      · exact h
      · exact getElem?_revokeFirst now hnot h

/-- A revoked record stays where and as it is, but for a load. -/
theorem getElem?_perform {op : Op} (hop : ∀ records, op ≠ .load records) {i : Nat}
    (h : acl.records[i]? = some record) (hrevoked : record.revokedAt ≠ none) :
    (acl.perform op).records[i]? = some record := by
  have hmatching : ∀ matches_ now, (acl.revokeMatching matches_ now).1.records[i]? = some record := by
    intro matches_ now
    rw [revokeMatching, List.getElem?_map, h, Option.map_some, revoked, if_neg (by simp [hrevoked])]
  cases op with
  | approve client now =>
    have hkept := getElem?_revokeFirst now (@not_isActivePair client.passkeyCredentialId
      client.clientStaticPublicKey record hrevoked) h
    exact (List.getElem?_append_left (List.getElem?_eq_some_iff.1 hkept).1).trans hkept
  | revokeClient key now => exact hmatching _ now
  | revokePasskey id now => exact hmatching _ now
  | load records => exact absurd rfl (hop records)

theorem getElem?_run {ops : List Op} (hops : ∀ records, Op.load records ∉ ops) {i : Nat}
    (h : acl.records[i]? = some record) (hrevoked : record.revokedAt ≠ none) :
    (acl.run ops).records[i]? = some record := by
  induction ops generalizing acl with
  | nil => exact h
  | cons op ops ih =>
    refine ih (fun records hmem => hops records (List.mem_cons_of_mem _ hmem)) ?_
    exact getElem?_perform (fun records heq => hops records (heq ▸ List.mem_cons_self)) h hrevoked

/-- **One active record a pair**, which is what `authorize` answers; a revoked one is never active
again; and the ACL that is read back from its records is the same. -/
theorem one_active_record (burrowId : JsString) {ops : List Op}
    (hloads : ∀ records, .load records ∈ ops → OneEach records) :
    OneEach ((empty burrowId).run ops).records ∧
    (∀ credential key record,
      ((empty burrowId).run ops).authorize credential key = .ok record ↔
        record ∈ ((empty burrowId).run ops).records ∧ record.revokedAt = none ∧
          record.passkeyCredentialId = credential ∧ record.clientStaticPublicKey = key) ∧
    (∀ (i : Nat) record more, ((empty burrowId).run ops).records[i]? = some record →
      record.revokedAt ≠ none → (∀ records, .load records ∉ more) →
        (((empty burrowId).run ops).run more).records[i]? = some record) ∧
    fromRecords ((empty burrowId).run ops).burrowId ((empty burrowId).run ops).records =
      some ((empty burrowId).run ops) := by
  have hone : OneEach ((empty burrowId).run ops).records :=
    OneEach.run hloads fun _ _ => Nat.zero_le 1
  exact ⟨hone, fun _ _ _ => hone.authorize,
    fun _ _ _ h hrevoked hmore => getElem?_run hmore h hrevoked, fromRecords_records _⟩

/-- A record of one pair, as it is approved. -/
def onePair : BurrowAclRecord :=
  recordOf (js "burrow") ⟨js "account", js "passkey", js "hash", js "client", js "delivery", js "user",
    js "phone"⟩ 1

theorem one_active_record_approved :
    OneEach [onePair] ∧ ((empty (js "burrow")).run [.load [onePair],
      .revokeClient (js "client") 2]).records[0]? = some { onePair with revokedAt := some 2 } ∧
    OneEach ((empty (js "burrow")).run [.load [onePair], .revokeClient (js "client") 2]).records := by
  have hsingle : OneEach [onePair] := fun _ _ => List.countP_le_length
  refine ⟨hsingle, by decide, (one_active_record (js "burrow") fun records hmem => ?_).1⟩
  obtain rfl : records = [onePair] := by simpa using hmem
  exact hsingle

/-- Records are loaded as they are, two active ones of a pair included. -/
theorem two_active_records :
    ¬ ∀ burrowId ops, OneEach ((empty burrowId).run ops).records := by
  intro h
  have hone := h (js "burrow") [.load [onePair, onePair]] (js "passkey") (js "client")
  exact absurd hone (by decide)

end BurrowAcl

end Dormouse.Security

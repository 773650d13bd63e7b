import Dormouse.Pocket.Deliveries

/-!
# Dormouse.Pocket.DeliveriesSound

**No delivery id is stranded** while the calls on one Burrow keep out of each other's way:
what each call knows of the record that it read, which ids are named, and the runs in which
they stay so.
-/

namespace Dormouse.Pocket

open Security (isBase64UrlChar)
open Terminal (Ms)

/-! ### The key of a tombstone -/

/-- A `burrowId` is base64url, so the separator is unambiguous. -/
theorem pendingDeletionKey_inj {b b' : BurrowId} {d d' : JsString}
    (h : pendingDeletionKey b d = pendingDeletionKey b' d') : b = b' ∧ d = d' := by
  have hlength : b.val.length = b'.val.length :=
    ((Burrow.isExactBase64Url_iff (by decide)).1 b.property).1.trans
      ((Burrow.isExactBase64Url_iff (by decide)).1 b'.property).1.symm
  unfold pendingDeletionKey at h
  rw [List.append_assoc, List.append_assoc] at h
  obtain ⟨hb, hd⟩ := List.append_inj h hlength
  exact ⟨Subtype.ext hb, List.append_cancel_left hd⟩

/-! ### What is named -/

/-- A stored paired record holds the id. -/
def Recorded (known : InsertionMap BurrowId StoredBurrow) (deliveryId : JsString) : Prop :=
  ∃ stored ∈ known.values, stored.record.deliveryId = some deliveryId

/-- A stored tombstone does. -/
def Tombstoned (pending : InsertionMap JsString PendingDeliveryDeletion)
    (deliveryId : JsString) : Prop :=
  ∃ tombstone ∈ pending.values, tombstone.deliveryId = deliveryId

/-- The id that a call is about to take out of its record. -/
def DeliveryWait.displaces : DeliveryWait → Option JsString
  | pairWrite _ approval read => read.deliveryId.filter (· ≠ approval.deliveryId)
  | dropWrite _ read _ => read.deliveryId
  | forgetDelete read => read.deliveryId
  | _ => none

/-- What a call that is about to write or delete a record has read of it. -/
def DeliveryWait.rewrites : DeliveryWait → Option RecordRead
  | pairWrite _ _ read => some read
  | dropWrite _ read _ => some read
  | forgetDelete read => some read
  | _ => none

/-- A call's reading of a record, from then on. -/
def DeliveryWait.read? : DeliveryWait → Option RecordRead
  | pairTombstone _ _ read _ => some read
  | connecting _ read => some read
  | dropTombstone _ read _ => some read
  | forgetTombstone read _ => some read
  | wait => wait.rewrites

instance (known : InsertionMap BurrowId StoredBurrow) (deliveryId : JsString) :
    Decidable (Recorded known deliveryId) := List.decidableBEx _ _

instance (pending : InsertionMap JsString PendingDeliveryDeletion) (deliveryId : JsString) :
    Decidable (Tombstoned pending deliveryId) := List.decidableBEx _ _

namespace PocketDevice

/-- The id is named. -/
def Names (s : PocketDevice) (deliveryId : JsString) : Prop :=
  Recorded s.knownBurrows deliveryId ∨ Tombstoned s.pendingDeletions deliveryId

instance (s : PocketDevice) (deliveryId : JsString) : Decidable (s.Names deliveryId) :=
  instDecidableOr

/-- The Relay has a row of the id. -/
def HasRow (s : PocketDevice) (deliveryId : JsString) : Prop := ∃ row ∈ s.rows, row.2 = deliveryId

/-- A stored record holds the id, and no call is about to take it out. -/
def Settled (s : PocketDevice) (deliveryId : JsString) : Prop :=
  Recorded s.knownBurrows deliveryId ∧ ∀ wait ∈ s.calls, wait.displaces ≠ some deliveryId

/-- A later pairing than a call's reading has written the record there is. -/
def Repaired (s : PocketDevice) (read : RecordRead) : Prop :=
  ∃ stored, s.knownBurrows.get read.burrowId = some stored ∧
    stored.record.deliveryId.isSome = true ∧ read.pairings ≤ stored.pairing

/-- The record there is is the one that a call read, or is not paired. -/
def Unchanged (s : PocketDevice) (read : RecordRead) : Prop :=
  ∀ stored, s.knownBurrows.get read.burrowId = some stored →
    stored.record.deliveryId.isSome = true → read.stored = some stored

/-! ### The condition -/

/-- A write that meets no other call's: of a record, it finds the one that was read; of a
tombstone, nobody has put a row back for it. -/
def CalmWrite (s : PocketDevice) (wait : DeliveryWait) : Prop :=
  (∀ read, wait.rewrites = some read → s.Unchanged read) ∧
  ∀ tombstone queued, wait = .clearing tombstone queued →
    ¬ s.HasRow tombstone.deliveryId ∨ s.Settled tombstone.deliveryId

/-- A step at which calls do not cross: its write is calm, or its subscription is for an id
that is settled, or has its tombstone. -/
def Calm (s : PocketDevice) : DeliveryAct → Prop
  | .storeWrite i _ => ∀ wait, s.calls[i]? = some wait → s.CalmWrite wait
  | .failed i true _ => ∀ wait, s.calls[i]? = some wait → s.CalmWrite wait
  | .relayTakes k true _ => ∀ number burrowId deliveryId,
      s.requests[k]? = some (number, .subscribe burrowId deliveryId) →
        Tombstoned s.pendingDeletions deliveryId ∨ s.Settled deliveryId
  | _ => True

/-- The runs in which no calls cross. -/
def calmRuns : System PocketDevice DeliveryAct where
  init s := s = fresh
  step s act s' := s.Calm act ∧ s' = s.perform act

end PocketDevice

/-! ### What a call knows of its record -/

/-- A reading is of a Burrow's record, and what is paired there since is a later pairing's. -/
structure ReadOk (known : InsertionMap BurrowId StoredBurrow) (pairings : Nat)
    (read : RecordRead) : Prop where
  counted : read.pairings ≤ pairings
  earlier : ∀ stored, read.stored = some stored → stored.record.deliveryId.isSome = true →
    stored.pairing < read.pairings
  since : ∀ stored, known.get read.burrowId = some stored →
    stored.record.deliveryId.isSome = true → read.stored = some stored ∨ read.pairings ≤ stored.pairing

/-- What a call waits for fits what it has read. -/
def DeliveryWait.Fits : DeliveryWait → Prop
  | .pairTombstone ceremony _ read deliveryId =>
    read.burrowId = ceremony.burrowId ∧ read.deliveryId = some deliveryId
  | .pairWrite ceremony _ read => read.burrowId = ceremony.burrowId
  | .connecting record read =>
    read.burrowId = record.burrowId ∧ read.deliveryId = record.deliveryId
  | .dropTombstone record read deliveryId =>
    read.burrowId = record.burrowId ∧ read.deliveryId = some deliveryId
  | .dropWrite record read deliveryId =>
    read.burrowId = record.burrowId ∧ read.deliveryId = some deliveryId
  | .forgetTombstone read deliveryId => read.deliveryId = some deliveryId
  | _ => True

structure WaitOk (known : InsertionMap BurrowId StoredBurrow) (pairings : Nat)
    (wait : DeliveryWait) : Prop where
  fits : wait.Fits
  read : ∀ read, wait.read? = some read → ReadOk known pairings read

namespace PocketDevice

variable {s s' : PocketDevice} {wait : DeliveryWait} {read : RecordRead} {deliveryId : JsString}
  {stored : StoredBurrow} {i : Nat}

/-- What holds in every run, whatever crosses. -/
structure Sound (s : PocketDevice) : Prop where
  filed : ∀ {burrowId stored}, s.knownBurrows.get burrowId = some stored →
    stored.record.burrowId = burrowId
  counted : ∀ {burrowId stored}, s.knownBurrows.get burrowId = some stored →
    stored.record.deliveryId.isSome = true → stored.pairing < s.pairings
  tombstones : ∀ {key tombstone}, s.pendingDeletions.get key = some tombstone →
    tombstone.key = key
  waits : ∀ wait ∈ s.calls, WaitOk s.knownBurrows s.pairings wait

/-- What holds as long as calls do not cross. -/
structure Kept (s : PocketDevice) : Prop where
  named : ∀ row ∈ s.rows, s.Names row.2
  shielded : ∀ wait ∈ s.calls, ∀ deliveryId, wait.displaces = some deliveryId →
    s.HasRow deliveryId → Tombstoned s.pendingDeletions deliveryId

/-! ### Calls come and go -/

theorem mem_set {calls : List DeliveryWait} {old new : DeliveryWait} (h : new ∈ calls.set i old) :
    new = old ∨ new ∈ calls :=
  (List.mem_or_eq_of_mem_set h).symm

theorem waitOk_of_no_read {known : InsertionMap BurrowId StoredBurrow} {pairings : Nat}
    (hfits : wait.Fits) (h : wait.read? = none) : WaitOk known pairings wait where
  fits := hfits
  read read hread := by cases h.symm.trans hread

namespace Sound

theorem start (h : Sound s) (hok : WaitOk s.knownBurrows s.pairings wait) :
    Sound (s.start wait) :=
  { h with
    waits wait' hmem := by
      rcases List.mem_append.1 hmem with hold | hnew
      · exact h.waits wait' hold
      · cases List.mem_singleton.1 hnew
        exact hok }

theorem goOn (h : Sound s) (hok : WaitOk s.knownBurrows s.pairings wait) :
    Sound (s.goOn i wait) :=
  { h with
    waits wait' hmem := by
      rcases mem_set hmem with rfl | hold
      · exact hok
      · exact h.waits wait' hold }

theorem finish (h : Sound s) : Sound (s.finish i) :=
  { h with
    waits wait' hmem := h.waits wait' (List.mem_of_mem_eraseIdx hmem) }

theorem resume (h : Sound s) {next : Option DeliveryWait}
    (hok : ∀ wait, next = some wait → WaitOk s.knownBurrows s.pairings wait) :
    Sound (s.resume i next) := by
  cases next with
  | none => exact h.finish
  | some wait => exact h.goOn (hok wait rfl)

end Sound

namespace Kept

theorem start (h : Kept s) (hnone : wait.displaces = none) : Kept (s.start wait) where
  named := h.named
  shielded wait' hmem deliveryId hdisplaces hrow := by
    rcases List.mem_append.1 hmem with hold | hnew
    · exact h.shielded wait' hold deliveryId hdisplaces hrow
    · cases List.mem_singleton.1 hnew
      cases hnone.symm.trans hdisplaces

theorem goOn (h : Kept s) (hshield : ∀ deliveryId, wait.displaces = some deliveryId →
      s.HasRow deliveryId → Tombstoned s.pendingDeletions deliveryId) : Kept (s.goOn i wait) where
  named := h.named
  shielded wait' hmem := by
    rcases mem_set hmem with rfl | hold
    · exact hshield
    · exact h.shielded wait' hold

theorem finish (h : Kept s) : Kept (s.finish i) where
  named := h.named
  shielded wait' hmem := h.shielded wait' (List.mem_of_mem_eraseIdx hmem)

theorem resume (h : Kept s) {next : Option DeliveryWait}
    (hshield : ∀ wait, next = some wait → ∀ deliveryId, wait.displaces = some deliveryId →
      s.HasRow deliveryId → Tombstoned s.pendingDeletions deliveryId) :
    Kept (s.resume i next) := by
  cases next with
  | none => exact h.finish
  | some wait => exact h.goOn (hshield wait rfl)

end Kept

/-! ### Reading a record -/

theorem Sound.readOk (h : Sound s) (burrowId : BurrowId) :
    ReadOk s.knownBurrows s.pairings (s.readRecord burrowId) where
  counted := Nat.le_refl _
  earlier _ hget hpaired := h.counted hget hpaired
  since _ hget _ := .inl hget

theorem deliveryId_readRecord {burrowId : BurrowId}
    (hget : (s.readRecord burrowId).stored = some stored) :
    (s.readRecord burrowId).deliveryId = stored.record.deliveryId := by
  unfold RecordRead.deliveryId
  rw [hget]
  rfl

theorem Sound.storeRead (h : Sound s) (i : Nat) : Sound (s.storeRead i) := by
  unfold PocketDevice.storeRead
  split
  · next ceremony approval _ =>
      have hread := h.readOk ceremony.burrowId
      dsimp only
      have hwrite : WaitOk s.knownBurrows s.pairings
          (.pairWrite ceremony approval (s.readRecord ceremony.burrowId)) :=
        ⟨rfl, fun _ heq => by cases heq; exact hread⟩
      split
      · exact h.goOn hwrite
      next existing hget =>
        split
        · exact h.finish
        split
        · exact h.goOn hwrite
        · next deliveryId hpaired =>
            split
            · exact h.goOn hwrite
            · exact h.goOn ⟨⟨rfl, (deliveryId_readRecord hget).trans hpaired⟩,
                fun _ heq => by cases heq; exact hread⟩
  · next burrowId _ =>
      dsimp only
      split
      · exact h.finish
      next stored hget =>
        split
        · refine h.goOn ⟨⟨(h.filed hget).symm, deliveryId_readRecord hget⟩, fun _ heq => ?_⟩
          cases heq
          exact h.readOk burrowId
        · exact h.finish
  · next burrowId _ =>
      dsimp only
      split
      · exact h.goOn ⟨trivial, fun _ heq => by cases heq; exact h.readOk burrowId⟩
      · next deliveryId hpaired =>
          exact h.goOn ⟨hpaired, fun _ heq => by cases heq; exact h.readOk burrowId⟩
  · split
    · exact h.finish
    · exact h.goOn (waitOk_of_no_read trivial rfl)
  · exact h.goOn (waitOk_of_no_read trivial rfl)
  · exact h

end PocketDevice

/-! ### Writing -/

namespace ReadOk

variable {read : RecordRead} {stored : StoredBurrow} {known : InsertionMap BurrowId StoredBurrow} {pairings : Nat}

/-- A pairing writes a record, the next one by number. -/
theorem set_paired (h : ReadOk known pairings read) (burrowId : BurrowId) (record : KnownBurrow) :
    ReadOk (known.set burrowId ⟨record, pairings⟩) (pairings + 1) read where
  counted := Nat.le_succ_of_le h.counted
  earlier := h.earlier
  since stored hget hpaired := by
    rw [InsertionMap.get_set] at hget
    split at hget
    · cases hget
      exact .inr h.counted
    · exact h.since stored hget hpaired

theorem set_unpaired (h : ReadOk known pairings read) {burrowId : BurrowId}
    (hunpaired : stored.record.deliveryId = none) :
    ReadOk (known.set burrowId stored) pairings read where
  counted := h.counted
  earlier := h.earlier
  since other hget hpaired := by
    rw [InsertionMap.get_set] at hget
    split at hget
    · cases hget
      rw [hunpaired] at hpaired
      cases hpaired
    · exact h.since other hget hpaired

theorem delete (h : ReadOk known pairings read) (burrowId : BurrowId) :
    ReadOk (known.delete burrowId) pairings read where
  counted := h.counted
  earlier := h.earlier
  since other hget hpaired := by
    exact h.since other (InsertionMap.get_of_delete hget).2 hpaired

end ReadOk

namespace PocketDevice

variable {s s' : PocketDevice} {wait : DeliveryWait} {read : RecordRead} {deliveryId : JsString}
  {stored : StoredBurrow} {i : Nat}

namespace Sound

theorem putTombstone (h : Sound s) (tombstone : PendingDeliveryDeletion) :
    Sound (s.putTombstone tombstone) :=
  { h with
    tombstones {key other} hget := by
      change (s.pendingDeletions.set tombstone.key tombstone).get key = some other at hget
      rcases InsertionMap.get_of_set hget with ⟨heq, rfl⟩ | ⟨-, hget⟩
      · exact heq
      · exact h.tombstones hget }

theorem pairWrite (h : Sound s) (record : KnownBurrow) :
    Sound ({ s with pairings := s.pairings + 1 }.putRecord ⟨record, s.pairings⟩) where
  filed {burrowId stored} hget := by
    change (s.knownBurrows.set record.burrowId _).get burrowId = some stored at hget
    rcases InsertionMap.get_of_set hget with ⟨heq, rfl⟩ | ⟨-, hget⟩
    · exact heq
    · exact h.filed hget
  counted {burrowId stored} hget hpaired := by
    change (s.knownBurrows.set record.burrowId _).get burrowId = some stored at hget
    rw [InsertionMap.get_set] at hget
    split at hget
    · cases hget
      exact Nat.lt_succ_self _
    · exact Nat.lt_succ_of_lt (h.counted hget hpaired)
  tombstones := h.tombstones
  waits wait hmem :=
    ⟨(h.waits wait hmem).fits, fun read hread =>
      ((h.waits wait hmem).read read hread).set_paired record.burrowId record⟩

theorem dropWrite (h : Sound s) (hunpaired : stored.record.deliveryId = none) :
    Sound (s.putRecord stored) where
  filed {burrowId other} hget := by
    change (s.knownBurrows.set stored.record.burrowId stored).get burrowId = some other at hget
    rcases InsertionMap.get_of_set hget with ⟨heq, rfl⟩ | ⟨-, hget⟩
    · exact heq
    · exact h.filed hget
  counted {burrowId other} hget hpaired := by
    change (s.knownBurrows.set stored.record.burrowId stored).get burrowId = some other at hget
    rw [InsertionMap.get_set] at hget
    split at hget
    · cases hget
      rw [hunpaired] at hpaired
      cases hpaired
    · exact h.counted hget hpaired
  tombstones := h.tombstones
  waits wait hmem :=
    ⟨(h.waits wait hmem).fits, fun read hread =>
      ((h.waits wait hmem).read read hread).set_unpaired hunpaired⟩

theorem forgetDelete (h : Sound s) (burrowId : BurrowId) :
    Sound { s with knownBurrows := s.knownBurrows.delete burrowId } where
  filed {burrowId' stored} hget := by
    change (s.knownBurrows.delete burrowId).get burrowId' = some stored at hget
    exact h.filed (InsertionMap.get_of_delete hget).2
  counted {burrowId' stored} hget := by
    change (s.knownBurrows.delete burrowId).get burrowId' = some stored at hget
    exact h.counted (InsertionMap.get_of_delete hget).2
  tombstones := h.tombstones
  waits wait hmem :=
    ⟨(h.waits wait hmem).fits, fun read hread =>
      ((h.waits wait hmem).read read hread).delete burrowId⟩

theorem clearing (h : Sound s) (key : JsString) :
    Sound { s with pendingDeletions := s.pendingDeletions.delete key } :=
  { h with
    tombstones {key' tombstone} hget := by
      change (s.pendingDeletions.delete key).get key' = some tombstone at hget
      exact h.tombstones (InsertionMap.get_of_delete hget).2 }

theorem write (h : Sound s) (wait : DeliveryWait) (now : Ms) : Sound (s.write wait now) := by
  cases wait with
  | pairTombstone | dropTombstone | forgetTombstone => exact h.putTombstone _
  | pairWrite ceremony approval read => exact h.pairWrite _
  | dropWrite record read deliveryId => exact h.dropWrite rfl
  | forgetDelete read => exact h.forgetDelete _
  | clearing tombstone queued => exact h.clearing _
  | _ => exact h

end Sound

/-- The state after a write has the same calls. -/
theorem calls_write (wait : DeliveryWait) (now : Ms) : (s.write wait now).calls = s.calls := by
  cases wait <;> rfl

/-- Writing takes a call to its next wait, with what it has read. -/
theorem waitOk_afterWrite {known : InsertionMap BurrowId StoredBurrow} {pairings : Nat}
    (h : WaitOk known pairings wait) (now : Ms) :
    ∀ next, afterWrite wait now = some next → WaitOk known pairings next := by
  intro next heq
  cases wait with
  | pairTombstone ceremony approval read deliveryId =>
    cases heq
    exact ⟨h.fits.1, fun _ heq => by cases heq; exact h.read _ rfl⟩
  | dropTombstone record read deliveryId =>
    cases heq
    exact ⟨h.fits, fun _ heq => by cases heq; exact h.read _ rfl⟩
  | forgetTombstone read deliveryId =>
    cases heq
    exact ⟨trivial, fun _ heq => by cases heq; exact h.read _ rfl⟩
  | dropWrite | forgetDelete | clearing =>
    cases heq
    exact waitOk_of_no_read trivial rfl
  | _ => cases heq

theorem waitOk_afterFailure {known : InsertionMap BurrowId StoredBurrow} {pairings : Nat} :
    ∀ next, afterFailure wait = some next → WaitOk known pairings next := by
  intro next heq
  unfold afterFailure at heq
  split at heq
  · cases heq
    exact waitOk_of_no_read trivial rfl
  · cases heq
    exact waitOk_of_no_read trivial rfl
  · cases heq
    exact waitOk_of_no_read trivial rfl
  · cases heq

theorem Sound.wait_of_write (h : Sound s) (hwait : s.calls[i]? = some wait) (now : Ms) :
    WaitOk (s.write wait now).knownBurrows (s.write wait now).pairings wait :=
  (h.write wait now).waits wait ((calls_write wait now).symm ▸ List.mem_of_getElem? hwait)

theorem Sound.perform (h : Sound s) (act : DeliveryAct) : Sound (s.perform act) := by
  cases act with
  | pair | connect | forgetBurrow | subscribeToPush | retirePendingDeletions =>
    exact h.start (waitOk_of_no_read trivial rfl)
  | approved i approval =>
    change Sound (s.approved i approval)
    unfold PocketDevice.approved
    split
    · split
      · exact h.goOn (waitOk_of_no_read trivial rfl)
      · exact h.finish
    · exact h
  | connected i pairingRequired =>
    change Sound (s.connected i pairingRequired)
    unfold PocketDevice.connected
    split
    · next record read hwait =>
        have hok := h.waits _ (List.mem_of_getElem? hwait)
        split
        · split
          · exact h.finish
          · next deliveryId hpaired =>
              exact h.goOn ⟨⟨hok.fits.1, hok.fits.2.trans hpaired⟩,
                fun _ heq => by cases heq; exact hok.read _ rfl⟩
        · exact h.finish
    · exact h
  | storeRead i => exact h.storeRead i
  | storeWrite i now =>
    change Sound (s.storeWrite i now)
    unfold PocketDevice.storeWrite
    split
    · next wait hwait =>
        split
        · exact (h.write wait now).resume (waitOk_afterWrite (h.wait_of_write hwait now) now)
        · exact h
    · exact h
  | failed i landed now =>
    change Sound (s.failed i landed now)
    unfold PocketDevice.failed
    split
    · next wait hwait =>
        split
        · exact (h.write wait now).resume waitOk_afterFailure
        · exact h.resume waitOk_afterFailure
    · exact h
  | sent i =>
    change Sound (s.sent i)
    have hsend (request : DeliveryRequest) : Sound (s.send request) :=
      ⟨h.filed, h.counted, h.tombstones, h.waits⟩
    unfold PocketDevice.sent
    split
    · exact (hsend _).finish
    · exact h.finish
    · exact (hsend _).goOn (waitOk_of_no_read trivial rfl)
    · exact h
  | deleteAnswered i =>
    change Sound (s.deleteAnswered i)
    unfold PocketDevice.deleteAnswered
    split
    · split
      · exact h.goOn (waitOk_of_no_read trivial rfl)
      · exact h
    · exact h
  | relayTakes k stored keeps =>
    change Sound (s.relayTakes k stored keeps)
    unfold PocketDevice.relayTakes
    split
    · exact ⟨h.filed, h.counted, h.tombstones, h.waits⟩
    · exact h
  | rowsLost keeps => exact ⟨h.filed, h.counted, h.tombstones, h.waits⟩

theorem sound_fresh : Sound fresh where
  filed := fun h => by cases h
  counted := fun h => by cases h
  tombstones := fun h => by cases h
  waits := List.forall_mem_nil _

/-- A call finds another record than it read just when a later pairing has written it. -/
theorem Sound.repaired_iff (h : Sound s) (hmem : wait ∈ s.calls)
    (hrewrites : wait.rewrites = some read) : s.Repaired read ↔ ¬ s.Unchanged read := by
  have hread : wait.read? = some read := by
    cases wait with
    | pairWrite | dropWrite | forgetDelete => exact hrewrites
    | _ => cases hrewrites
  have hok := (h.waits wait hmem).read read hread
  constructor
  · rintro ⟨stored, hget, hpaired, hlater⟩ hunchanged
    have hearlier := hok.earlier stored (hunchanged stored hget hpaired) hpaired
    omega
  · intro hchanged
    unfold Unchanged at hchanged
    push Not at hchanged
    obtain ⟨stored, hget, hpaired, hne⟩ := hchanged
    exact ⟨stored, hget, hpaired, (hok.since stored hget hpaired).resolve_left hne⟩

end PocketDevice

/-! ### Stores under writes -/

theorem Recorded.of_get {known : InsertionMap BurrowId StoredBurrow} {burrowId : BurrowId}
    {stored : StoredBurrow} {deliveryId : JsString} (hget : known.get burrowId = some stored)
    (hpaired : stored.record.deliveryId = some deliveryId) : Recorded known deliveryId :=
  ⟨stored, InsertionMap.mem_values_of_get hget, hpaired⟩

/-- A record is lost only by the write to its own Burrow. -/
theorem Recorded.set {known : InsertionMap BurrowId StoredBurrow} {deliveryId : JsString}
    (h : Recorded known deliveryId) (burrowId : BurrowId) (stored : StoredBurrow) :
    Recorded (known.set burrowId stored) deliveryId ∨
      ∃ old, known.get burrowId = some old ∧ old.record.deliveryId = some deliveryId := by
  obtain ⟨old, hmem, hpaired⟩ := h
  obtain ⟨burrowId', hget⟩ := InsertionMap.get_of_mem_values hmem
  by_cases hsame : burrowId = burrowId'
  · exact .inr ⟨old, hsame ▸ hget, hpaired⟩
  · exact .inl (.of_get ((InsertionMap.get_set_ne _ _ hsame).trans hget) hpaired)

theorem Recorded.delete {known : InsertionMap BurrowId StoredBurrow} {deliveryId : JsString}
    (h : Recorded known deliveryId) (burrowId : BurrowId) :
    Recorded (known.delete burrowId) deliveryId ∨
      ∃ old, known.get burrowId = some old ∧ old.record.deliveryId = some deliveryId := by
  obtain ⟨old, hmem, hpaired⟩ := h
  obtain ⟨burrowId', hget⟩ := InsertionMap.get_of_mem_values hmem
  by_cases hsame : burrowId = burrowId'
  · exact .inr ⟨old, hsame ▸ hget, hpaired⟩
  · exact .inl (.of_get ((InsertionMap.get_delete_ne _ hsame).trans hget) hpaired)

namespace PocketDevice

variable {s s' : PocketDevice} {wait : DeliveryWait} {read : RecordRead} {deliveryId : JsString}
  {stored : StoredBurrow} {i : Nat}

/-- The tombstone that a put replaces is of the same id. -/
theorem Sound.tombstoned_put (h : Sound s) (tombstone : PendingDeliveryDeletion)
    (hnamed : Tombstoned s.pendingDeletions deliveryId) :
    Tombstoned (s.putTombstone tombstone).pendingDeletions deliveryId := by
  obtain ⟨other, hmem, hid⟩ := hnamed
  obtain ⟨key, hget⟩ := InsertionMap.get_of_mem_values hmem
  by_cases hsame : tombstone.key = key
  · have hids := (pendingDeletionKey_inj (hsame.trans (h.tombstones hget).symm)).2
    exact ⟨tombstone, InsertionMap.mem_values_of_get (InsertionMap.get_set_self _ _ _),
      hids.trans hid⟩
  · exact ⟨other, InsertionMap.mem_values_of_get
      ((InsertionMap.get_set_ne _ _ hsame).trans hget), hid⟩

theorem tombstoned_put_self (s : PocketDevice) (tombstone : PendingDeliveryDeletion) :
    Tombstoned (s.putTombstone tombstone).pendingDeletions tombstone.deliveryId :=
  ⟨tombstone, InsertionMap.mem_values_of_get (InsertionMap.get_set_self _ _ _), rfl⟩

/-- A tombstone that is cleared takes no other id with it. -/
theorem Sound.tombstoned_clear (h : Sound s) (tombstone : PendingDeliveryDeletion)
    (hother : deliveryId ≠ tombstone.deliveryId)
    (hnamed : Tombstoned s.pendingDeletions deliveryId) :
    Tombstoned (s.pendingDeletions.delete tombstone.key) deliveryId := by
  obtain ⟨other, hmem, hid⟩ := hnamed
  obtain ⟨key, hget⟩ := InsertionMap.get_of_mem_values hmem
  have hkeys : tombstone.key ≠ key := by
    intro hsame
    have hids := (pendingDeletionKey_inj (hsame.trans (h.tombstones hget).symm)).2
    exact hother (hid.symm.trans hids.symm)
  exact ⟨other, InsertionMap.mem_values_of_get
    ((InsertionMap.get_delete_ne _ hkeys).trans hget), hid⟩

/-! ### Calls that do not cross -/

namespace Kept

theorem putTombstone (h : Kept s) (hs : Sound s) (tombstone : PendingDeliveryDeletion) :
    Kept (s.putTombstone tombstone) where
  named row hrow := (h.named row hrow).imp_right (hs.tombstoned_put tombstone)
  shielded wait hmem deliveryId hdisplaces hrow :=
    hs.tombstoned_put tombstone (h.shielded wait hmem deliveryId hdisplaces hrow)

/-- A record is written or deleted by the call that read it: what it held is in the new one,
or has its tombstone. -/
theorem rewrite (h : Kept s) (hmem : wait ∈ s.calls) (hunchanged : s.Unchanged read)
    (known : InsertionMap BurrowId StoredBurrow) (pairings : Nat)
    (hkeeps : ∀ {deliveryId}, Recorded s.knownBurrows deliveryId → Recorded known deliveryId ∨
      ∃ old, s.knownBurrows.get read.burrowId = some old ∧
        old.record.deliveryId = some deliveryId)
    (hnew : ∀ {deliveryId}, read.deliveryId = some deliveryId →
      Recorded known deliveryId ∨ wait.displaces = some deliveryId) :
    Kept { s with knownBurrows := known, pairings := pairings } where
  named row hrow := by
    rcases h.named row hrow with hrecorded | htombstoned
    · rcases hkeeps hrecorded with hkept | ⟨old, hget, hpaired⟩
      · exact .inl hkept
      · have hsome : old.record.deliveryId.isSome = true := by rw [hpaired]; rfl
        have hread : read.deliveryId = some row.2 := by
          unfold RecordRead.deliveryId
          rw [hunchanged old hget hsome]
          exact hpaired
        rcases hnew hread with hrecorded | hdisplaces
        · exact .inl hrecorded
        · exact .inr (h.shielded wait hmem row.2 hdisplaces ⟨row, hrow, rfl⟩)
    · exact .inr htombstoned
  shielded := h.shielded

theorem write (h : Kept s) (hs : Sound s) (hwait : s.calls[i]? = some wait)
    (hcalm : s.CalmWrite wait) (now : Ms) : Kept (s.write wait now) := by
  have hmem := List.mem_of_getElem? hwait
  have hok := hs.waits wait hmem
  cases wait with
  | pairTombstone | dropTombstone | forgetTombstone => exact h.putTombstone hs _
  | pairWrite ceremony approval read =>
    have hburrow : read.burrowId = ceremony.burrowId := hok.fits
    refine h.rewrite hmem (hcalm.1 read rfl) _ _ (fun hrecorded => ?_) (fun {deliveryId} hread => ?_)
    · rw [hburrow]
      exact hrecorded.set _ _
    · by_cases hsame : deliveryId = approval.deliveryId
      · exact .inl (.of_get (InsertionMap.get_set_self _ _ _) (congrArg some hsame.symm))
      · refine .inr (Option.filter_eq_some_iff.2 ⟨hread, ?_⟩)
        exact decide_eq_true hsame
  | dropWrite record read deliveryId =>
    have hburrow : read.burrowId = record.burrowId := hok.fits.1
    refine h.rewrite hmem (hcalm.1 read rfl) _ _ (fun hrecorded => ?_) (fun hread => .inr hread)
    rw [hburrow]
    exact hrecorded.set _ _
  | forgetDelete read =>
    exact h.rewrite hmem (hcalm.1 read rfl) _ _ (fun hrecorded => hrecorded.delete _)
      (fun hread => .inr hread)
  | clearing tombstone queued =>
    have hclear := hcalm.2 tombstone queued rfl
    refine ⟨fun row hrow => ?_, fun other hother deliveryId hdisplaces hrow => ?_⟩
    · by_cases hsame : row.2 = tombstone.deliveryId
      · rcases hclear with hgone | hsettled
        · exact absurd ⟨row, hrow, hsame⟩ hgone
        · exact .inl (hsame ▸ hsettled.1)
      · exact (h.named row hrow).imp_right (hs.tombstoned_clear tombstone hsame)
    · by_cases hsame : deliveryId = tombstone.deliveryId
      · rcases hclear with hgone | hsettled
        · exact absurd (hsame ▸ hrow) hgone
        · exact absurd (hsame ▸ hdisplaces) (hsettled.2 other hother)
      · exact hs.tombstoned_clear tombstone hsame
          (h.shielded other hother deliveryId hdisplaces hrow)
  | _ => exact h

end Kept

/-- A call that has put its tombstone has it. -/
theorem tombstoned_afterWrite {known : InsertionMap BurrowId StoredBurrow} {pairings : Nat}
    (h : WaitOk known pairings wait) (now : Ms) :
    ∀ next, afterWrite wait now = some next → ∀ deliveryId, next.displaces = some deliveryId →
      Tombstoned (s.write wait now).pendingDeletions deliveryId := by
  intro next heq deliveryId hdisplaces
  cases wait with
  | pairTombstone ceremony approval read deliveryId' =>
    cases heq
    have hread := (Option.filter_eq_some_iff.1 hdisplaces).1
    cases h.fits.2.symm.trans hread
    exact tombstoned_put_self s _
  | dropTombstone record read deliveryId' =>
    cases heq
    cases h.fits.2.symm.trans hdisplaces
    exact tombstoned_put_self s _
  | forgetTombstone read deliveryId' =>
    cases heq
    cases Eq.trans (Eq.symm h.fits) hdisplaces
    exact tombstoned_put_self s _
  | dropWrite | forgetDelete | clearing =>
    cases heq
    cases hdisplaces
  | _ => cases heq

theorem displaces_afterFailure {next : DeliveryWait} (h : afterFailure wait = some next) :
    next.displaces = none := by
  unfold afterFailure at h
  split at h
  · cases h
    rfl
  · cases h
    rfl
  · cases h
    rfl
  · cases h

theorem Kept.storeRead (h : Kept s) (i : Nat) : Kept (s.storeRead i) := by
  have hgo {wait : DeliveryWait} (hnone : wait.displaces = none) : Kept (s.goOn i wait) :=
    h.goOn fun _ hdisplaces => by cases hnone.symm.trans hdisplaces
  unfold PocketDevice.storeRead
  split
  · next ceremony approval _ =>
      dsimp only
      have hwrite (hkeeps : ∀ deliveryId,
          (s.readRecord ceremony.burrowId).deliveryId = some deliveryId →
            deliveryId = approval.deliveryId) :
          Kept (s.goOn i (.pairWrite ceremony approval (s.readRecord ceremony.burrowId))) := by
        refine h.goOn fun deliveryId hdisplaces => ?_
        obtain ⟨hread, hne⟩ := Option.filter_eq_some_iff.1 hdisplaces
        exact absurd (hkeeps deliveryId hread) (of_decide_eq_true hne)
      split
      · next hget =>
          refine hwrite fun deliveryId hread => ?_
          unfold RecordRead.deliveryId at hread
          rw [hget] at hread
          cases hread
      next existing hget =>
        split
        · exact h.finish
        split
        · next hunpaired =>
            refine hwrite fun deliveryId hread => ?_
            cases (deliveryId_readRecord hget).symm.trans hread ▸ hunpaired
        next deliveryId hpaired =>
          split
          · next hsame =>
              refine hwrite fun deliveryId' hread => ?_
              cases ((deliveryId_readRecord hget).trans hpaired).symm.trans hread
              exact hsame
          · exact hgo rfl
  · dsimp only
    split
    · exact h.finish
    · split
      · exact hgo rfl
      · exact h.finish
  · next burrowId _ =>
      dsimp only
      split
      · next hunpaired =>
          refine h.goOn fun deliveryId hdisplaces => ?_
          cases hunpaired.symm.trans hdisplaces
      · exact hgo rfl
  · split
    · exact h.finish
    · exact hgo rfl
  · exact hgo rfl
  · exact h

/-- The Relay takes a subscription for an id that is settled, or has its tombstone. -/
theorem Kept.subscribed (h : Kept s) (burrowId : BurrowId)
    (hnamed : Tombstoned s.pendingDeletions deliveryId ∨ s.Settled deliveryId)
    (rows : List (BurrowId × JsString))
    (hrows : ∀ row ∈ rows, row = (burrowId, deliveryId) ∨ row ∈ s.rows) :
    Kept { s with rows := rows } where
  named row hrow := by
    rcases hrows row hrow with rfl | hold
    · exact hnamed.elim .inr fun hsettled => .inl hsettled.1
    · exact h.named row hold
  shielded wait hmem deliveryId' hdisplaces hrow := by
    obtain ⟨row, hrow, rfl⟩ := hrow
    rcases hrows row hrow with rfl | hold
    · exact hnamed.elim id fun hsettled => absurd hdisplaces (hsettled.2 wait hmem)
    · exact h.shielded wait hmem row.2 hdisplaces ⟨row, hold, rfl⟩

theorem Kept.fewer (h : Kept s) (rows : List (BurrowId × JsString)) (hrows : rows ⊆ s.rows) :
    Kept { s with rows := rows } where
  named row hrow := h.named row (hrows hrow)
  shielded wait hmem deliveryId hdisplaces hrow := by
    obtain ⟨row, hrow, rfl⟩ := hrow
    exact h.shielded wait hmem row.2 hdisplaces ⟨row, hrows hrow, rfl⟩

theorem Kept.perform (h : Kept s) (hs : Sound s) {act : DeliveryAct} (hcalm : s.Calm act) :
    Kept (s.perform act) := by
  have hgo {wait : DeliveryWait} {i : Nat} (hnone : wait.displaces = none) : Kept (s.goOn i wait) :=
    h.goOn fun _ hdisplaces => by cases hnone.symm.trans hdisplaces
  have hsend (request : DeliveryRequest) : Kept (s.send request) := ⟨h.named, h.shielded⟩
  cases act with
  | pair | connect | forgetBurrow | subscribeToPush | retirePendingDeletions => exact h.start rfl
  | approved i approval =>
    change Kept (s.approved i approval)
    unfold PocketDevice.approved
    split
    · split
      · exact hgo rfl
      · exact h.finish
    · exact h
  | connected i pairingRequired =>
    change Kept (s.connected i pairingRequired)
    unfold PocketDevice.connected
    split
    · split
      · split
        · exact h.finish
        · exact hgo rfl
      · exact h.finish
    · exact h
  | storeRead i => exact h.storeRead i
  | storeWrite i now =>
    change Kept (s.storeWrite i now)
    unfold PocketDevice.storeWrite
    split
    · next wait hwait =>
        split
        · refine (h.write hs hwait (hcalm wait hwait) now).resume fun next hnext => ?_
          exact fun deliveryId hdisplaces _ =>
            tombstoned_afterWrite (hs.wait_of_write hwait now) now next hnext deliveryId hdisplaces
        · exact h
    · exact h
  | failed i landed now =>
    change Kept (s.failed i landed now)
    have hnone (next : DeliveryWait) {wait : DeliveryWait} (hnext : afterFailure wait = some next)
        (deliveryId : JsString) : next.displaces ≠ some deliveryId := by
      rw [displaces_afterFailure hnext]
      exact nofun
    unfold PocketDevice.failed
    split
    · next wait hwait =>
        cases landed with
        | true =>
          refine (h.write hs hwait (hcalm wait hwait) now).resume fun next hnext => ?_
          exact fun deliveryId hdisplaces => absurd hdisplaces (hnone next hnext deliveryId)
        | false =>
          refine Kept.resume h fun next hnext => ?_
          exact fun deliveryId hdisplaces => absurd hdisplaces (hnone next hnext deliveryId)
    · exact h
  | sent i =>
    change Kept (s.sent i)
    unfold PocketDevice.sent
    split
    · exact (hsend _).finish
    · exact h.finish
    · refine (hsend _).goOn fun _ hdisplaces => ?_
      cases hdisplaces
    · exact h
  | deleteAnswered i =>
    change Kept (s.deleteAnswered i)
    unfold PocketDevice.deleteAnswered
    split
    · split
      · exact hgo rfl
      · exact h
    · exact h
  | relayTakes k stored keeps =>
    change Kept (s.relayTakes k stored keeps)
    unfold PocketDevice.relayTakes
    split
    · next number request hrequest =>
        cases request with
        | subscribe burrowId deliveryId =>
          cases stored with
          | true =>
            have hkept := h.subscribed burrowId (hcalm number burrowId deliveryId hrequest)
              ((burrowId, deliveryId) :: s.rows.filter keeps) fun row hrow =>
                (List.mem_cons.1 hrow).imp_right fun hold => (List.mem_filter.1 hold).1
            exact ⟨hkept.named, hkept.shielded⟩
          | false => exact ⟨h.named, h.shielded⟩
        | delete deliveryId =>
          have hkept := h.fewer (s.rows.filter fun row => row.2 ≠ deliveryId)
            List.filter_sublist.subset
          exact ⟨hkept.named, hkept.shielded⟩
    · exact h
  | rowsLost keeps => exact h.fewer _ List.filter_sublist.subset

theorem sound_inductive : deliveryRuns.Inductive Sound where
  init hinit := by
    cases hinit
    exact sound_fresh
  step h hstep := by
    cases hstep
    exact h.perform _

theorem calm_inductive : calmRuns.Inductive fun s => Sound s ∧ Kept s where
  init hinit := by
    cases hinit
    exact ⟨sound_fresh, List.forall_mem_nil _, List.forall_mem_nil _⟩
  step := by
    rintro s s' act ⟨hs, hkept⟩ ⟨hcalm, rfl⟩
    exact ⟨hs.perform act, hkept.perform hs hcalm⟩

/-! ### Who changes a record -/

/-- A write changes the record of the Burrow that its call has read, and no other. -/
theorem get_write (h : WaitOk s.knownBurrows s.pairings wait) {burrowId : BurrowId} (now : Ms) :
    (s.write wait now).knownBurrows.get burrowId = s.knownBurrows.get burrowId ∨
      ∃ read, wait.rewrites = some read ∧ read.burrowId = burrowId := by
  cases wait with
  | pairWrite ceremony approval read =>
    by_cases hsame : ceremony.burrowId = burrowId
    · exact .inr ⟨read, rfl, Eq.trans h.fits hsame⟩
    · exact .inl (InsertionMap.get_set_ne _ _ hsame)
  | dropWrite record read deliveryId =>
    by_cases hsame : record.burrowId = burrowId
    · exact .inr ⟨read, rfl, h.fits.1.trans hsame⟩
    · exact .inl (InsertionMap.get_set_ne _ _ hsame)
  | forgetDelete read =>
    by_cases hsame : read.burrowId = burrowId
    · exact .inr ⟨read, rfl, hsame⟩
    · exact .inl (InsertionMap.get_delete_ne _ hsame)
  | _ => exact .inl rfl

theorem knownBurrows_resume (next : Option DeliveryWait) :
    (s.resume i next).knownBurrows = s.knownBurrows := by
  cases next <;> rfl

theorem knownBurrows_storeRead (i : Nat) : (s.storeRead i).knownBurrows = s.knownBurrows := by
  unfold PocketDevice.storeRead
  dsimp only
  repeat' split
  all_goals rfl

/-- A record changes only at the write of a call that has read it, and meets the condition. -/
theorem Sound.get_perform (h : Sound s) {act : DeliveryAct} (hcalm : s.Calm act)
    {burrowId : BurrowId}
    (hchanged : (s.perform act).knownBurrows.get burrowId ≠ s.knownBurrows.get burrowId) :
    ∃ wait ∈ s.calls, ∃ read, wait.rewrites = some read ∧ read.burrowId = burrowId ∧
      s.Unchanged read := by
  have hwrite {i : Nat} {wait : DeliveryWait} {now : Ms} (hwait : s.calls[i]? = some wait)
      (hcalm : s.CalmWrite wait)
      (hne : (s.write wait now).knownBurrows.get burrowId ≠ s.knownBurrows.get burrowId) :
      ∃ wait ∈ s.calls, ∃ read, wait.rewrites = some read ∧ read.burrowId = burrowId ∧
        s.Unchanged read := by
    have hmem := List.mem_of_getElem? hwait
    rcases get_write (h.waits wait hmem) now with hsame | ⟨read, hrewrites, hburrow⟩
    · exact absurd hsame hne
    · exact ⟨wait, hmem, read, hrewrites, hburrow, hcalm.1 read hrewrites⟩
  cases act with
  | storeWrite i now =>
    change (s.storeWrite i now).knownBurrows.get _ ≠ _ at hchanged
    unfold PocketDevice.storeWrite at hchanged
    split at hchanged
    · next wait hwait =>
        split at hchanged
        · rw [knownBurrows_resume] at hchanged
          exact hwrite hwait (hcalm wait hwait) hchanged
        · exact absurd rfl hchanged
    · exact absurd rfl hchanged
  | failed i landed now =>
    change (s.failed i landed now).knownBurrows.get _ ≠ _ at hchanged
    unfold PocketDevice.failed at hchanged
    split at hchanged
    · next wait hwait =>
        rw [knownBurrows_resume] at hchanged
        cases landed with
        | true => exact hwrite hwait (hcalm wait hwait) hchanged
        | false => exact absurd rfl hchanged
    · exact absurd rfl hchanged
  | storeRead i => exact absurd (congrArg (InsertionMap.get · _) (knownBurrows_storeRead i)) hchanged
  | approved i approval =>
    change (s.approved i approval).knownBurrows.get _ ≠ _ at hchanged
    unfold PocketDevice.approved at hchanged
    repeat' split at hchanged
    all_goals exact absurd rfl hchanged
  | connected i pairingRequired =>
    change (s.connected i pairingRequired).knownBurrows.get _ ≠ _ at hchanged
    unfold PocketDevice.connected at hchanged
    repeat' split at hchanged
    all_goals exact absurd rfl hchanged
  | sent i =>
    change (s.sent i).knownBurrows.get _ ≠ _ at hchanged
    unfold PocketDevice.sent at hchanged
    repeat' split at hchanged
    all_goals exact absurd rfl hchanged
  | deleteAnswered i =>
    change (s.deleteAnswered i).knownBurrows.get _ ≠ _ at hchanged
    unfold PocketDevice.deleteAnswered at hchanged
    repeat' split at hchanged
    all_goals exact absurd rfl hchanged
  | relayTakes k stored keeps =>
    change (s.relayTakes k stored keeps).knownBurrows.get _ ≠ _ at hchanged
    unfold PocketDevice.relayTakes at hchanged
    split at hchanged
    · exact absurd rfl hchanged
    · exact absurd rfl hchanged
  | _ => exact absurd rfl hchanged

end PocketDevice

/-! ### Two pairings that cross -/

namespace TwoPairings

open PocketDevice

def burrowId : BurrowId := ⟨List.replicate 22 0x41, by decide⟩

def ceremony : PairingCeremony := ⟨burrowId, js "client", js "cred-1", js "hash-1"⟩

def approval (deliveryId : JsString) : PairingApproval :=
  ⟨List.replicate 43 0x41, js "laptop", js "owner", js "cred-1", js "hash-1", deliveryId⟩

/-- The second pairing reads before the first has written. -/
def crossing : List DeliveryAct :=
  [.pair ceremony, .pair ceremony, .approved 0 (approval (js "d1")), .approved 1 (approval (js "d2")),
    .storeRead 0, .storeRead 1, .storeWrite 0 1]

/-- A pairing's id is subscribed with. -/
def subscribing (i : Nat) : List DeliveryAct :=
  [.subscribeToPush burrowId, .storeRead i, .sent i, .relayTakes 0 true fun _ => true]

def performAll (s : PocketDevice) (acts : List DeliveryAct) : PocketDevice :=
  acts.foldl PocketDevice.perform s

def before : PocketDevice := performAll (performAll fresh crossing) (subscribing 1)

def after : PocketDevice := before.perform (.storeWrite 0 2)

theorem reachable_before : deliveryRuns.Reachable before :=
  .foldl (fun _ _ => rfl) _ (.foldl (fun _ _ => rfl) _ (.start rfl))

/-- One pairing, and its subscription. -/
def paired : PocketDevice :=
  performAll fresh
    [.pair ceremony, .approved 0 (approval (js "d1")), .storeRead 0]

def subscribed : PocketDevice := performAll (paired.perform (.storeWrite 0 1)) (subscribing 0)

theorem calm_performAll : ∀ (acts : List DeliveryAct) {s : PocketDevice},
    (∀ act ∈ acts, ∀ s : PocketDevice, s.Calm act) → calmRuns.Reachable s →
      calmRuns.Reachable (performAll s acts)
  | [], _, _, h => h
  | act :: acts, s, hcalm, h =>
    calm_performAll acts (fun act' hact => hcalm act' (List.mem_cons_of_mem _ hact))
      (.next h ⟨hcalm act List.mem_cons_self s, rfl⟩)

theorem calm_subscribed : calmRuns.Reachable subscribed := by
  have hpaired : calmRuns.Reachable paired :=
    calm_performAll _ (by simp [Calm]) (.start rfl)
  have hwritten : calmRuns.Reachable (paired.perform (.storeWrite 0 1)) := by
    have hcalm : paired.Calm (.storeWrite 0 1) := by
      refine fun wait hwait => ⟨fun read _ stored hget => ?_, ?_⟩
      · have hempty : paired.knownBurrows.entries = [] := by decide +kernel
        have hnone : paired.knownBurrows.get read.burrowId = none := by
          unfold InsertionMap.get
          rw [hempty]
          rfl
        cases hnone.symm.trans hget
      · rintro tombstone queued rfl
        have hcall : paired.calls.all
            (fun wait => match wait with | .clearing .. => false | _ => true) = true := by
          decide +kernel
        exact absurd (List.all_eq_true.1 hcall _ (List.mem_of_getElem? hwait)) Bool.false_ne_true
    exact .next hpaired ⟨hcalm, rfl⟩
  have hsent : calmRuns.Reachable (performAll (paired.perform (.storeWrite 0 1))
      [.subscribeToPush burrowId, .storeRead 0, .sent 0]) :=
    calm_performAll _ (by simp [Calm]) hwritten
  refine .next hsent (a := .relayTakes 0 true fun _ => true) ⟨fun number b deliveryId hrequest => ?_, rfl⟩
  have hid : deliveryId = js "d1" := by
    have hrequests : (performAll (paired.perform (.storeWrite 0 1))
        [.subscribeToPush burrowId, .storeRead 0, .sent 0]).requests[0]? =
          some (0, .subscribe burrowId (js "d1")) := by
      decide +kernel
    cases hrequests.symm.trans hrequest
    rfl
  subst hid
  have hcalls : (performAll (paired.perform (.storeWrite 0 1))
      [.subscribeToPush burrowId, .storeRead 0, .sent 0]).calls = [] := by
    decide +kernel
  refine .inr ⟨by decide +kernel, fun wait hmem => ?_⟩
  rw [hcalls] at hmem
  cases hmem

end TwoPairings

end Dormouse.Pocket

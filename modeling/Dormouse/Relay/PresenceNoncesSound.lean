import Dormouse.Relay.PresenceNonces

/-!
# Dormouse.Relay.PresenceNoncesSound

**What the presence nonces of a Relay come to**: both maps hold the same nonces, each is redeemed
once, in time and with its own binding, and none that is live goes away for what another session
does, short of thirty-two of them.

Buckets stand in the order of their last use, and the nonces of a bucket in the order they were
remembered in, so that what is evicted first has all the others behind it.
-/

namespace Dormouse.Relay

open Security (PresenceBinding)
open Terminal (Ms)

variable {σ : Type} [DecidableEq σ]

/-! ### The order of calls -/

section Order

variable {σ : Type}

/-- The session remembered `m` after it had remembered `n`. -/
def RememberedBefore (calls : List (PresenceCall σ)) (session : σ) (n m : JsString) : Prop :=
  ∃ (i j : Nat) (c d : PresenceCall σ), i < j ∧ calls[i]? = some c ∧ c.Remembers session n ∧
    calls[j]? = some d ∧ d.Remembers session m

/-- `b` was used, and `a` not since. -/
def UsedSince (calls : List (PresenceCall σ)) (a b : σ) : Prop :=
  ∃ (j : Nat) (c : PresenceCall σ), calls[j]? = some c ∧ c.Uses b ∧
    ∀ (i : Nat) (d : PresenceCall σ), j ≤ i → calls[i]? = some d → ¬d.Uses a

theorem getElem?_append_of_some {calls : List (PresenceCall σ)} {i : Nat} {c d : PresenceCall σ}
    (h : calls[i]? = some c) : (calls ++ [d])[i]? = some c := by
  rw [List.getElem?_append_left (List.getElem?_eq_some_iff.1 h).1, h]

theorem RememberedBefore.append {calls : List (PresenceCall σ)} {session : σ} {n m : JsString}
    (h : RememberedBefore calls session n m) (call : PresenceCall σ) :
    RememberedBefore (calls ++ [call]) session n m := by
  obtain ⟨i, j, c, d, hij, hi, hc, hj, hd⟩ := h
  exact ⟨i, j, c, d, hij, getElem?_append_of_some hi, hc, getElem?_append_of_some hj, hd⟩

theorem RememberedBefore.last {calls : List (PresenceCall σ)} {session : σ} {n m : JsString}
    {c call : PresenceCall σ} (hmem : c ∈ calls) (hc : c.Remembers session n)
    (hcall : call.Remembers session m) : RememberedBefore (calls ++ [call]) session n m := by
  obtain ⟨i, hi⟩ := List.mem_iff_getElem?.1 hmem
  exact ⟨i, calls.length, c, call, (List.getElem?_eq_some_iff.1 hi).1,
    getElem?_append_of_some hi, hc, List.getElem?_concat_length, hcall⟩

theorem UsedSince.append {calls : List (PresenceCall σ)} {a b : σ} (h : UsedSince calls a b)
    {call : PresenceCall σ} (hcall : ¬call.Uses a) : UsedSince (calls ++ [call]) a b := by
  obtain ⟨j, c, hj, hc, hlater⟩ := h
  refine ⟨j, c, getElem?_append_of_some hj, hc, fun i d hle hi => ?_⟩
  rw [List.getElem?_append] at hi
  split at hi
  · exact hlater i d hle hi
  · obtain rfl := List.mem_singleton.1 (List.mem_of_getElem? hi)
    exact hcall

theorem UsedSince.last {calls : List (PresenceCall σ)} {a b : σ} {call : PresenceCall σ}
    (ha : ¬call.Uses a) (hb : call.Uses b) : UsedSince (calls ++ [call]) a b := by
  refine ⟨calls.length, call, List.getElem?_concat_length, hb, fun i d hle hi => ?_⟩
  rw [List.getElem?_append_right hle] at hi
  obtain rfl := List.mem_singleton.1 (List.mem_of_getElem? hi)
  exact ha

end Order

namespace PresenceNonceStore

variable {store store' : PresenceNonceStore σ} {calls : List (PresenceCall σ)} {limit : Nat}

/-! ### What is kept -/

/-- The owner index holds the nonces of all buckets. -/
def Owned (store : PresenceNonceStore σ) : Prop :=
  ∀ n a, store.owner.get n = some a ↔ ∃ e, store.Holds a n e

/-- No bucket is empty. -/
def NoneEmpty (store : PresenceNonceStore σ) : Prop :=
  ∀ a bucket, store.bySession.get a = some bucket → bucket.size ≠ 0

structure Kept (calls : List (PresenceCall σ)) (limit : Nat) (store : PresenceNonceStore σ) :
    Prop where
  owned : store.Owned
  noneEmpty : store.NoneEmpty
  capped : ∀ a bucket, store.bySession.get a = some bucket →
    bucket.size ≤ maxPendingReauthNoncesPerSession
  sessions : store.bySession.size ≤ limit
  remembered : ∀ a n e, store.Holds a n e →
    ∃ t, PresenceCall.remember a n e.binding t ∈ calls ∧ e.expiresAt = t + reauthNonceTtlMs
  oldestFirst : ∀ a bucket, store.bySession.get a = some bucket →
    bucket.keys.Pairwise (RememberedBefore calls a)
  stalestFirst : store.bySession.keys.Pairwise (UsedSince calls)

/-- A nonce is in one bucket, with one entry. -/
theorem Owned.unique (h : store.Owned) {a b : σ} {n : JsString} {e e' : PendingPresenceNonce}
    (ha : store.Holds a n e) (hb : store.Holds b n e') : a = b ∧ e = e' := by
  have hab : a = b :=
    Option.some.inj (((h n a).2 ⟨e, ha⟩).symm.trans ((h n b).2 ⟨e', hb⟩))
  subst hab
  obtain ⟨bucket, hbucket, hentry⟩ := ha
  obtain ⟨bucket', hbucket', hentry'⟩ := hb
  obtain rfl := Option.some.inj (hbucket.symm.trans hbucket')
  exact ⟨rfl, Option.some.inj (hentry.symm.trans hentry')⟩

/-- What sweeping, forgetting and spending do: buckets lose nonces, and the map buckets. -/
structure Shrinks (store store' : PresenceNonceStore σ) : Prop where
  buckets : ∀ a bucket', store'.bySession.get a = some bucket' →
    ∃ bucket, store.bySession.get a = some bucket ∧ bucket'.entries.Sublist bucket.entries
  sessions : store'.bySession.keys.Sublist store.bySession.keys

theorem get_of_sublist {κ ν : Type} [DecidableEq κ] {m m' : InsertionMap κ ν}
    (h : m'.entries.Sublist m.entries) {k : κ} {v : ν} (hget : m'.get k = some v) :
    m.get k = some v :=
  InsertionMap.get_eq_some.2 (h.subset (InsertionMap.get_eq_some.1 hget))

theorem Shrinks.holds (h : Shrinks store store') {a : σ} {n : JsString} {e : PendingPresenceNonce}
    (hholds : store'.Holds a n e) : store.Holds a n e := by
  obtain ⟨bucket', hbucket', hentry⟩ := hholds
  obtain ⟨bucket, hbucket, hsub⟩ := h.buckets a bucket' hbucket'
  exact ⟨bucket, hbucket, get_of_sublist hsub hentry⟩

theorem Kept.shrink (h : store.Kept calls limit) (hshrinks : Shrinks store store')
    (howned : store'.Owned) (hnone : store'.NoneEmpty) : store'.Kept calls limit where
  owned := howned
  noneEmpty := hnone
  capped := by
    intro a bucket' hbucket'
    obtain ⟨bucket, hbucket, hsub⟩ := hshrinks.buckets a bucket' hbucket'
    exact hsub.length_le.trans (h.capped a bucket hbucket)
  sessions := by
    have hle := hshrinks.sessions.length_le
    rw [← InsertionMap.size_eq, ← InsertionMap.size_eq] at hle
    exact hle.trans h.sessions
  remembered := fun a n e hholds => h.remembered a n e (hshrinks.holds hholds)
  oldestFirst := by
    intro a bucket' hbucket'
    obtain ⟨bucket, hbucket, hsub⟩ := hshrinks.buckets a bucket' hbucket'
    exact (h.oldestFirst a bucket hbucket).sublist (hsub.map Prod.fst)
  stalestFirst := h.stalestFirst.sublist hshrinks.sessions

/-! ### Sweeping -/

theorem keys_filterMap_sublist {κ ν μ : Type} [DecidableEq κ] (f : ν → Option μ)
    (m : InsertionMap κ ν) : (m.filterMap f).keys.Sublist m.keys := by
  show ((m.entries.filterMap fun e => (f e.2).map fun v => (e.1, v)).map Prod.fst).Sublist
    (m.entries.map Prod.fst)
  induction m.entries with
  | nil => exact List.Sublist.refl _
  | cons e es ih =>
    cases h : f e.2 with
    | none => simpa [h] using ih.cons e.1
    | some v => simpa [h] using ih

theorem size_ne_zero_of_get {κ ν : Type} [DecidableEq κ] {m : InsertionMap κ ν} {k : κ} {v : ν}
    (h : m.get k = some v) : m.size ≠ 0 :=
  (List.length_pos_of_mem (InsertionMap.get_eq_some.1 h)).ne'

/-- What a sweep leaves of a bucket: its live nonces, if there are any. -/
theorem sweepBucket_some {now : Ms} {bucket bucket' : PresenceBucket}
    (h : sweepBucket now bucket = some bucket') :
    bucket' = bucket.filter (fun _ entry => decide (now < entry.expiresAt)) ∧ bucket'.size ≠ 0 := by
  unfold sweepBucket at h
  dsimp only at h
  split at h
  · cases h
  · rename_i hsize
    cases h
    exact ⟨rfl, hsize⟩

theorem holds_sweepExpired {now : Ms} {a : σ} {n : JsString} {e : PendingPresenceNonce} :
    (store.sweepExpired now).Holds a n e ↔ store.Holds a n e ∧ now < e.expiresAt := by
  unfold Holds sweepExpired
  simp only [InsertionMap.get_filterMap, Option.bind_eq_some_iff]
  constructor
  · rintro ⟨bucket', ⟨bucket, hbucket, hsweep⟩, hentry⟩
    obtain ⟨rfl, -⟩ := sweepBucket_some hsweep
    rw [InsertionMap.get_filter, Option.filter_eq_some_iff, decide_eq_true_eq] at hentry
    exact ⟨⟨bucket, hbucket, hentry.1⟩, hentry.2⟩
  · rintro ⟨⟨bucket, hbucket, hentry⟩, hlive⟩
    have hkept : (bucket.filter fun _ entry => decide (now < entry.expiresAt)).get n = some e := by
      rw [InsertionMap.get_filter, hentry, Option.filter_some, if_pos (by simpa using hlive)]
    refine ⟨_, ⟨bucket, hbucket, ?_⟩, hkept⟩
    rw [sweepBucket, if_neg (size_ne_zero_of_get hkept)]

theorem mem_expired {now : Ms} {n : JsString} :
    n ∈ store.expired now ↔ ∃ a e, store.Holds a n e ∧ ¬now < e.expiresAt := by
  unfold expired Holds
  simp only [List.mem_flatMap, List.mem_map, List.mem_filter, Bool.not_eq_true', decide_eq_false_iff_not]
  constructor
  · rintro ⟨⟨a, bucket⟩, hbucket, ⟨n, e⟩, ⟨hentry, hdead⟩, rfl⟩
    exact ⟨a, e, ⟨bucket, InsertionMap.get_eq_some.2 hbucket, InsertionMap.get_eq_some.2 hentry⟩,
      hdead⟩
  · rintro ⟨a, e, ⟨bucket, hbucket, hentry⟩, hdead⟩
    exact ⟨(a, bucket), InsertionMap.get_eq_some.1 hbucket, (n, e),
      ⟨InsertionMap.get_eq_some.1 hentry, hdead⟩, rfl⟩

theorem Kept.sweepExpired (h : store.Kept calls limit) (now : Ms) :
    (store.sweepExpired now).Kept calls limit := by
  refine h.shrink ⟨?_, keys_filterMap_sublist _ _⟩ ?_ ?_
  · intro a bucket' hbucket'
    rw [PresenceNonceStore.sweepExpired, InsertionMap.get_filterMap, Option.bind_eq_some_iff] at hbucket'
    obtain ⟨bucket, hbucket, hsweep⟩ := hbucket'
    obtain ⟨rfl, -⟩ := sweepBucket_some hsweep
    exact ⟨bucket, hbucket, List.filter_sublist⟩
  · intro n a
    simp only [holds_sweepExpired]
    rw [PresenceNonceStore.sweepExpired, InsertionMap.get_foldl_delete]
    constructor
    · intro hget
      split at hget
      · cases hget
      · rename_i hlive
        obtain ⟨e, he⟩ := (h.owned n a).1 hget
        exact ⟨e, he, by_contra fun hdead => hlive (mem_expired.2 ⟨a, e, he, hdead⟩)⟩
    · rintro ⟨e, he, hlive⟩
      rw [if_neg, (h.owned n a).2 ⟨e, he⟩]
      intro hmem
      obtain ⟨b, e', he', hdead⟩ := mem_expired.1 hmem
      obtain ⟨-, rfl⟩ := h.owned.unique he he'
      exact hdead hlive
  · intro a bucket' hbucket'
    rw [PresenceNonceStore.sweepExpired, InsertionMap.get_filterMap, Option.bind_eq_some_iff] at hbucket'
    obtain ⟨bucket, -, hsweep⟩ := hbucket'
    exact (sweepBucket_some hsweep).2

/-! ### Forgetting the stalest -/

theorem get_forget_owner {session a : σ} {n : JsString} :
    (store.forget session).owner.get n = some a ↔
      (¬∃ e, store.Holds session n e) ∧ store.owner.get n = some a := by
  have hkeys : n ∈ ((store.bySession.get session).map InsertionMap.keys).getD [] ↔
      ∃ e, store.Holds session n e := by
    unfold Holds
    cases store.bySession.get session with
    | none => simp
    | some bucket =>
      rw [Option.map_some, Option.getD_some, ← InsertionMap.has_iff, InsertionMap.has,
        Option.isSome_iff_exists]
      simp
  rw [forget, InsertionMap.get_foldl_delete, ← hkeys]
  split
  · rename_i hmem
    exact ⟨(fun h => by cases h), fun h => absurd hmem h.1⟩
  · rename_i hmem
    exact ⟨fun h => ⟨hmem, h⟩, And.right⟩

theorem holds_forget {session a : σ} {n : JsString} {e : PendingPresenceNonce} :
    (store.forget session).Holds a n e ↔ a ≠ session ∧ store.Holds a n e := by
  unfold Holds forget
  simp only [InsertionMap.get_delete]
  by_cases ha : session = a
  · simp [ha]
  · simp [ha, Ne.symm ha]

theorem Kept.forget (h : store.Kept calls limit) (session : σ) :
    (store.forget session).Kept calls limit := by
  have hget : ∀ {a bucket}, (store.forget session).bySession.get a = some bucket →
      store.bySession.get a = some bucket := by
    intro a bucket hbucket
    rw [PresenceNonceStore.forget, InsertionMap.get_delete] at hbucket
    split at hbucket
    · cases hbucket
    · exact hbucket
  refine h.shrink ⟨fun a bucket hbucket => ⟨bucket, hget hbucket, List.Sublist.refl _⟩, ?_⟩ ?_ ?_
  · rw [PresenceNonceStore.forget, InsertionMap.keys_delete]
    exact List.filter_sublist
  · intro n a
    simp only [holds_forget]
    rw [get_forget_owner, h.owned n a]
    constructor
    · rintro ⟨hnot, e, he⟩
      exact ⟨e, fun heq => hnot ⟨e, heq ▸ he⟩, he⟩
    · rintro ⟨e, hne, he⟩
      refine ⟨?_, e, he⟩
      rintro ⟨e', he'⟩
      exact hne (h.owned.unique he he').1
  · exact fun a bucket hbucket => h.noneEmpty a bucket (hget hbucket)

/-- One bucket over the ceiling: the stalest is forgotten, and all the others stay. -/
theorem forgetStalest_cases (h : store.bySession.size ≤ maxReauthNonceSessions + 1) :
    (store.bySession.size ≤ maxReauthNonceSessions ∧ store.forgetStalest = store) ∨
      ∃ stalest rest, store.bySession.keys = stalest :: rest ∧
        rest.length = maxReauthNonceSessions ∧ store.forgetStalest = store.forget stalest := by
  rw [forgetStalest]
  split
  · rename_i hover
    split
    · rename_i hkeys
      rw [InsertionMap.size_eq, hkeys] at hover
      exact absurd hover (Nat.not_lt_zero _)
    rename_i stalest rest hkeys
    have hlength : (store.forget stalest).bySession.size < store.bySession.size :=
      size_delete_lt hkeys
    refine .inr ⟨stalest, rest, hkeys, ?_, ?_⟩
    · rw [InsertionMap.size_eq, hkeys, List.length_cons] at h hover
      omega
    · rw [forgetStalest, if_neg (by omega)]
  · rename_i hroom
    exact .inl ⟨Nat.le_of_not_lt hroom, rfl⟩

theorem Kept.forgetStalest (h : store.Kept calls (maxReauthNonceSessions + 1)) :
    store.forgetStalest.Kept calls maxReauthNonceSessions := by
  rcases forgetStalest_cases h.sessions with ⟨hsize, heq⟩ | ⟨stalest, rest, hkeys, -, heq⟩
  · rw [heq]
    exact { h with sessions := hsize }
  · rw [heq]
    have hlt : (store.forget stalest).bySession.size < store.bySession.size := size_delete_lt hkeys
    exact { h.forget stalest with
      sessions := Nat.le_of_lt_succ (Nat.lt_of_lt_of_le hlt h.sessions) }

/-! ### Inserting -/

/-- The bucket a session has, or a new one. -/
def bucketOf (store : PresenceNonceStore σ) (session : σ) : PresenceBucket :=
  (store.bySession.get session).getD .empty

theorem get_bucketOf {session : σ} {n : JsString} {e : PendingPresenceNonce} :
    (store.bucketOf session).get n = some e ↔ store.Holds session n e := by
  unfold bucketOf Holds
  cases store.bySession.get session with
  | none => simp
  | some bucket => simp

theorem Kept.bucketOf_capped (h : store.Kept calls limit) (session : σ) :
    (store.bucketOf session).size ≤ maxPendingReauthNoncesPerSession := by
  unfold bucketOf
  cases hbucket : store.bySession.get session with
  | none => exact Nat.zero_le _
  | some bucket => exact h.capped session bucket hbucket

theorem Kept.bucketOf_oldestFirst (h : store.Kept calls limit) (session : σ) :
    (store.bucketOf session).keys.Pairwise (RememberedBefore calls session) := by
  unfold bucketOf
  cases hbucket : store.bySession.get session with
  | none => exact .nil
  | some bucket => exact h.oldestFirst session bucket hbucket

omit [DecidableEq σ] in
/-- A full bucket loses its oldest nonce, with seven behind it; any other loses none. -/
theorem evictOldest_cases {bucket : PresenceBucket}
    (h : bucket.size ≤ maxPendingReauthNoncesPerSession) (owner : InsertionMap JsString σ) :
    (bucket.size < maxPendingReauthNoncesPerSession ∧ evictOldest bucket owner = (bucket, owner)) ∨
      ∃ oldest newer, bucket.keys = oldest :: newer ∧
        newer.length + 1 = maxPendingReauthNoncesPerSession ∧
        evictOldest bucket owner = (bucket.delete oldest, owner.delete oldest) := by
  rw [evictOldest]
  split
  · rename_i hfull
    split
    · rename_i hkeys
      rw [InsertionMap.size_eq, hkeys] at hfull
      exact absurd hfull (by decide)
    rename_i oldest newer hkeys
    have hlt : (bucket.delete oldest).size < bucket.size := size_delete_lt hkeys
    refine .inr ⟨oldest, newer, hkeys, ?_, ?_⟩
    · rw [InsertionMap.size_eq, hkeys, List.length_cons] at h hfull
      exact Nat.le_antisymm h hfull
    · rw [evictOldest, if_neg (by omega)]
  · rename_i hroom
    exact .inl ⟨Nat.lt_of_not_le hroom, rfl⟩

omit [DecidableEq σ] in
/-- What making room comes to: the bucket keeps its order, and the index loses what it loses. -/
theorem evictOldest_spec {bucket : PresenceBucket}
    (h : bucket.size ≤ maxPendingReauthNoncesPerSession) (owner : InsertionMap JsString σ) :
    (evictOldest bucket owner).1.entries.Sublist bucket.entries ∧
      (evictOldest bucket owner).1.size < maxPendingReauthNoncesPerSession ∧
      (∀ n, (evictOldest bucket owner).2.get n =
        if (bucket.get n).isSome ∧ (evictOldest bucket owner).1.get n = none then none
        else owner.get n) ∧
      ∀ n e, bucket.get n = some e → (evictOldest bucket owner).1.get n = none →
        ∃ newer, bucket.keys = n :: newer ∧ newer.length + 1 = maxPendingReauthNoncesPerSession := by
  rcases evictOldest_cases h owner with ⟨hroom, heq⟩ | ⟨oldest, newer, hkeys, hlength, heq⟩
  · rw [heq]
    refine ⟨List.Sublist.refl _, hroom, fun n => ?_, fun n e hget hnone => ?_⟩
    · rw [if_neg]
      rintro ⟨hsome, hnone⟩
      rw [hnone] at hsome
      cases hsome
    · rw [hget] at hnone
      cases hnone
  · rw [heq]
    have hlt : (bucket.delete oldest).size < bucket.size := size_delete_lt hkeys
    refine ⟨List.filter_sublist, Nat.lt_of_lt_of_le hlt h, fun n => ?_, fun n e hget hnone => ?_⟩
    · have holdest : (bucket.get oldest).isSome := by
        rw [← InsertionMap.has, InsertionMap.has_iff, hkeys]
        exact List.mem_cons_self
      simp only [InsertionMap.get_delete]
      by_cases hn : oldest = n
      · subst hn
        simp [holdest]
      · rw [if_neg hn, if_neg hn, if_neg]
        rintro ⟨hsome, hnone⟩
        rw [hnone] at hsome
        cases hsome
    · have hn : oldest = n := by
        by_contra hne
        rw [InsertionMap.get_delete_ne _ hne, hget] at hnone
        cases hnone
      exact ⟨newer, hn ▸ hkeys, hlength⟩

theorem get_insert_bySession {session b : σ} {n : JsString} {entry : PendingPresenceNonce} :
    (store.insert session n entry).bySession.get b =
      if session = b then
        some ((evictOldest (store.bucketOf session) store.owner).1.set n entry)
      else store.bySession.get b := by
  show ((store.bySession.delete session).set session _).get b = _
  rw [InsertionMap.get_set]
  split
  · rfl
  · rename_i hne
    exact InsertionMap.get_delete_ne _ hne

/-- What is held when a nonce has been inserted. -/
theorem holds_insert {session b : σ} {n m : JsString} {entry e : PendingPresenceNonce} :
    (store.insert session n entry).Holds b m e ↔
      if session = b then
        if n = m then entry = e
        else (evictOldest (store.bucketOf session) store.owner).1.get m = some e
      else store.Holds b m e := by
  unfold Holds
  rw [get_insert_bySession]
  split
  · simp only [Option.some.injEq, exists_eq_left', InsertionMap.get_set]
    split <;> simp
  · rfl

/-- Remembering a new nonce. -/
theorem Kept.insert (h : store.Kept calls limit) {session : σ} {n : JsString}
    {binding : PresenceBinding} {now : Ms}
    (hfresh : ∀ call ∈ calls, ∀ a, ¬call.Remembers a n) :
    (store.insert session n ⟨binding, now + reauthNonceTtlMs⟩).Kept
      (calls ++ [.remember session n binding now]) (limit + 1) := by
  have hcapped := h.bucketOf_capped session
  obtain ⟨hsub, hroom, howner, -⟩ := evictOldest_spec hcapped store.owner
  have hnew : ∀ a e, ¬store.Holds a n e := by
    intro a e he
    obtain ⟨t, hmem, -⟩ := h.remembered a n e he
    exact hfresh _ hmem a ⟨_, _, rfl⟩
  have hfreshKey : (evictOldest (store.bucketOf session) store.owner).1.has n = false := by
    rw [InsertionMap.has, Option.isSome_eq_false_iff, Option.isNone_iff_eq_none]
    by_contra hsome
    obtain ⟨e, he⟩ := Option.ne_none_iff_exists'.1 hsome
    exact hnew session e (get_bucketOf.1 (get_of_sublist hsub he))
  have hkept : ∀ {m e}, (evictOldest (store.bucketOf session) store.owner).1.get m = some e →
      store.Holds session m e := fun hget => get_bucketOf.1 (get_of_sublist hsub hget)
  refine ⟨?_, ?_, ?_, ?_, ?_, ?_, ?_⟩
  · intro m b
    show ((evictOldest (store.bucketOf session) store.owner).2.set n session).get m = some b ↔ _
    simp only [holds_insert]
    rw [InsertionMap.get_set]
    by_cases hm : n = m
    · subst hm
      rw [if_pos rfl]
      constructor
      · intro hb
        obtain rfl := Option.some.inj hb
        exact ⟨_, by rw [if_pos rfl, if_pos rfl]⟩
      · rintro ⟨e, he⟩
        by_cases hb : session = b
        · rw [hb]
        · rw [if_neg hb] at he
          exact absurd he (hnew b e)
    · simp only [if_neg hm]
      rw [howner m]
      by_cases hb : session = b
      · subst hb
        simp only [if_true]
        constructor
        · intro hget
          split at hget
          · cases hget
          rename_i hstays
          obtain ⟨e, he⟩ := (h.owned m session).1 hget
          have hown := get_bucketOf.2 he
          cases hleft : (evictOldest (store.bucketOf session) store.owner).1.get m with
          | none => exact absurd ⟨by rw [hown]; rfl, hleft⟩ hstays
          | some e' => exact ⟨e', rfl⟩
        · rintro ⟨e, he⟩
          rw [if_neg fun hgone => by rw [hgone.2] at he; cases he]
          exact (h.owned m session).2 ⟨e, hkept he⟩
      · simp only [if_neg hb]
        rw [← h.owned m b]
        split
        · rename_i hgone
          obtain ⟨e, he⟩ := Option.isSome_iff_exists.1 hgone.1
          have hsession := (h.owned m session).2 ⟨e, get_bucketOf.1 he⟩
          refine ⟨(fun h => by cases h), fun hget => ?_⟩
          exact absurd (Option.some.inj (hsession.symm.trans hget)) hb
        · exact Iff.rfl
  · intro b bucket hbucket
    rw [get_insert_bySession] at hbucket
    split at hbucket
    · cases hbucket
      exact size_ne_zero_of_get (InsertionMap.get_set_self _ n _)
    · exact h.noneEmpty b bucket hbucket
  · intro b bucket hbucket
    rw [get_insert_bySession] at hbucket
    split at hbucket
    · cases hbucket
      exact (InsertionMap.size_set_le _ _ _).trans hroom
    · exact h.capped b bucket hbucket
  · exact (InsertionMap.size_set_le _ _ _).trans
      (Nat.succ_le_succ ((InsertionMap.size_delete_le _ _).trans h.sessions))
  · intro b m e he
    rw [holds_insert] at he
    split at he
    · rename_i hb
      subst hb
      split at he
      · rename_i hm
        subst hm he
        exact ⟨now, List.mem_append_right _ List.mem_cons_self, rfl⟩
      · obtain ⟨t, hmem, ht⟩ := h.remembered _ m e (hkept he)
        exact ⟨t, List.mem_append_left _ hmem, ht⟩
    · obtain ⟨t, hmem, ht⟩ := h.remembered b m e he
      exact ⟨t, List.mem_append_left _ hmem, ht⟩
  · intro b bucket hbucket
    rw [get_insert_bySession] at hbucket
    split at hbucket
    · rename_i hb
      subst hb
      cases hbucket
      rw [InsertionMap.keys, InsertionMap.entries_set_of_fresh hfreshKey, List.map_append,
        List.pairwise_append]
      refine ⟨((h.bucketOf_oldestFirst session).sublist (hsub.map Prod.fst)).imp fun hm =>
        hm.append _, List.pairwise_singleton _ _, ?_⟩
      intro m hm k hk
      obtain rfl := List.mem_singleton.1 hk
      obtain ⟨x, hx, rfl⟩ := List.mem_map.1 hm
      obtain ⟨t, hmem, -⟩ := h.remembered session x.1 x.2 (hkept (InsertionMap.get_eq_some.2 hx))
      exact .last hmem ⟨_, _, rfl⟩ ⟨_, _, rfl⟩
    · exact (h.oldestFirst b bucket hbucket).imp fun hm => hm.append _
  · have hnot : (store.bySession.delete session).has session = false := by
      rw [InsertionMap.has, InsertionMap.get_delete_self]
      rfl
    have hother : ∀ {a}, a ≠ session →
        ¬(PresenceCall.remember session n binding now).Uses a := by
      rintro a hne ⟨m, binding', now', heq⟩
      cases heq
      exact hne rfl
    show (((store.bySession.delete session).set session _).entries.map Prod.fst).Pairwise _
    rw [InsertionMap.entries_set_of_fresh hnot, List.map_append, List.pairwise_append]
    have hne : ∀ a ∈ (store.bySession.delete session).keys, a ≠ session := by
      intro a ha
      rw [InsertionMap.keys_delete, List.mem_filter, decide_eq_true_eq] at ha
      exact ha.2
    refine ⟨?_, List.pairwise_singleton _ _, ?_⟩
    · have hsublist : (store.bySession.delete session).keys.Sublist store.bySession.keys := by
        rw [InsertionMap.keys_delete]
        exact List.filter_sublist
      exact (h.stalestFirst.sublist hsublist).imp_of_mem fun ha _ hab =>
        hab.append (hother (hne _ ha))
    · intro a ha b hb
      obtain rfl := List.mem_singleton.1 hb
      exact .last (hother (hne a ha)) ⟨n, _, _, rfl⟩

/-- **Remembering keeps everything in order.** -/
theorem Kept.remember (h : store.Kept calls maxReauthNonceSessions) {session : σ} {n : JsString}
    {binding : PresenceBinding} {now : Ms}
    (hfresh : ∀ call ∈ calls, ∀ a, ¬call.Remembers a n) :
    (store.remember session n binding now).Kept
      (calls ++ [.remember session n binding now]) maxReauthNonceSessions :=
  ((h.sweepExpired now).insert hfresh).forgetStalest

/-- **What remembering costs**: a live nonce of the own session with seven newer ones behind it, or
those of a session whose bucket thirty-two others were used since. -/
theorem Kept.remember_drops (h : store.Kept calls maxReauthNonceSessions) {session : σ}
    {n : JsString} {binding : PresenceBinding} {now : Ms}
    (hfresh : ∀ call ∈ calls, ∀ a, ¬call.Remembers a n) {a : σ} {m : JsString}
    {e : PendingPresenceNonce} (he : store.Holds a m e) (hlive : now < e.expiresAt)
    (hgone : ¬(store.remember session n binding now).Holds a m e) :
    (∃ newer : List JsString, newer.Nodup ∧ newer.length = maxPendingReauthNoncesPerSession ∧
        ∀ k ∈ newer, RememberedBefore (calls ++ [.remember session n binding now]) a m k) ∨
      ∃ others : List σ, others.Nodup ∧ others.length = maxReauthNonceSessions ∧
        ∀ b ∈ others, UsedSince (calls ++ [.remember session n binding now]) a b := by
  have hswept : (store.sweepExpired now).Holds a m e := holds_sweepExpired.2 ⟨he, hlive⟩
  have hkept := h.sweepExpired now
  have hinserted : ((store.sweepExpired now).insert session n
      ⟨binding, now + reauthNonceTtlMs⟩).Kept (calls ++ [.remember session n binding now])
        (maxReauthNonceSessions + 1) := hkept.insert hfresh
  by_cases hstays : ((store.sweepExpired now).insert session n
      ⟨binding, now + reauthNonceTtlMs⟩).Holds a m e
  · -- the whole bucket is forgotten
    refine .inr ?_
    rcases forgetStalest_cases hinserted.sessions with ⟨-, heq⟩ | ⟨stalest, rest, hkeys, hlength, heq⟩
    · rw [PresenceNonceStore.remember, heq] at hgone
      exact absurd hstays hgone
    rw [PresenceNonceStore.remember, heq, holds_forget, not_and] at hgone
    have ha : a = stalest := by
      by_contra hne
      exact hgone hne hstays
    have hpairs := hinserted.stalestFirst
    have hnodup := InsertionMap.keys_nodup ((store.sweepExpired now).insert session n
      ⟨binding, now + reauthNonceTtlMs⟩).bySession
    rw [hkeys] at hpairs hnodup
    exact ⟨rest, (List.nodup_cons.1 hnodup).2, hlength, ha ▸ (List.pairwise_cons.1 hpairs).1⟩
  · -- it is the oldest of its own full bucket
    refine .inl ?_
    rw [holds_insert] at hstays
    split at hstays
    · rename_i hsession
      subst hsession
      obtain ⟨t, hmem, -⟩ := h.remembered session m e he
      have hmn : n ≠ m := by
        rintro rfl
        exact hfresh _ hmem session ⟨_, _, rfl⟩
      rw [if_neg hmn] at hstays
      have hown := get_bucketOf.2 hswept
      obtain ⟨hsub, -, -, holdest⟩ := evictOldest_spec (hkept.bucketOf_capped session)
        (store.sweepExpired now).owner
      cases hleft : (evictOldest ((store.sweepExpired now).bucketOf session)
          (store.sweepExpired now).owner).1.get m with
      | some e' =>
        have hsame := get_of_sublist hsub hleft
        rw [hown] at hsame
        rw [hleft, ← Option.some.inj hsame] at hstays
        exact absurd rfl hstays
      | none =>
        obtain ⟨newer, hkeys, hlength⟩ := holdest m e hown hleft
        have hpairs := hkept.bucketOf_oldestFirst session
        have hnodup := InsertionMap.keys_nodup ((store.sweepExpired now).bucketOf session)
        have hnotin : n ∉ ((store.sweepExpired now).bucketOf session).keys := by
          intro hin
          obtain ⟨e', he'⟩ := Option.isSome_iff_exists.1 (InsertionMap.has_iff.2 hin)
          obtain ⟨t', hmem', -⟩ := hkept.remembered session n e' (get_bucketOf.1 he')
          exact hfresh _ hmem' session ⟨_, _, rfl⟩
        rw [hkeys] at hpairs hnodup hnotin
        refine ⟨newer ++ [n], ?_, ?_, fun k hk => ?_⟩
        · refine List.nodup_append.2 ⟨(List.nodup_cons.1 hnodup).2, List.nodup_singleton n, ?_⟩
          rintro k hk _ hn rfl
          exact hnotin (List.mem_singleton.1 hn ▸ List.mem_cons_of_mem m hk)
        · rw [List.length_append, List.length_singleton, hlength]
        · rcases List.mem_append.1 hk with hk | hk
          · exact ((List.pairwise_cons.1 hpairs).1 k hk).append _
          · obtain rfl := List.mem_singleton.1 hk
            exact .last hmem ⟨_, _, rfl⟩ ⟨_, _, rfl⟩
    · exact absurd hswept hstays

/-! ### Spending -/

/-- The store without one nonce of one bucket. -/
def spend (store : PresenceNonceStore σ) (a : σ) (bucket : PresenceBucket) (n : JsString) :
    PresenceNonceStore σ :=
  ⟨if (bucket.delete n).size = 0 then store.bySession.delete a
    else store.bySession.set a (bucket.delete n), store.owner.delete n⟩

/-- What a call to spend may do: nothing, where no nonce is meant or held, or take the one nonce out
of the bucket it is in. -/
theorem consume_cases (h : store.Owned) (relayNonce : Json) (now : Ms) :
    (store.consume relayNonce now = (store, none) ∧
        ∀ n a, relayNonce = .string n → store.owner.get n ≠ some a) ∨
      ∃ n a e bucket, relayNonce = .string n ∧ store.bySession.get a = some bucket ∧
        bucket.get n = some e ∧
        store.consume relayNonce now =
          (store.spend a bucket n, if now < e.expiresAt then some e else none) := by
  cases relayNonce with
  | string n =>
    cases howner : store.owner.get n with
    | none =>
      refine .inl ⟨by rw [consume, howner], fun m a hm => ?_⟩
      cases hm
      rw [howner]
      exact nofun
    | some a =>
      obtain ⟨e, bucket, hbucket, hentry⟩ := (h n a).1 howner
      refine .inr ⟨n, a, e, bucket, rfl, hbucket, hentry, ?_⟩
      rw [consume, howner]
      dsimp only
      rw [hbucket, Option.bind_some, hentry, Option.filter_some, Option.map_some]
      simp only [decide_eq_true_eq]
      rfl
  | _ => exact .inl ⟨rfl, fun m a hm => by cases hm⟩

/-- What is held when a nonce has been spent. -/
theorem holds_spent {a b : σ} {n m : JsString} {bucket : PresenceBucket} {e : PendingPresenceNonce}
    (hbucket : store.bySession.get a = some bucket) :
    (store.spend a bucket n).Holds b m e ↔ store.Holds b m e ∧ ¬(b = a ∧ m = n) := by
  unfold Holds spend
  by_cases hb : a = b
  · subst hb
    simp only [hbucket, Option.some.injEq, exists_eq_left', true_and]
    split
    · rename_i hempty
      rw [InsertionMap.get_delete_self]
      refine ⟨fun hnone => by simp at hnone, fun hget => ?_⟩
      have hkept : (bucket.delete n).get m = some e := by
        rw [InsertionMap.get_delete_ne _ (Ne.symm hget.2), hget.1]
      exact absurd hempty (size_ne_zero_of_get hkept)
    · rw [InsertionMap.get_set_self]
      simp only [Option.some.injEq, exists_eq_left', InsertionMap.get_delete]
      by_cases hn : n = m
      · simp [hn]
      · simp [hn, Ne.symm hn]
  · have hget : (if (bucket.delete n).size = 0 then store.bySession.delete a
        else store.bySession.set a (bucket.delete n)).get b = store.bySession.get b := by
      split
      · exact InsertionMap.get_delete_ne _ hb
      · exact InsertionMap.get_set_ne _ _ hb
    rw [hget]
    simp [Ne.symm hb]

theorem Kept.spent (h : store.Kept calls limit) {a : σ} {n : JsString} {bucket : PresenceBucket}
    {e : PendingPresenceNonce} (hbucket : store.bySession.get a = some bucket)
    (hentry : bucket.get n = some e) :
    (store.spend a bucket n).Kept calls limit := by
  have hheld : store.Holds a n e := ⟨bucket, hbucket, hentry⟩
  have hmem : a ∈ store.bySession.keys := InsertionMap.has_iff.1 (by
    rw [InsertionMap.has, hbucket]
    rfl)
  have hget : ∀ {b bucket'}, (store.spend a bucket n).bySession.get b = some bucket' →
        (b = a ∧ bucket' = bucket.delete n ∧ bucket'.size ≠ 0) ∨
          store.bySession.get b = some bucket' := by
    intro b bucket' hb
    unfold spend at hb
    split at hb
    · exact .inr (InsertionMap.get_of_delete hb).2
    rename_i hsize
    rcases InsertionMap.get_of_set hb with ⟨heq, rfl⟩ | ⟨-, hb⟩
    · exact .inl ⟨heq.symm, rfl, hsize⟩
    · exact .inr hb
  refine h.shrink ⟨fun b bucket' hb => ?_, ?_⟩ ?_ ?_
  · rcases hget hb with ⟨rfl, rfl, -⟩ | hsame
    · exact ⟨bucket, hbucket, List.filter_sublist⟩
    · exact ⟨bucket', hsame, List.Sublist.refl _⟩
  · show (if (bucket.delete n).size = 0 then store.bySession.delete a
      else store.bySession.set a (bucket.delete n)).keys.Sublist _
    split
    · rw [InsertionMap.keys_delete]
      exact List.filter_sublist
    · rw [InsertionMap.keys, InsertionMap.set, InsertionMap.keys_setEntry,
        if_pos (show a ∈ store.bySession.entries.map Prod.fst from hmem)]
      exact List.Sublist.refl _
  · intro m b
    show (store.owner.delete n).get m = some b ↔ _
    simp only [holds_spent hbucket]
    rw [InsertionMap.get_delete]
    by_cases hm : n = m
    · subst hm
      rw [if_pos rfl]
      refine ⟨(fun h => by cases h), ?_⟩
      rintro ⟨e', he', hne⟩
      exact absurd ⟨(h.owned.unique he' hheld).1, rfl⟩ hne
    rw [if_neg hm, h.owned m b]
    constructor
    · rintro ⟨e', he'⟩
      exact ⟨e', he', fun heq => hm heq.2.symm⟩
    · rintro ⟨e', he', -⟩
      exact ⟨e', he'⟩
  · intro b bucket' hb
    rcases hget hb with ⟨-, -, hsize⟩ | hsame
    · exact hsize
    · exact h.noneEmpty b bucket' hsame

theorem Kept.mono (h : store.Kept calls limit) {call : PresenceCall σ}
    (hcall : ∀ a, ¬call.Uses a) : store.Kept (calls ++ [call]) limit :=
  { h with
    remembered := fun a n e he => by
      obtain ⟨t, hmem, ht⟩ := h.remembered a n e he
      exact ⟨t, List.mem_append_left _ hmem, ht⟩
    oldestFirst := fun a bucket hbucket => (h.oldestFirst a bucket hbucket).imp fun hm => hm.append _
    stalestFirst := h.stalestFirst.imp fun hab => hab.append (hcall _) }

end PresenceNonceStore

/-! ### Runs -/

namespace PresenceRun

variable {run : PresenceRun σ}

open PresenceNonceStore (Kept)

/-- What holds in every run. -/
structure Sound (run : PresenceRun σ) : Prop where
  kept : run.store.Kept run.calls maxReauthNonceSessions
  /-- A nonce is redeemed once, -/
  once : (run.redeemed.map RedeemedNonce.nonce).Nodup
  /-- in time, for the binding it was remembered under, -/
  inTime : ∀ r ∈ run.redeemed, r.now < r.entry.expiresAt ∧
    ∃ a t, PresenceCall.remember a r.nonce r.entry.binding t ∈ run.calls ∧
      r.entry.expiresAt = t + reauthNonceTtlMs
  /-- and is not held any more. -/
  gone : ∀ r ∈ run.redeemed, ∀ a e, ¬run.store.Holds a r.nonce e

theorem Sound.remember (h : run.Sound) {session : σ} {n : JsString} {binding : PresenceBinding}
    {now : Ms} (hfresh : run.Fresh (.remember session n binding now)) :
    (run.next (.remember session n binding now)).Sound where
  kept := h.kept.remember hfresh
  once := h.once
  inTime := by
    intro r hr
    obtain ⟨htime, a, t, hmem, ht⟩ := h.inTime r hr
    exact ⟨htime, a, t, List.mem_append_left _ hmem, ht⟩
  gone := by
    intro r hr a e he
    obtain ⟨htime, b, t, hmem, -⟩ := h.inTime r hr
    have hne : n ≠ r.nonce := by
      rintro rfl
      exact hfresh _ hmem b ⟨_, _, rfl⟩
    -- what is held was held, or has just been remembered
    have hheld : (((run.store.sweepExpired now).insert session n
        ⟨binding, now + reauthNonceTtlMs⟩).forgetStalest).Holds a r.nonce e := he
    have hinserted : ((run.store.sweepExpired now).insert session n
        ⟨binding, now + reauthNonceTtlMs⟩).Holds a r.nonce e := by
      have hsize : ((run.store.sweepExpired now).insert session n
          ⟨binding, now + reauthNonceTtlMs⟩).bySession.size ≤ maxReauthNonceSessions + 1 :=
        ((h.kept.sweepExpired now).insert hfresh).sessions
      rcases PresenceNonceStore.forgetStalest_cases hsize with ⟨-, heq⟩ | ⟨stalest, rest, -, -, heq⟩
      · rwa [heq] at hheld
      · rw [heq, PresenceNonceStore.holds_forget] at hheld
        exact hheld.2
    rw [PresenceNonceStore.holds_insert] at hinserted
    split at hinserted
    · rename_i hsession
      subst hsession
      obtain ⟨hsub, -⟩ := PresenceNonceStore.evictOldest_spec
        ((h.kept.sweepExpired now).bucketOf_capped session) (run.store.sweepExpired now).owner
      have hswept := PresenceNonceStore.get_bucketOf.1
        (PresenceNonceStore.get_of_sublist hsub hinserted)
      exact h.gone r hr session e (PresenceNonceStore.holds_sweepExpired.1 hswept).1
    · exact h.gone r hr a e (PresenceNonceStore.holds_sweepExpired.1 hinserted).1

theorem Sound.consume (h : run.Sound) (relayNonce : Json) (now : Ms) :
    (run.next (.consume relayNonce now)).Sound := by
  have hmono : run.store.Kept (run.calls ++ [.consume relayNonce now]) maxReauthNonceSessions :=
    h.kept.mono fun a huses => by
      obtain ⟨_, _, _, heq⟩ := huses
      cases heq
  have hinTime : ∀ r ∈ run.redeemed, r.now < r.entry.expiresAt ∧
      ∃ a t, PresenceCall.remember a r.nonce r.entry.binding t ∈
          run.calls ++ [.consume relayNonce now] ∧
        r.entry.expiresAt = t + reauthNonceTtlMs := by
    intro r hr
    obtain ⟨htime, a, t, hmem, ht⟩ := h.inTime r hr
    exact ⟨htime, a, t, List.mem_append_left _ hmem, ht⟩
  rcases PresenceNonceStore.consume_cases h.kept.owned relayNonce now with
    ⟨heq, -⟩ | ⟨n, a, e, bucket, rfl, hbucket, hentry, heq⟩
  · have hnext : run.next (.consume relayNonce now) =
        ⟨run.store, run.calls ++ [.consume relayNonce now], run.redeemed⟩ := by
      simp [next, heq]
    rw [hnext]
    exact ⟨hmono, h.once, hinTime, h.gone⟩
  have hheld : run.store.Holds a n e := ⟨bucket, hbucket, hentry⟩
  have hspent := hmono.spent hbucket hentry
  have hgone : ∀ r ∈ run.redeemed, ∀ b e',
      ¬(run.store.spend a bucket n).Holds b r.nonce e' := fun r hr b e' he' =>
    h.gone r hr b e' ((PresenceNonceStore.holds_spent hbucket).1 he').1
  by_cases hlive : now < e.expiresAt
  · have hnext : run.next (.consume (.string n) now) =
        ⟨run.store.spend a bucket n, run.calls ++ [.consume (.string n) now],
          run.redeemed ++ [⟨n, e, now⟩]⟩ := by
      simp only [next, heq, if_pos hlive, Option.map_some, Option.toList_some]
      rfl
    rw [hnext]
    refine ⟨hspent, ?_, ?_, ?_⟩
    · rw [List.map_append]
      refine List.nodup_append.2 ⟨h.once, List.nodup_singleton n, ?_⟩
      rintro m hm _ hn rfl
      obtain ⟨r, hr, hrn⟩ := List.mem_map.1 hm
      have hmn : m = n := List.mem_singleton.1 hn
      exact h.gone r hr a e (by rw [hrn, hmn]; exact hheld)
    · intro r hr
      rcases List.mem_append.1 hr with hr | hr
      · exact hinTime r hr
      · obtain rfl := List.mem_singleton.1 hr
        obtain ⟨t, hmem, ht⟩ := hmono.remembered a n e hheld
        exact ⟨hlive, a, t, hmem, ht⟩
    · intro r hr b e' he'
      rcases List.mem_append.1 hr with hr | hr
      · exact hgone r hr b e' he'
      · obtain rfl := List.mem_singleton.1 hr
        obtain ⟨hwas, hnot⟩ := (PresenceNonceStore.holds_spent hbucket).1 he'
        exact hnot ⟨(h.kept.owned.unique hwas hheld).1, rfl⟩
  · have hnext : run.next (.consume (.string n) now) =
        ⟨run.store.spend a bucket n, run.calls ++ [.consume (.string n) now], run.redeemed⟩ := by
      simp only [next, heq, if_neg hlive, Option.map_none, Option.toList_none, List.append_nil]
    rw [hnext]
    exact ⟨hspent, h.once, hinTime, hgone⟩

theorem Sound.next (h : run.Sound) {call : PresenceCall σ} (hfresh : run.Fresh call) :
    (run.next call).Sound := by
  cases call with
  | remember session n binding now => exact h.remember hfresh
  | consume relayNonce now => exact h.consume relayNonce now

theorem sound_of_reachable (h : (presenceNonces σ).Reachable run) : run.Sound := by
  have hinductive : (presenceNonces σ).Inductive Sound := by
    refine ⟨?_, ?_⟩
    · rintro run rfl
      refine ⟨⟨?_, nofun, nofun, Nat.zero_le _, ?_, nofun, .nil⟩, .nil, nofun, nofun⟩
      · intro n a
        refine ⟨nofun, ?_⟩
        rintro ⟨_, bucket, hbucket, -⟩
        cases hbucket
      · rintro a n e ⟨bucket, hbucket, -⟩
        cases hbucket
    · rintro run run' call hsound ⟨hfresh, rfl⟩
      exact hsound.next hfresh
  exact hinductive.reachable h

/-- A live nonce goes away when it is redeemed, and for what its own session remembered or other
sessions used. -/
theorem Sound.drops (h : run.Sound) {call : PresenceCall σ} (hfresh : run.Fresh call) {a : σ}
    {n : JsString} {e : PendingPresenceNonce} (he : run.store.Holds a n e)
    (hlive : call.now < e.expiresAt) (hgone : ¬(run.next call).store.Holds a n e) :
    (run.next call).redeemed = run.redeemed ++ [⟨n, e, call.now⟩] ∨
      (∃ newer : List JsString, newer.Nodup ∧ newer.length = maxPendingReauthNoncesPerSession ∧
        ∀ k ∈ newer, RememberedBefore (run.calls ++ [call]) a n k) ∨
      ∃ others : List σ, others.Nodup ∧ others.length = maxReauthNonceSessions ∧
        ∀ b ∈ others, UsedSince (run.calls ++ [call]) a b := by
  cases call with
  | remember session m binding now => exact .inr (h.kept.remember_drops hfresh he hlive hgone)
  | consume relayNonce now =>
    refine .inl ?_
    rcases PresenceNonceStore.consume_cases h.kept.owned relayNonce now with
      ⟨heq, -⟩ | ⟨m, b, e', bucket, rfl, hbucket, hentry, heq⟩
    · have hstays : (run.next (.consume relayNonce now)).store = run.store := by
        simp [PresenceRun.next, heq]
      rw [hstays] at hgone
      exact absurd he hgone
    have hspent : (run.next (.consume (.string m) now)).store = run.store.spend b bucket m := by
      simp only [PresenceRun.next, heq]
    rw [hspent, PresenceNonceStore.holds_spent hbucket, not_and, not_not] at hgone
    obtain ⟨rfl, rfl⟩ := hgone he
    obtain ⟨-, rfl⟩ := h.kept.owned.unique he ⟨bucket, hbucket, hentry⟩
    simp only [PresenceRun.next, heq, if_pos (show now < e.expiresAt from hlive),
      Option.map_some, Option.toList_some]
    rfl

end PresenceRun

/-- **The presence nonces of a Relay, in every run**: the owner index holds the nonces of the
buckets, of which none is empty, none holds more than eight, and there are at most thirty-two; a
nonce is redeemed once, in time, with the binding it was remembered under; and a live one that is
not redeemed goes away only behind eight newer ones of its session, or when thirty-two other
sessions have been used since its own. -/
theorem presence_nonces {run : PresenceRun σ} (h : (presenceNonces σ).Reachable run) :
    (∀ n a, run.store.owner.get n = some a ↔
        ∃ bucket, run.store.bySession.get a = some bucket ∧ bucket.has n = true) ∧
      (∀ a bucket, run.store.bySession.get a = some bucket →
        bucket.size ≠ 0 ∧ bucket.size ≤ maxPendingReauthNoncesPerSession) ∧
      run.store.bySession.size ≤ maxReauthNonceSessions ∧
      (run.redeemed.map RedeemedNonce.nonce).Nodup ∧
      (∀ r ∈ run.redeemed, r.now < r.entry.expiresAt ∧
        ∃ a t, PresenceCall.remember a r.nonce r.entry.binding t ∈ run.calls ∧
          r.entry.expiresAt = t + reauthNonceTtlMs) ∧
      ∀ call, run.Fresh call → ∀ a n e, run.store.Holds a n e → call.now < e.expiresAt →
        ¬(run.next call).store.Holds a n e →
          (run.next call).redeemed = run.redeemed ++ [⟨n, e, call.now⟩] ∨
            (∃ newer : List JsString, newer.Nodup ∧
              newer.length = maxPendingReauthNoncesPerSession ∧
              ∀ k ∈ newer, RememberedBefore (run.calls ++ [call]) a n k) ∨
            ∃ others : List σ, others.Nodup ∧ others.length = maxReauthNonceSessions ∧
              ∀ b ∈ others, UsedSince (run.calls ++ [call]) a b := by
  have hsound := PresenceRun.sound_of_reachable h
  refine ⟨fun n a => ?_, fun a bucket hbucket => ?_, hsound.kept.sessions, hsound.once,
    hsound.inTime, fun call hfresh a n e he hlive hgone => hsound.drops hfresh he hlive hgone⟩
  · rw [hsound.kept.owned n a]
    simp only [PresenceNonceStore.Holds, InsertionMap.has, Option.isSome_iff_exists]
    constructor
    · rintro ⟨e, bucket, hbucket, hentry⟩
      exact ⟨bucket, hbucket, e, hentry⟩
    · rintro ⟨bucket, hbucket, e, hentry⟩
      exact ⟨e, bucket, hbucket, hentry⟩
  · exact ⟨hsound.kept.noneEmpty a bucket hbucket, hsound.kept.capped a bucket hbucket⟩

/-- One nonce that is remembered and redeemed in time. -/
theorem presence_nonces_redeemed :
    ∃ run : PresenceRun Nat, (presenceNonces Nat).Reachable run ∧
      run.redeemed.map RedeemedNonce.nonce = [js "n1"] ∧
      ∀ r ∈ run.redeemed, r.now < r.entry.expiresAt := by
  let run₀ : PresenceRun Nat := ⟨.fresh, [], []⟩
  let remember : PresenceCall Nat := .remember 0 (js "n1") (.pairing (js "b") (js "h") (js "c")) 0
  let consume : PresenceCall Nat := .consume (.string (js "n1")) 1000
  have hremember : run₀.Fresh remember := fun call hcall => nomatch hcall
  have hconsume : (run₀.next remember).Fresh consume := trivial
  have hremembered : (presenceNonces Nat).Reachable (run₀.next remember) :=
    .next (.start rfl) ⟨hremember, rfl⟩
  have hreachable : (presenceNonces Nat).Reachable ((run₀.next remember).next consume) :=
    .next hremembered ⟨hconsume, rfl⟩
  obtain ⟨-, -, -, -, hinTime, -⟩ := presence_nonces hreachable
  exact ⟨_, hreachable, by decide +kernel, fun r hr => (hinTime r hr).1⟩

end Dormouse.Relay

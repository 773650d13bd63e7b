import Dormouse.Relay.SetupTokens

/-!
# Dormouse.Relay.SetupTokensSound

**Setup tokens are single-use**, whatever runs while a request waits: a token is in one
place at a time, the issuer, one request or its end, and what ends it is one registration
or one retirement.
-/

namespace Dormouse.Relay

open Noise (Bytes)
open Security
open Terminal (Ms)
open Burrow (maxTokensPerBurrow)

/-! ### The issuer -/

namespace SetupTokenIssuer

/-- How many tokens of one Burrow there are. -/
def ownCount (issuer : SetupTokenIssuer) (burrowId : JsString) : Nat :=
  issuer.tokens.entries.countP fun e => e.2.burrowId = burrowId

theorem mem_own {issuer : SetupTokenIssuer} {burrowId : JsString}
    {e : JsString × SetupTokenEntry} :
    e ∈ issuer.own burrowId ↔ e ∈ issuer.tokens.entries ∧ e.2.burrowId = burrowId := by
  rw [own, List.mem_mergeSort, List.mem_filter, decide_eq_true_iff]

/-- The tokens that trimming deletes. -/
def trimmed (issuer : SetupTokenIssuer) (burrowId : JsString) (limit : Nat) : List JsString :=
  ((issuer.own burrowId).take ((issuer.own burrowId).length - limit)).map Prod.fst

theorem get_trimBurrow (issuer : SetupTokenIssuer) (burrowId : JsString) (limit : Nat)
    (token : JsString) :
    (issuer.trimBurrow burrowId limit).tokens.get token =
      if token ∈ issuer.trimmed burrowId limit then none else issuer.tokens.get token := by
  have hget := InsertionMap.get_foldl_delete (issuer.trimmed burrowId limit) issuer.tokens token
  by_cases hmem : token ∈ issuer.trimmed burrowId limit
  · rw [if_pos hmem] at hget ⊢
    exact hget
  · rw [if_neg hmem] at hget ⊢
    exact hget

/-- Only its own tokens are trimmed. -/
theorem burrowId_of_trimmed {issuer : SetupTokenIssuer} {burrowId : JsString} {limit : Nat}
    {token : JsString} {entry : SetupTokenEntry} (h : token ∈ issuer.trimmed burrowId limit)
    (hget : issuer.tokens.get token = some entry) : entry.burrowId = burrowId := by
  obtain ⟨e, he, rfl⟩ := List.mem_map.1 h
  obtain ⟨hmem, hburrow⟩ := mem_own.1 (List.mem_of_mem_take he)
  rw [InsertionMap.get_eq_some.2 hmem] at hget
  exact Option.some.inj hget ▸ hburrow

/-- Trimming leaves a Burrow at most `limit`. -/
theorem ownCount_trimBurrow (issuer : SetupTokenIssuer) (burrowId : JsString) (limit : Nat) :
    (issuer.trimBurrow burrowId limit).ownCount burrowId ≤ limit := by
  have hentries : (issuer.trimBurrow burrowId limit).tokens.entries =
      issuer.tokens.entries.filter fun e => decide (e.1 ∉ issuer.trimmed burrowId limit) :=
    (InsertionMap.entries_foldl_delete _ _).trans
      (List.filter_congr fun _ _ => decide_eq_decide.2 Iff.rfl)
  have hperm : (issuer.own burrowId).Perm
      (issuer.tokens.entries.filter fun e => e.2.burrowId = burrowId) :=
    List.mergeSort_perm _ _
  -- What is left is what the sorted list has after the ones that go.
  have hleft : (issuer.trimBurrow burrowId limit).ownCount burrowId =
      (issuer.own burrowId).countP fun e =>
        decide (e.1 ∉ issuer.trimmed burrowId limit) := by
    rw [ownCount, hentries, List.countP_filter, hperm.countP_eq, List.countP_filter]
    refine List.countP_congr fun e _ => ?_
    rw [Bool.and_comm]
  rw [hleft, ← List.take_append_drop ((issuer.own burrowId).length - limit) (issuer.own burrowId),
    List.countP_append]
  have hgone : ((issuer.own burrowId).take ((issuer.own burrowId).length - limit)).countP
      (fun e => decide (e.1 ∉ issuer.trimmed burrowId limit)) = 0 := by
    refine List.countP_eq_zero.2 fun e he => ?_
    have hmem : e.1 ∈ issuer.trimmed burrowId limit := List.mem_map.2 ⟨e, he, rfl⟩
    simpa using hmem
  have hrest := List.countP_le_length
    (p := fun e : JsString × SetupTokenEntry => decide (e.1 ∉ issuer.trimmed burrowId limit))
    (l := (issuer.own burrowId).drop ((issuer.own burrowId).length - limit))
  rw [List.length_drop] at hrest
  omega

theorem ownCount_mono {issuer issuer' : SetupTokenIssuer}
    (h : issuer'.tokens.entries.Sublist issuer.tokens.entries) (burrowId : JsString) :
    issuer'.ownCount burrowId ≤ issuer.ownCount burrowId :=
  h.countP_le

theorem ownCount_set_le (issuer : SetupTokenIssuer) (token : JsString) (entry : SetupTokenEntry)
    (burrowId : JsString) :
    ownCount ⟨issuer.tokens.set token entry⟩ burrowId ≤
      issuer.ownCount burrowId + if entry.burrowId = burrowId then 1 else 0 := by
  have hset := InsertionMap.countP_set_le issuer.tokens token entry
    fun entry => decide (entry.burrowId = burrowId)
  simp only [decide_eq_true_iff] at hset
  exact hset

theorem pruneExpired_sublist (issuer : SetupTokenIssuer) (now : Ms) :
    (issuer.pruneExpired now).tokens.entries.Sublist issuer.tokens.entries :=
  List.filter_sublist

theorem trimBurrow_sublist (issuer : SetupTokenIssuer) (burrowId : JsString) (limit : Nat) :
    (issuer.trimBurrow burrowId limit).tokens.entries.Sublist issuer.tokens.entries := by
  rw [trimBurrow, InsertionMap.entries_foldl_delete]
  exact List.filter_sublist

theorem delete_sublist (issuer : SetupTokenIssuer) (token : JsString) :
    (issuer.tokens.delete token).entries.Sublist issuer.tokens.entries :=
  List.filter_sublist

/-- Every Burrow is within the cap. -/
def Capped (issuer : SetupTokenIssuer) : Prop :=
  ∀ burrowId, issuer.ownCount burrowId ≤ maxTokensPerBurrow

theorem Capped.mono {issuer issuer' : SetupTokenIssuer} (h : issuer.Capped)
    (hsub : issuer'.tokens.entries.Sublist issuer.tokens.entries) : issuer'.Capped :=
  fun burrowId => Nat.le_trans (ownCount_mono hsub burrowId) (h burrowId)

/-- A token set into the slot that trimming left. -/
theorem Capped.slot {issuer : SetupTokenIssuer} (h : issuer.Capped) {burrowId : JsString}
    {token : JsString} {entry : SetupTokenEntry} (hentry : entry.burrowId = burrowId) :
    Capped ⟨(issuer.trimBurrow burrowId (maxTokensPerBurrow - 1)).tokens.set token entry⟩ := by
  intro other
  have hset := ownCount_set_le (issuer.trimBurrow burrowId (maxTokensPerBurrow - 1)) token entry
    other
  by_cases hother : burrowId = other
  · have htrim := ownCount_trimBurrow issuer burrowId (maxTokensPerBurrow - 1)
    rw [← hother] at hset ⊢
    rw [if_pos hentry] at hset
    unfold maxTokensPerBurrow at hset htrim ⊢
    omega
  · have hsame := ownCount_mono (issuer.trimBurrow_sublist burrowId (maxTokensPerBurrow - 1))
      other
    rw [hentry, if_neg hother] at hset
    have hcap := h other
    omega

theorem issue_capped {issuer : SetupTokenIssuer} (h : issuer.Capped) (burrowId : JsString)
    (random : Bytes) (now : Ms) : (issuer.issue burrowId random now).1.Capped :=
  (h.mono (issuer.pruneExpired_sublist now)).slot rfl

theorem peek_sublist (issuer : SetupTokenIssuer) (token : JsString) (now : Ms) :
    (issuer.peek token now).1.tokens.entries.Sublist issuer.tokens.entries := by
  unfold peek
  split
  · exact List.Sublist.refl _
  · split
    · exact issuer.delete_sublist token
    · exact List.Sublist.refl _

/-! ### What an operation takes away -/

theorem get_pruneExpired (issuer : SetupTokenIssuer) (now : Ms) (token : JsString) :
    (issuer.pruneExpired now).tokens.get token =
      (issuer.tokens.get token).filter fun entry => decide (now < entry.expiresAt) :=
  InsertionMap.get_filter _ _ _

/-- Pruning and trimming for one Burrow leave the live tokens of the others. -/
theorem get_trimmed_other {issuer : SetupTokenIssuer} {now : Ms} {burrowId token : JsString}
    {entry : SetupTokenEntry} {limit : Nat} (hget : issuer.tokens.get token = some entry)
    (hlive : now < entry.expiresAt) (hother : entry.burrowId ≠ burrowId) :
    ((issuer.pruneExpired now).trimBurrow burrowId limit).tokens.get token = some entry := by
  have hkept : (issuer.pruneExpired now).tokens.get token = some entry := by
    rw [get_pruneExpired, hget]
    exact Option.filter_some_pos (decide_eq_true hlive)
  rw [get_trimBurrow, if_neg fun hmem => hother (burrowId_of_trimmed hmem hkept)]
  exact hkept

theorem get_peek_ne (issuer : SetupTokenIssuer) (now : Ms) {token other : JsString}
    (hne : token ≠ other) :
    (issuer.peek token now).1.tokens.get other = issuer.tokens.get other := by
  unfold peek
  split
  · rfl
  · split
    · exact InsertionMap.get_delete_ne _ hne
    · rfl

theorem get_consume_ne (issuer : SetupTokenIssuer) (now : Ms) {token other : JsString}
    (hne : token ≠ other) :
    (issuer.consume token now).1.tokens.get other = issuer.tokens.get other := by
  unfold consume
  split
  · rfl
  · exact InsertionMap.get_delete_ne _ hne

/-- What is in the issuer after pruning and trimming was there before. -/
theorem get_of_sublist {issuer issuer' : SetupTokenIssuer}
    (h : issuer'.tokens.entries.Sublist issuer.tokens.entries) {token : JsString}
    {entry : SetupTokenEntry} (hget : issuer'.tokens.get token = some entry) :
    issuer.tokens.get token = some entry :=
  InsertionMap.get_eq_some.2 (h.subset (InsertionMap.get_eq_some.1 hget))

end SetupTokenIssuer

/-! ### Where a token is -/

namespace SetupWait

/-- The token and entry that a request has at hand. -/
def carries : SetupWait → Option (JsString × SetupTokenEntry)
  | enrollment _ _ token entry => some (token, entry)
  | gate _ _ token entry _ => some (token, entry)
  | account _ => none
  | importing _ token entry => some (token, entry)
  | appending _ _ _ token entry => some (token, entry)

/-- The token that a request has spent and may put back. -/
def held : SetupWait → Option JsString
  | enrollment route _ token _ => if route = .begin then none else some token
  | gate route _ token _ _ => if route = .begin then none else some token
  | account _ => none
  | importing _ token _ => some token
  | appending _ _ _ token _ => some token

/-- The token and entry of a request whose gate has found the Burrow enrolled. -/
def cleared : SetupWait → Option (JsString × SetupTokenEntry)
  | gate _ _ token entry (some true) => some (token, entry)
  | importing _ token entry => some (token, entry)
  | appending _ _ _ token entry => some (token, entry)
  | _ => none

theorem carries_of_cleared {wait : SetupWait} {token : JsString} {entry : SetupTokenEntry}
    (h : wait.cleared = some (token, entry)) : wait.carries = some (token, entry) := by
  unfold cleared at h
  split at h
  · exact h
  · exact h
  · exact h
  · cases h

theorem carries_of_held {wait : SetupWait} {token : JsString} (h : wait.held = some token) :
    ∃ entry, wait.carries = some (token, entry) := by
  unfold held at h
  split at h
  · split at h
    · cases h
    · exact ⟨_, congrArg some (Prod.ext (Option.some.inj h) rfl)⟩
  · split at h
    · cases h
    · exact ⟨_, congrArg some (Prod.ext (Option.some.inj h) rfl)⟩
  · cases h
  · exact ⟨_, congrArg some (Prod.ext (Option.some.inj h) rfl)⟩
  · exact ⟨_, congrArg some (Prod.ext (Option.some.inj h) rfl)⟩

end SetupWait

namespace SetupEvent

/-- The token that an event ends: it registered a passkey or was retired. -/
def ended : SetupEvent → Option JsString
  | registered _ token _ => some token
  | retired _ token => some token
  | _ => none

end SetupEvent

/-- Every place a token can be in: the issuer, a request that has spent it, its end. -/
def tokenPlaces (issuer : SetupTokenIssuer) (requests : List SetupRequest)
    (history : List SetupEvent) : List JsString :=
  issuer.tokens.keys ++ requests.filterMap (·.wait.held) ++ history.filterMap SetupEvent.ended

/-- A token is in one place; entries are as they were issued; and who got past the gate was
seen enrolled there. -/
structure TokensKept (issuer : SetupTokenIssuer) (requests : List SetupRequest)
    (history : List SetupEvent) : Prop where
  single : ∀ token, (tokenPlaces issuer requests history).count token ≤ 1
  capped : issuer.Capped
  mapped : ∀ {token entry}, issuer.tokens.get token = some entry →
    SetupEvent.issued token entry ∈ history
  carried : ∀ {r token entry}, r ∈ requests → r.wait.carries = some (token, entry) →
    SetupEvent.issued token entry ∈ history
  cleared : ∀ {r token entry}, r ∈ requests → r.wait.cleared = some (token, entry) →
    ∃ rows, SetupEvent.admitted r.number token entry rows ∈ history ∧ entry.burrowId ∈ rows
  ended : ∀ {token}, token ∈ history.filterMap SetupEvent.ended →
    ∃ entry, SetupEvent.issued token entry ∈ history
  mintedOnce : ∀ {token entry entry'}, SetupEvent.issued token entry ∈ history →
    SetupEvent.issued token entry' ∈ history → entry = entry'
  registered : ∀ {n token passkey}, SetupEvent.registered n token passkey ∈ history →
    ∃ entry rows, SetupEvent.issued token entry ∈ history ∧
      SetupEvent.admitted n token entry rows ∈ history ∧ entry.burrowId ∈ rows

namespace TokensKept

variable {issuer issuer' : SetupTokenIssuer} {requests requests' rest : List SetupRequest}
  {history : List SetupEvent} {r r' : SetupRequest} {token : JsString} {entry : SetupTokenEntry}

theorem count_places (issuer : SetupTokenIssuer) (requests : List SetupRequest)
    (history : List SetupEvent) (token : JsString) :
    (tokenPlaces issuer requests history).count token =
      issuer.tokens.keys.count token + (requests.filterMap (·.wait.held)).count token +
        (history.filterMap SetupEvent.ended).count token := by
  rw [tokenPlaces, List.count_append, List.count_append]

theorem count_held_cons (r : SetupRequest) (rest : List SetupRequest) (token : JsString) :
    ((r :: rest).filterMap (·.wait.held)).count token =
      (rest.filterMap (·.wait.held)).count token + if r.wait.held = some token then 1 else 0 := by
  rw [List.filterMap_cons]
  cases hheld : r.wait.held with
  | none => simp
  | some other => simp [List.count_cons]

theorem perm (h : TokensKept issuer requests history) (hperm : requests.Perm requests') :
    TokensKept issuer requests' history :=
  { h with
    single token := by
      rw [count_places, ← (hperm.filterMap _).count_eq, ← count_places]
      exact h.single token
    carried hr := h.carried (hperm.mem_iff.2 hr)
    cleared hr := h.cleared (hperm.mem_iff.2 hr) }

theorem keys_count_le (h : issuer'.tokens.entries.Sublist issuer.tokens.entries)
    (token : JsString) : issuer'.tokens.keys.count token ≤ issuer.tokens.keys.count token :=
  (h.map Prod.fst).count_le token

/-- Tokens may be dropped at any time. -/
theorem shrink (h : TokensKept issuer requests history)
    (hsub : issuer'.tokens.entries.Sublist issuer.tokens.entries) :
    TokensKept issuer' requests history :=
  { h with
    single token := by
      have hsingle := h.single token
      have hkeys := keys_count_le hsub token
      rw [count_places] at hsingle ⊢
      omega
    capped := h.capped.mono hsub
    mapped hget := h.mapped (SetupTokenIssuer.get_of_sublist hsub hget) }

/-- A request that is done drops its token with it. -/
theorem drop (h : TokensKept issuer (r :: rest) history) : TokensKept issuer rest history :=
  { h with
    single token := by
      have hsingle := h.single token
      rw [count_places] at hsingle ⊢
      rw [count_held_cons] at hsingle
      omega
    carried hr := h.carried (List.mem_cons_of_mem _ hr)
    cleared hr := h.cleared (List.mem_cons_of_mem _ hr) }

/-- A request goes on with the token it has. -/
theorem proceed (h : TokensKept issuer (r :: rest) history) (hnumber : r'.number = r.number)
    (hheld : r'.wait.held = r.wait.held ∨ r'.wait.held = none)
    (hcarries : ∀ {token entry}, r'.wait.carries = some (token, entry) →
      r.wait.carries = some (token, entry))
    (hcleared : ∀ {token entry}, r'.wait.cleared = some (token, entry) →
      r.wait.cleared = some (token, entry)) : TokensKept issuer (r' :: rest) history :=
  { h with
    single token := by
      have hsingle := h.single token
      rw [count_places] at hsingle ⊢
      rw [count_held_cons] at hsingle ⊢
      rcases hheld with hsame | hnone
      · rw [hsame]
        exact hsingle
      · have hnot : ¬ r'.wait.held = some token := by
          rw [hnone]
          exact nofun
        rw [if_neg hnot]
        omega
    carried hr hc := by
      rcases List.mem_cons.1 hr with rfl | hr
      · exact h.carried List.mem_cons_self (hcarries hc)
      · exact h.carried (List.mem_cons_of_mem _ hr) hc
    cleared hr hc := by
      rcases List.mem_cons.1 hr with rfl | hr
      · rw [hnumber]
        exact h.cleared List.mem_cons_self (hcleared hc)
      · exact h.cleared (List.mem_cons_of_mem _ hr) hc }

/-- A consumed token goes from the issuer to the request. -/
theorem take (h : TokensKept issuer requests history)
    (hget : issuer.tokens.get token = some entry)
    (hheld : r.wait.held = some token) (hcarries : r.wait.carries = some (token, entry))
    (hcleared : r.wait.cleared = none) :
    TokensKept ⟨issuer.tokens.delete token⟩ (r :: requests) history where
  single other := by
    have hsingle := h.single other
    rw [count_places] at hsingle ⊢
    rw [count_held_cons, hheld]
    have hkeys : (issuer.tokens.delete token).keys.count other +
        (if token = other then 1 else 0) ≤ issuer.tokens.keys.count other := by
      by_cases hother : token = other
      · have hgone : (issuer.tokens.delete token).keys.count other = 0 := by
          rw [List.count_eq_zero, ← InsertionMap.get_eq_none, ← hother]
          exact InsertionMap.get_delete_self _ _
        have hmem : other ∈ issuer.tokens.keys := by
          by_contra hnot
          rw [← InsertionMap.get_eq_none, ← hother, hget] at hnot
          cases hnot
        have hpos := List.count_pos_iff.2 hmem
        rw [if_pos hother]
        omega
      · have hsub := keys_count_le (issuer.delete_sublist token) other
        rw [if_neg hother]
        exact hsub
    simp only [Option.some.injEq]
    omega
  capped := h.capped.mono (issuer.delete_sublist token)
  mapped hget' := h.mapped (SetupTokenIssuer.get_of_sublist (issuer.delete_sublist token) hget')
  carried hr hc := by
    rcases List.mem_cons.1 hr with rfl | hr
    · rw [hcarries] at hc
      cases hc
      exact h.mapped hget
    · exact h.carried hr hc
  cleared hr hc := by
    rcases List.mem_cons.1 hr with rfl | hr
    · rw [hcleared] at hc
      cases hc
    · exact h.cleared hr hc
  ended := h.ended
  mintedOnce := h.mintedOnce
  registered := h.registered

/-- A request that looks at a token without spending it. -/
theorem look (h : TokensKept issuer requests history)
    (hget : issuer.tokens.get token = some entry) (hheld : r.wait.held = none)
    (hcarries : r.wait.carries = some (token, entry)) (hcleared : r.wait.cleared = none) :
    TokensKept issuer (r :: requests) history :=
  { h with
    single other := by
      have hsingle := h.single other
      rw [count_places] at hsingle ⊢
      rw [count_held_cons, hheld, if_neg nofun]
      exact hsingle
    carried hr hc := by
      rcases List.mem_cons.1 hr with rfl | hr
      · rw [hcarries] at hc
        cases hc
        exact h.mapped hget
      · exact h.carried hr hc
    cleared hr hc := by
      rcases List.mem_cons.1 hr with rfl | hr
      · rw [hcleared] at hc
        cases hc
      · exact h.cleared hr hc }

theorem count_keys_set_le (issuer : SetupTokenIssuer) (token : JsString)
    (entry : SetupTokenEntry) (other : JsString) :
    (issuer.tokens.set token entry).keys.count other ≤
      issuer.tokens.keys.count other + if token = other then 1 else 0 := by
  rw [InsertionMap.keys, InsertionMap.set, InsertionMap.keys_setEntry]
  split
  · exact Nat.le_add_right _ _
  · rw [List.count_append, List.count_singleton]
    simp only [beq_iff_eq]
    exact Nat.le_refl _

/-- A request that fails puts its token back. -/
theorem restored (h : TokensKept issuer (r :: rest) history) (hheld : r.wait.held = some token)
    (hcarries : r.wait.carries = some (token, entry)) (now : Ms) :
    TokensKept (issuer.restore token entry now) rest history := by
  have hdrop := h.drop
  have hsingle := fun other => h.single other
  unfold SetupTokenIssuer.restore
  split
  · exact hdrop
  -- The slot is made first, then the token is set into it.
  have hsub : (SetupTokenIssuer.trimBurrow
      (SetupTokenIssuer.pruneExpired ⟨issuer.tokens.delete token⟩ now) entry.burrowId
        (maxTokensPerBurrow - 1)).tokens.entries.Sublist issuer.tokens.entries :=
    (SetupTokenIssuer.trimBurrow_sublist _ _ _).trans
      ((SetupTokenIssuer.pruneExpired_sublist _ _).trans (issuer.delete_sublist token))
  refine ⟨?_, ?_, ?_, hdrop.carried, hdrop.cleared, h.ended, h.mintedOnce, h.registered⟩
  · intro other
    have hother := hsingle other
    have hkeys := keys_count_le hsub other
    have hset := count_keys_set_le (SetupTokenIssuer.trimBurrow
      (SetupTokenIssuer.pruneExpired ⟨issuer.tokens.delete token⟩ now) entry.burrowId
        (maxTokensPerBurrow - 1)) token entry other
    rw [count_places] at hother ⊢
    rw [count_held_cons, hheld] at hother
    simp only [Option.some.injEq] at hother
    dsimp only at hset hkeys ⊢
    omega
  · refine SetupTokenIssuer.Capped.slot ?_ rfl
    exact (h.capped.mono (issuer.delete_sublist token)).mono
      (SetupTokenIssuer.pruneExpired_sublist _ _)
  · intro other entry' hget
    rcases InsertionMap.get_of_set hget with ⟨heq, rfl⟩ | ⟨-, hget⟩
    · exact heq ▸ h.carried List.mem_cons_self hcarries
    · exact h.mapped (SetupTokenIssuer.get_of_sublist hsub hget)

/-- The gate has found the Burrow of a request enrolled. -/
theorem clear (h : TokensKept issuer (r :: rest) history) {rows : List JsString}
    (hnumber : r'.number = r.number) (hheld : r'.wait.held = r.wait.held)
    (hcarries : r'.wait.carries = r.wait.carries) (hentry : r.wait.carries = some (token, entry))
    (hrows : entry.burrowId ∈ rows) :
    TokensKept issuer (r' :: rest) (history ++ [.admitted r.number token entry rows]) where
  single other := by
    have hsingle := h.single other
    rw [count_places] at hsingle ⊢
    rw [count_held_cons] at hsingle ⊢
    have hnone : [SetupEvent.admitted r.number token entry rows].filterMap SetupEvent.ended = [] :=
      rfl
    rw [hheld, List.filterMap_append, hnone, List.append_nil]
    exact hsingle
  capped := h.capped
  mapped hget := List.mem_append_left _ (h.mapped hget)
  carried hr hc := by
    refine List.mem_append_left _ ?_
    rcases List.mem_cons.1 hr with rfl | hr
    · exact h.carried List.mem_cons_self (hcarries ▸ hc)
    · exact h.carried (List.mem_cons_of_mem _ hr) hc
  cleared {r'' token' entry'} hr hc := by
    rcases List.mem_cons.1 hr with rfl | hr
    · have hsame := SetupWait.carries_of_cleared hc
      rw [hcarries, hentry] at hsame
      cases hsame
      exact ⟨rows, List.mem_append_right _ (by rw [hnumber]; exact List.mem_cons_self), hrows⟩
    · obtain ⟨rows', hmem, hin⟩ := h.cleared (List.mem_cons_of_mem _ hr) hc
      exact ⟨rows', List.mem_append_left _ hmem, hin⟩
  ended ht := by
    rw [List.filterMap_append, List.mem_append] at ht
    rcases ht with ht | ht
    · obtain ⟨entry', hissued⟩ := h.ended ht
      exact ⟨entry', List.mem_append_left _ hissued⟩
    · simp [SetupEvent.ended] at ht
  mintedOnce ht ht' := by
    rcases List.mem_append.1 ht with ht | ht
    · rcases List.mem_append.1 ht' with ht' | ht'
      · exact h.mintedOnce ht ht'
      · cases List.mem_singleton.1 ht'
    · cases List.mem_singleton.1 ht
  registered hreg := by
    rcases List.mem_append.1 hreg with hreg | hreg
    · obtain ⟨entry', rows', hissued, hadmitted, hin⟩ := h.registered hreg
      exact ⟨entry', rows', List.mem_append_left _ hissued, List.mem_append_left _ hadmitted, hin⟩
    · cases List.mem_singleton.1 hreg

/-- A request whose gate was passed ends its token. -/
theorem finish (h : TokensKept issuer (r :: rest) history) {event : SetupEvent}
    (hheld : r.wait.held = some token) (hcleared : r.wait.cleared = some (token, entry))
    (hevent : (∃ passkey, event = .registered r.number token passkey) ∨
      event = .retired r.number token) : TokensKept issuer rest (history ++ [event]) := by
  have hended : [event].filterMap SetupEvent.ended = [token] := by
    rcases hevent with ⟨passkey, rfl⟩ | rfl
    · rfl
    · rfl
  have hissued := h.carried List.mem_cons_self (SetupWait.carries_of_cleared hcleared)
  have hold : ∀ {token' entry'}, SetupEvent.issued token' entry' ∈ history ++ [event] →
      SetupEvent.issued token' entry' ∈ history := by
    intro token' entry' hmem
    rcases List.mem_append.1 hmem with hmem | hmem
    · exact hmem
    · rcases hevent with ⟨passkey, rfl⟩ | rfl
      · cases List.mem_singleton.1 hmem
      · cases List.mem_singleton.1 hmem
  have hdrop := h.drop
  constructor
  case single =>
    intro other
    have hsingle := h.single other
    rw [count_places] at hsingle ⊢
    rw [count_held_cons, hheld] at hsingle
    rw [List.filterMap_append, hended, List.count_append, List.count_singleton]
    simp only [Option.some.injEq] at hsingle
    simp only [beq_iff_eq]
    omega
  case capped => exact h.capped
  case mapped => exact fun hget => List.mem_append_left _ (h.mapped hget)
  case carried => exact fun hr hc => List.mem_append_left _ (hdrop.carried hr hc)
  case cleared =>
    intro r' token' entry' hr hc
    obtain ⟨rows, hmem, hin⟩ := hdrop.cleared hr hc
    exact ⟨rows, List.mem_append_left _ hmem, hin⟩
  case ended =>
    intro token' ht
    rw [List.filterMap_append, hended] at ht
    rcases List.mem_append.1 ht with ht | ht
    · obtain ⟨entry', hmem⟩ := h.ended ht
      exact ⟨entry', List.mem_append_left _ hmem⟩
    · rw [List.mem_singleton.1 ht]
      exact ⟨entry, List.mem_append_left _ hissued⟩
  case mintedOnce => exact fun ht ht' => h.mintedOnce (hold ht) (hold ht')
  case registered =>
    intro n token' passkey' hreg
    rcases List.mem_append.1 hreg with hreg | hreg
    · obtain ⟨entry', rows, hmem, hadmitted, hin⟩ := h.registered hreg
      exact ⟨entry', rows, List.mem_append_left _ hmem, List.mem_append_left _ hadmitted, hin⟩
    · obtain ⟨rows, hadmitted, hin⟩ := h.cleared List.mem_cons_self hcleared
      rcases hevent with ⟨passkey, rfl⟩ | rfl
      · cases List.mem_singleton.1 hreg
        exact ⟨entry, rows, List.mem_append_left _ hissued, List.mem_append_left _ hadmitted, hin⟩
      · cases List.mem_singleton.1 hreg

/-- A token that was never issued is nowhere. -/
theorem count_unissued (h : TokensKept issuer requests history)
    (hfresh : ∀ entry, SetupEvent.issued token entry ∉ history) :
    (tokenPlaces issuer requests history).count token = 0 := by
  rw [List.count_eq_zero, tokenPlaces, List.mem_append, List.mem_append]
  rintro ((hmem | hmem) | hmem)
  · cases hget : issuer.tokens.get token with
    | none => exact InsertionMap.get_eq_none.1 hget hmem
    | some entry => exact hfresh entry (h.mapped hget)
  · obtain ⟨r, hr, hheld⟩ := List.mem_filterMap.1 hmem
    obtain ⟨entry, hcarries⟩ := SetupWait.carries_of_held hheld
    exact hfresh entry (h.carried hr hcarries)
  · obtain ⟨entry, hissued⟩ := h.ended hmem
    exact hfresh entry hissued

/-- A new token is issued. -/
theorem mint (h : TokensKept issuer requests history) (burrowId : JsString) (random : Bytes)
    (now : Ms) (hfresh : ∀ entry, SetupEvent.issued (toBase64Url random) entry ∉ history) :
    TokensKept (issuer.issue burrowId random now).1 requests
      (history ++ [.issued (toBase64Url random) ⟨burrowId, now + setupTokenTtlMs⟩]) := by
  have hsub : (issuer.prune burrowId now).tokens.entries.Sublist issuer.tokens.entries :=
    (SetupTokenIssuer.trimBurrow_sublist _ _ _).trans (issuer.pruneExpired_sublist now)
  have hnone : [SetupEvent.issued (toBase64Url random)
      ⟨burrowId, now + setupTokenTtlMs⟩].filterMap SetupEvent.ended = [] := rfl
  constructor
  case single =>
    intro other
    have hset := count_keys_set_le (issuer.prune burrowId now) (toBase64Url random)
      ⟨burrowId, now + setupTokenTtlMs⟩ other
    have hkeys := keys_count_le hsub other
    have hsingle := h.single other
    rw [SetupTokenIssuer.issue, count_places, List.filterMap_append, hnone, List.append_nil]
    dsimp only
    by_cases hother : toBase64Url random = other
    · have hzero := h.count_unissued hfresh
      rw [hother, count_places] at hzero
      rw [if_pos hother] at hset
      omega
    · rw [if_neg hother] at hset
      rw [count_places] at hsingle
      omega
  case capped => exact SetupTokenIssuer.issue_capped h.capped burrowId random now
  case mapped =>
    intro token entry hget
    rw [SetupTokenIssuer.issue] at hget
    rcases InsertionMap.get_of_set hget with ⟨heq, rfl⟩ | ⟨-, hget⟩
    · exact heq ▸ List.mem_append_right _ List.mem_cons_self
    · exact List.mem_append_left _ (h.mapped (SetupTokenIssuer.get_of_sublist hsub hget))
  case carried => exact fun hr hc => List.mem_append_left _ (h.carried hr hc)
  case cleared =>
    intro r token entry hr hc
    obtain ⟨rows, hmem, hin⟩ := h.cleared hr hc
    exact ⟨rows, List.mem_append_left _ hmem, hin⟩
  case ended =>
    intro token ht
    rw [List.filterMap_append, hnone, List.append_nil] at ht
    obtain ⟨entry, hmem⟩ := h.ended ht
    exact ⟨entry, List.mem_append_left _ hmem⟩
  case mintedOnce =>
    intro token entry entry' ht ht'
    rcases List.mem_append.1 ht with ht | ht
    · rcases List.mem_append.1 ht' with ht' | ht'
      · exact h.mintedOnce ht ht'
      · cases List.mem_singleton.1 ht'
        exact absurd ht (hfresh entry)
    · cases List.mem_singleton.1 ht
      rcases List.mem_append.1 ht' with ht' | ht'
      · exact absurd ht' (hfresh entry')
      · cases List.mem_singleton.1 ht'
        rfl
  case registered =>
    intro n token passkey hreg
    rcases List.mem_append.1 hreg with hreg | hreg
    · obtain ⟨entry, rows, hmem, hadmitted, hin⟩ := h.registered hreg
      exact ⟨entry, rows, List.mem_append_left _ hmem, List.mem_append_left _ hadmitted, hin⟩
    · cases List.mem_singleton.1 hreg

end TokensKept

/-- What the clock reads during an act. -/
def SetupAct.clock : SetupAct → Option Ms
  | .mint _ _ now | .receive _ _ now | .passGate _ _ now | .keyImported _ _ now
  | .appendPasskey _ _ now => some now
  | _ => none

/-! ### Every step keeps them -/

namespace SetupRelay

def Kept (s : SetupRelay) : Prop := TokensKept s.setupTokens s.requests s.history

variable {s : SetupRelay} {i : Nat} {request r' : SetupRequest}

/-- The request at `i`, out of its place. -/
theorem Kept.pick (h : s.Kept) (hi : s.requests[i]? = some request) :
    TokensKept s.setupTokens (request :: s.requests.eraseIdx i) s.history := by
  obtain ⟨hlt, rfl⟩ := List.getElem?_eq_some_iff.1 hi
  exact TokensKept.perm h (List.getElem_cons_eraseIdx_perm hlt).symm

/-- And another one put there. -/
theorem Kept.put (hi : s.requests[i]? = some request) {issuer : SetupTokenIssuer}
    {history : List SetupEvent}
    (h : TokensKept issuer (r' :: s.requests.eraseIdx i) history) :
    TokensKept issuer (s.requests.set i r') history := by
  obtain ⟨hlt, -⟩ := List.getElem?_eq_some_iff.1 hi
  exact h.perm (List.set_perm_cons_eraseIdx hlt r').symm

theorem Kept.mint (h : s.Kept) (burrowId : JsString) (random : Bytes) (now : Ms)
    (hfresh : ∀ entry, .issued (toBase64Url random) entry ∉ s.history) :
    (s.mint burrowId random now).Kept :=
  TokensKept.mint h burrowId random now hfresh

theorem Kept.receive (h : s.Kept) (route : SetupRoute) (body : Option Json) (now : Ms) :
    (s.receive route body now).Kept := by
  unfold SetupRelay.receive
  split
  · exact h
  next body token _ =>
    by_cases hroute : route = .begin
    · simp only [if_pos hroute]
      have hpeek := s.setupTokens.peek_sublist token now
      split
      · exact h.shrink hpeek
      next entry hentry =>
        have hget : (s.setupTokens.peek token now).1.tokens.get token = some entry := by
          unfold SetupTokenIssuer.peek at hentry ⊢
          split at hentry
          · cases hentry
          next hold =>
            split at hentry
            · cases hentry
            · next hlive =>
                cases hentry
                simp only [hold, if_neg hlive]
        have hlook := TokensKept.look (h.shrink hpeek)
          (r := ⟨s.nextRequest, .enrollment route body token entry⟩) hget
          (if_pos hroute) rfl rfl
        exact hlook.perm (List.perm_append_singleton _ _).symm
    · simp only [if_neg hroute]
      cases hold : s.setupTokens.tokens.get token with
      | none =>
        have hconsume : s.setupTokens.consume token now = (s.setupTokens, none) := by
          unfold SetupTokenIssuer.consume
          rw [hold]
        rw [hconsume]
        exact h
      | some entry =>
        have hconsume : s.setupTokens.consume token now =
            (⟨s.setupTokens.tokens.delete token⟩,
              if now < entry.expiresAt then some entry else none) := by
          unfold SetupTokenIssuer.consume
          rw [hold]
        rw [hconsume]
        by_cases hlive : now < entry.expiresAt
        · rw [if_pos hlive]
          have htake := TokensKept.take h
            (r := ⟨s.nextRequest, .enrollment route body token entry⟩) hold
            (if_neg hroute) rfl rfl
          exact htake.perm (List.perm_append_singleton _ _).symm
        · rw [if_neg hlive]
          exact h.shrink (s.setupTokens.delete_sublist token)

theorem Kept.readEnrolled (h : s.Kept) (i : Nat) : (s.readEnrolled i).Kept := by
  unfold SetupRelay.readEnrolled
  split
  · next number route body token entry hi =>
      have hpick := h.pick hi
      split
      · exact Kept.put hi (hpick.proceed rfl (.inl rfl) id nofun)
      · next rows _ =>
          split
          · next hrows =>
              exact Kept.put hi (hpick.clear rfl rfl rfl rfl (List.contains_iff_mem.1 hrows))
          · exact Kept.put hi (hpick.proceed rfl (.inl rfl) id nofun)
  · exact h

theorem Kept.passGate (h : s.Kept) (config : SetupConfig) (i : Nat) (random : Bytes) (now : Ms) :
    (s.passGate config i random now).Kept := by
  unfold SetupRelay.passGate
  split
  · next number route body token entry enrolled hi =>
      have hpick := h.pick hi
      split
      · by_cases hroute : route = .begin
        · rw [if_pos hroute]
          exact hpick.drop
        · rw [if_neg hroute]
          exact hpick.restored (if_neg hroute) rfl now
      · exact hpick.drop
      split
      · exact Kept.put hi (hpick.proceed rfl (.inr rfl) nofun nofun)
      · exact hpick.finish rfl rfl (.inr rfl)
      · dsimp only
        split
        · exact hpick.restored rfl rfl now
        · exact Kept.put hi (hpick.proceed rfl (.inl rfl) id id)
  · exact h

theorem Kept.loadAccount (h : s.Kept) (config : SetupConfig) (i : Nat) :
    (s.loadAccount config i).Kept := by
  unfold SetupRelay.loadAccount
  split
  · next number challenge hi =>
      have hpick := h.pick hi
      split
      · exact hpick.drop
      · exact hpick.drop
  · exact h

theorem Kept.keyImported (h : s.Kept) (i : Nat) (imports : Bytes → Bool) (now : Ms) :
    (s.keyImported i imports now).Kept := by
  unfold SetupRelay.keyImported
  split
  · next number body token entry hi =>
      have hpick := h.pick hi
      split
      · exact hpick.restored rfl rfl now
      · split
        · exact hpick.restored rfl rfl now
        · exact Kept.put hi (hpick.proceed rfl (.inl rfl) id id)
  · exact h

theorem Kept.appendPasskey (h : s.Kept) (i : Nat) (fails : Bool) (now : Ms) :
    (s.appendPasskey i fails now).Kept := by
  unfold SetupRelay.appendPasskey
  split
  · next number credentialId publicKey label token entry hi =>
      have hpick := h.pick hi
      split
      · exact hpick.restored rfl rfl now
      · split
        · exact hpick.restored rfl rfl now
        · exact hpick.finish rfl rfl (.inl ⟨_, rfl⟩)
  · exact h

variable {config : SetupConfig}

theorem kept_step {act : SetupAct} {s' : SetupRelay} (h : s.Kept)
    (hstep : (setupRuns config).step s act s') : s'.Kept := by
  obtain ⟨hfresh, rfl⟩ := hstep
  cases act with
  | mint burrowId random now => exact h.mint burrowId random now hfresh
  | receive route body now => exact h.receive route body now
  | readEnrolled i => exact h.readEnrolled i
  | passGate i random now => exact h.passGate config i random now
  | loadAccount i => exact h.loadAccount config i
  | keyImported i imports now => exact h.keyImported i imports now
  | appendPasskey i fails now => exact h.appendPasskey i fails now
  | editBurrows enrolled => exact h
  | editAccount passkeys => exact h

theorem kept_fresh (enrolled : Option (List JsString)) (passkeys : Option (List StoredPasskey)) :
    (fresh enrolled passkeys).Kept where
  single _ := Nat.zero_le _
  capped _ := Nat.zero_le _
  mapped hget := by cases hget
  carried hr := by cases hr
  cleared hr := by cases hr
  ended ht := by cases ht
  mintedOnce ht := by cases ht
  registered hreg := by cases hreg

theorem kept_inductive (config : SetupConfig) : (setupRuns config).Inductive Kept where
  init := by
    rintro s ⟨enrolled, passkeys, rfl⟩
    exact kept_fresh enrolled passkeys
  step h hstep := kept_step h hstep

/-! ### Isolation -/

/-- The Burrow whose token an act spends, puts back or makes. -/
def actsFor (s : SetupRelay) : SetupAct → Option JsString
  | .mint burrowId _ _ => some burrowId
  | .receive _ body _ =>
    (((body.bind (·.stringField (js "setupToken"))).bind s.setupTokens.tokens.get)).map
      (·.burrowId)
  | .passGate i _ _ | .keyImported i _ _ | .appendPasskey i _ _ =>
    ((s.requests[i]?).bind (·.wait.carries)).map (·.2.burrowId)
  | _ => none

/-- A live token of another Burrow stays while a request puts its own back. -/
theorem Kept.get_restore (h : s.Kept) {r : SetupRequest} (hr : r ∈ s.requests)
    {own token : JsString} {ownEntry entry : SetupTokenEntry} {now : Ms}
    (hcarries : r.wait.carries = some (own, ownEntry))
    (hget : s.setupTokens.tokens.get token = some entry) (hlive : now < entry.expiresAt)
    (hother : ownEntry.burrowId ≠ entry.burrowId) :
    (s.setupTokens.restore own ownEntry now).tokens.get token = some entry := by
  unfold SetupTokenIssuer.restore
  split
  · exact hget
  -- Two entries of one token would be one.
  have hne : own ≠ token := by
    rintro rfl
    exact hother (congrArg SetupTokenEntry.burrowId
      (TokensKept.mintedOnce h (h.carried hr hcarries) (h.mapped hget)))
  have hkept : (SetupTokenIssuer.mk (s.setupTokens.tokens.delete own)).tokens.get token =
      some entry := (InsertionMap.get_delete_ne _ hne).trans hget
  rw [InsertionMap.get_set_ne _ _ hne]
  exact SetupTokenIssuer.get_trimmed_other hkept hlive (Ne.symm hother)

/-- What an act on one Burrow's tokens leaves of another's. -/
theorem Kept.isolated (h : s.Kept) {act : SetupAct} {token : JsString} {entry : SetupTokenEntry}
    (hfresh : s.FreshToken act) (hget : s.setupTokens.tokens.get token = some entry)
    (hlive : ∀ now, act.clock = some now → now < entry.expiresAt)
    (hother : s.actsFor act ≠ some entry.burrowId) :
    (s.perform config act).setupTokens.tokens.get token = some entry := by
  have hrestore : ∀ {i : Nat} {r : SetupRequest} {own : JsString} {ownEntry : SetupTokenEntry}
      {now : Ms}, s.requests[i]? = some r → r.wait.carries = some (own, ownEntry) →
      now < entry.expiresAt →
      ((s.requests[i]?).bind (·.wait.carries)).map (·.2.burrowId) ≠ some entry.burrowId →
      (s.setupTokens.restore own ownEntry now).tokens.get token = some entry := by
    intro i r own ownEntry now hi hcarries hnow hne
    refine h.get_restore (List.mem_of_getElem? hi) hcarries hget hnow fun heq => hne ?_
    rw [hi, Option.bind_some, hcarries, Option.map_some, heq]
  cases act with
  | mint burrowId random now =>
    have hne : toBase64Url random ≠ token := by
      rintro rfl
      exact hfresh entry (h.mapped hget)
    refine (InsertionMap.get_set_ne _ _ hne).trans ?_
    exact SetupTokenIssuer.get_trimmed_other hget (hlive now rfl)
      fun heq => hother (congrArg some heq.symm)
  | receive route body now =>
    change (s.receive route body now).setupTokens.tokens.get token = some entry
    unfold SetupRelay.receive
    split
    · exact hget
    next body' spent hbody =>
      have hspent : (body.bind (·.stringField (js "setupToken"))) = some spent := by
        obtain ⟨b, rfl, hb⟩ := Option.bind_eq_some_iff.1 hbody
        obtain ⟨t, ht, heq⟩ := Option.map_eq_some_iff.1 hb
        cases heq
        exact ht
      have hne : spent ≠ token := by
        rintro rfl
        refine hother ?_
        rw [actsFor, hspent, Option.bind_some, hget, Option.map_some]
      by_cases hroute : route = .begin
      · simp only [if_pos hroute]
        have hpeek := SetupTokenIssuer.get_peek_ne s.setupTokens now hne
        split
        · exact hpeek.trans hget
        · exact hpeek.trans hget
      · simp only [if_neg hroute]
        have hconsume := SetupTokenIssuer.get_consume_ne s.setupTokens now hne
        split
        · exact hconsume.trans hget
        · exact hconsume.trans hget
  | readEnrolled i =>
    change (s.readEnrolled i).setupTokens.tokens.get token = some entry
    unfold SetupRelay.readEnrolled
    split
    · split
      · exact hget
      · split
        · exact hget
        · exact hget
    · exact hget
  | passGate i random now =>
    change (s.passGate config i random now).setupTokens.tokens.get token = some entry
    unfold SetupRelay.passGate
    split
    · next hi =>
        split
        · split
          · exact hget
          · exact hrestore hi rfl (hlive now rfl) hother
        · exact hget
        split
        · exact hget
        · exact hget
        · dsimp only
          split
          · exact hrestore hi rfl (hlive now rfl) hother
          · exact hget
    · exact hget
  | loadAccount i =>
    change (s.loadAccount config i).setupTokens.tokens.get token = some entry
    unfold SetupRelay.loadAccount
    split
    · split
      · exact hget
      · exact hget
    · exact hget
  | keyImported i imports now =>
    change (s.keyImported i imports now).setupTokens.tokens.get token = some entry
    unfold SetupRelay.keyImported
    split
    · next hi =>
        split
        · exact hrestore hi rfl (hlive now rfl) hother
        · split
          · exact hrestore hi rfl (hlive now rfl) hother
          · exact hget
    · exact hget
  | appendPasskey i fails now =>
    change (s.appendPasskey i fails now).setupTokens.tokens.get token = some entry
    unfold SetupRelay.appendPasskey
    split
    · next hi =>
        split
        · exact hrestore hi rfl (hlive now rfl) hother
        · split
          · exact hrestore hi rfl (hlive now rfl) hother
          · exact hget
    · exact hget
  | editBurrows enrolled => exact hget
  | editAccount passkeys => exact hget

/-! ### Single use -/

/-- The gate admits on what `burrows.json` holds when it reads. -/
theorem admitted_read {n : Nat} {token : JsString} {entry : SetupTokenEntry}
    {rows : List JsString} {act : SetupAct}
    (h : SetupEvent.admitted n token entry rows ∈ (s.perform config act).history) :
    SetupEvent.admitted n token entry rows ∈ s.history ∨ s.enrolled = some rows := by
  have hother : ∀ {event : SetupEvent}, (∀ rows', event ≠ .admitted n token entry rows') →
      SetupEvent.admitted n token entry rows ∈ s.history ++ [event] →
      SetupEvent.admitted n token entry rows ∈ s.history := by
    intro event hne hmem
    rcases List.mem_append.1 hmem with hmem | hmem
    · exact hmem
    · exact absurd (List.mem_singleton.1 hmem).symm (hne rows)
  cases act with
  | mint burrowId random now => exact .inl (hother (fun _ heq => by cases heq) h)
  | receive route body now =>
    change _ ∈ (s.receive route body now).history at h
    unfold SetupRelay.receive at h
    split at h
    · exact .inl h
    · dsimp only at h
      split at h
      · exact .inl h
      · exact .inl h
  | readEnrolled i =>
    change _ ∈ (s.readEnrolled i).history at h
    unfold SetupRelay.readEnrolled at h
    split at h
    · split at h
      · exact .inl h
      · next rows' hrows =>
          split at h
          · rcases List.mem_append.1 h with h | h
            · exact .inl h
            · cases List.mem_singleton.1 h
              exact .inr hrows
          · exact .inl h
    · exact .inl h
  | passGate i random now =>
    change _ ∈ (s.passGate config i random now).history at h
    unfold SetupRelay.passGate at h
    split at h
    · split at h
      · split at h
        · exact .inl h
        · exact .inl h
      · exact .inl h
      · split at h
        · exact .inl h
        · exact .inl (hother (fun _ heq => by cases heq) h)
        · dsimp only at h
          split at h
          · exact .inl h
          · exact .inl h
    · exact .inl h
  | loadAccount i =>
    change _ ∈ (s.loadAccount config i).history at h
    unfold SetupRelay.loadAccount at h
    split at h
    · split at h
      · exact .inl h
      · exact .inl h
    · exact .inl h
  | keyImported i imports now =>
    change _ ∈ (s.keyImported i imports now).history at h
    unfold SetupRelay.keyImported at h
    split at h
    · split at h
      · exact .inl h
      · split at h
        · exact .inl h
        · exact .inl h
    · exact .inl h
  | appendPasskey i fails now =>
    change _ ∈ (s.appendPasskey i fails now).history at h
    unfold SetupRelay.appendPasskey at h
    split at h
    · split at h
      · exact .inl h
      · split at h
        · exact .inl h
        · exact .inl (hother (fun _ heq => by cases heq) h)
    · exact .inl h
  | editBurrows enrolled => exact .inl h
  | editAccount passkeys => exact .inl h

/-- **Setup tokens are single-use** over every run: a token ends at most once, in one
registration or one retirement; a Burrow is within its cap; a token in the issuer is as it
was issued; who registers a passkey was let past a gate that read its Burrow enrolled; and
no Burrow's act takes a live token of another. -/
theorem setup_tokens_single_use (config : SetupConfig) {s : SetupRelay}
    (hs : (setupRuns config).Reachable s) :
    (s.history.filterMap SetupEvent.ended).Nodup ∧
    (∀ burrowId, s.setupTokens.ownCount burrowId ≤ maxTokensPerBurrow) ∧
    (∀ token entry, s.setupTokens.tokens.get token = some entry →
      SetupEvent.issued token entry ∈ s.history ∧
      ∀ entry', SetupEvent.issued token entry' ∈ s.history → entry' = entry) ∧
    (∀ request token passkey, SetupEvent.registered request token passkey ∈ s.history →
      ∃ entry rows, SetupEvent.issued token entry ∈ s.history ∧
        SetupEvent.admitted request token entry rows ∈ s.history ∧ entry.burrowId ∈ rows) ∧
    ∀ act s', (setupRuns config).step s act s' →
      (∀ request token entry rows, SetupEvent.admitted request token entry rows ∈ s'.history →
        SetupEvent.admitted request token entry rows ∈ s.history ∨ s.enrolled = some rows) ∧
      ∀ token entry, s.setupTokens.tokens.get token = some entry →
        (∀ now, act.clock = some now → now < entry.expiresAt) →
        s.actsFor act ≠ some entry.burrowId →
        s'.setupTokens.tokens.get token = some entry := by
  have h : s.Kept := (kept_inductive config).reachable hs
  refine ⟨?_, h.capped, fun token entry hget => ?_, fun _ _ _ hreg => h.registered hreg, ?_⟩
  · refine List.nodup_iff_count_le_one.2 fun token => ?_
    have hsingle := h.single token
    rw [TokensKept.count_places] at hsingle
    omega
  · exact ⟨h.mapped hget, fun entry' hissued => h.mintedOnce hissued (h.mapped hget)⟩
  · rintro act s' ⟨hfresh, rfl⟩
    exact ⟨fun _ _ _ _ hadmitted => admitted_read hadmitted,
      fun token entry hget hlive hother => h.isolated hfresh hget hlive hother⟩

end SetupRelay

/-! ### One registration -/

namespace OneSetup

def burrowId : JsString := js "burrow-1"

def origin : JsString := js "https://dormouse.dev"

def tokenBytes : Bytes := [0x9d, 0xf3, 0x8d, 0x3f]

def challengeBytes : Bytes := [0x2b, 0xd4, 0xbc, 0x64]

def clientDataBytes : Bytes :=
  utf8Encode (js "\x7b\"type\":\"webauthn.create\",\"challenge\":\"" ++
    toBase64Url challengeBytes ++ js "\",\"origin\":\"" ++ origin ++ js "\"\x7d")

def config : SetupConfig where
  origin := origin
  rpId := js "dormouse.dev"
  parseJson bytes :=
    if bytes = clientDataBytes then
      some (.object [(js "type", .string (js "webauthn.create")),
        (js "challenge", .string (toBase64Url challengeBytes)), (js "origin", .string origin)])
    else none

def beginBody : Json := .object [(js "setupToken", .string (toBase64Url tokenBytes))]

def finishBody : Json :=
  .object [(js "setupToken", .string (toBase64Url tokenBytes)),
    (js "clientDataJSON", .string (toBase64Url clientDataBytes)),
    (js "publicKey", .string (js "MFkw")), (js "credentialId", .string (js "cred-1"))]

/-- A registration whose Burrow is revoked while the key is imported. -/
def acts : List SetupAct :=
  [.mint burrowId tokenBytes 0, .receive .begin (some beginBody) 1, .readEnrolled 0,
    .passGate 0 challengeBytes 1, .loadAccount 0, .receive .finish (some finishBody) 2,
    .readEnrolled 0, .passGate 0 [] 2, .editBurrows (some []),
    .keyImported 0 (fun key => key == [0x30, 0x59, 0x30]) 3]

def start : SetupRelay := .fresh (some [burrowId]) (some [])

def before : SetupRelay := acts.foldl (fun s act => s.perform config act) start

def after : SetupRelay := before.perform config (.appendPasskey 0 false 4)

def passkey : StoredPasskey := ⟨js "cred-1", js "MFkw", [], 4⟩

/-- Acts that mint nothing can be performed one after another. -/
theorem reachable_foldl {s : SetupRelay} (hs : (SetupRelay.setupRuns config).Reachable s) :
    ∀ acts : List SetupAct, (∀ act ∈ acts, ∀ s : SetupRelay, s.FreshToken act) →
      (SetupRelay.setupRuns config).Reachable
        (acts.foldl (fun s act => s.perform config act) s) := by
  intro acts
  induction acts generalizing s with
  | nil => exact fun _ => hs
  | cons act acts ih =>
    intro h
    refine ih (.next hs ⟨h act List.mem_cons_self s, rfl⟩) ?_
    exact fun act' hact => h act' (List.mem_cons_of_mem _ hact)

theorem reachable_before : (SetupRelay.setupRuns config).Reachable before := by
  have hfresh : start.FreshToken (.mint burrowId tokenBytes 0) := fun _ => List.not_mem_nil
  have hmint : (SetupRelay.setupRuns config).Reachable
      (start.perform config (.mint burrowId tokenBytes 0)) :=
    .next (.start ⟨_, _, rfl⟩) ⟨hfresh, rfl⟩
  refine reachable_foldl hmint acts.tail ?_
  simp [acts, SetupRelay.FreshToken]

theorem step_after : (SetupRelay.setupRuns config).step before (.appendPasskey 0 false 4) after :=
  ⟨trivial, rfl⟩

end OneSetup

/-- In a registration that goes through, the token ends once and its Burrow was enrolled when
its gate read `burrows.json`. -/
theorem SetupRelay.setup_tokens_single_use_one :
    OneSetup.after.answers.getLast? = some (1, .finished (js "cred-1")) ∧
    (OneSetup.after.history.filterMap SetupEvent.ended).Nodup ∧
    ∃ entry rows, SetupEvent.issued (toBase64Url OneSetup.tokenBytes) entry ∈
        OneSetup.after.history ∧
      SetupEvent.admitted 1 (toBase64Url OneSetup.tokenBytes) entry rows ∈
        OneSetup.after.history ∧ entry.burrowId ∈ rows := by
  have hall := setup_tokens_single_use OneSetup.config
    (.next OneSetup.reachable_before OneSetup.step_after)
  refine ⟨by decide +kernel, hall.1, hall.2.2.2.1 1 _ OneSetup.passkey ?_⟩
  have hmem : SetupEvent.registered 1 (toBase64Url OneSetup.tokenBytes) OneSetup.passkey ∈
      OneSetup.after.history := by decide +kernel
  exact hmem

/-- The gate is the only look at `burrows.json`: a Burrow revoked after it still has its token
register a passkey. -/
theorem SetupRelay.revoked_while_finishing :
    ¬ ∀ (config : SetupConfig) (s s' : SetupRelay) (act : SetupAct),
      (setupRuns config).Reachable s → (setupRuns config).step s act s' →
      ∀ request token passkey, SetupEvent.registered request token passkey ∈ s'.history →
        SetupEvent.registered request token passkey ∉ s.history →
        ∃ entry rows, SetupEvent.issued token entry ∈ s.history ∧ s.enrolled = some rows ∧
          entry.burrowId ∈ rows := by
  intro hall
  obtain ⟨entry, rows, -, hrows, hmem⟩ := hall OneSetup.config OneSetup.before OneSetup.after _
    OneSetup.reachable_before OneSetup.step_after 1 (toBase64Url OneSetup.tokenBytes)
    OneSetup.passkey (by decide +kernel) (by decide +kernel)
  have hnone : OneSetup.before.enrolled = some [] := by decide +kernel
  rw [hnone] at hrows
  cases hrows
  cases hmem

end Dormouse.Relay

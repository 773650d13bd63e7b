import Mathlib.Data.List.Nodup
import Dormouse.Noise.Transport

/-!
# Dormouse.Noise.TransportSound

**The transport is safe over an adversarial network.** Whatever the network drops,
repeats, reorders, reflects or makes up, each side accepts a prefix of what the
other sent; the first deviation poisons the receiver for good; no nonce is used
twice under one key.

Everything rests on one fact about a cipher state: the `i`-th encryption was made
under the nonce of counter `start + i` (`CipherState.Valid`).
-/

namespace Dormouse.Noise

/-! ### Nonces -/

/-- The number a little-endian byte string spells. -/
def littleEndianNat : Bytes → Nat
  | [] => 0
  | b :: bs => b.toNat + 256 * littleEndianNat bs

theorem littleEndianNat_littleEndian : ∀ (k n : Nat),
    littleEndianNat (littleEndian k n) = n % 256 ^ k
  | 0, n => by rw [littleEndian, littleEndianNat, Nat.pow_zero, Nat.mod_one]
  | k + 1, n => by
    have hbyte : (2 : Nat) ^ 8 = 256 := rfl
    rw [littleEndian, littleEndianNat, littleEndianNat_littleEndian k, UInt8.toNat_ofNat', hbyte,
      Nat.pow_succ', Nat.mod_mul]

theorem noiseNonceBytes_lt {n : Nat} {nonce : Bytes} (h : noiseNonceBytes n = .ok nonce) :
    n < reservedNonce := by
  rw [noiseNonceBytes] at h
  split at h
  · exact absurd h (by simp)
  · omega

/-- Different counters have different nonces. -/
theorem noiseNonceBytes_inj {m n : Nat} {nonce : Bytes} (hm : noiseNonceBytes m = .ok nonce)
    (hn : noiseNonceBytes n = .ok nonce) : m = n := by
  have hm' := noiseNonceBytes_lt hm
  have hn' := noiseNonceBytes_lt hn
  rw [noiseNonceBytes, if_neg (by omega)] at hm hn
  have heq : littleEndian 8 m = littleEndian 8 n :=
    List.append_cancel_left (Except.ok.inj (hm.trans hn.symm))
  have hnat := congrArg littleEndianNat heq
  rw [littleEndianNat_littleEndian, littleEndianNat_littleEndian] at hnat
  simp only [reservedNonce] at hm' hn'
  omega

section Session

variable {K J : Type} {aead : Aead K} {json : JsonText J}

/-! ### Cipher states -/

namespace CipherState

/-- A state whose counter started at `start`: one nonce per encryption, in order. -/
structure Valid (start : Nat) (cs : CipherState K) : Prop where
  counter : cs.n = start + cs.used.length
  nonces : ∀ (i : Nat) (e : Sealed), cs.used[i]? = some e → noiseNonceBytes (start + i) = .ok e.nonce
  bound : cs.n ≤ reservedNonce

/-- What a call may do to a sending state: add encryptions under the next nonces. -/
structure Grows (cs cs' : CipherState K) : Prop where
  key : cs'.key = cs.key
  used : cs.used <+: cs'.used
  valid : ∀ start, cs.Valid start → cs'.Valid start

theorem Grows.refl (cs : CipherState K) : cs.Grows cs :=
  ⟨rfl, List.prefix_rfl, fun _ h => h⟩

theorem Grows.trans {a b c : CipherState K} (hab : a.Grows b) (hbc : b.Grows c) : a.Grows c :=
  ⟨hbc.key.trans hab.key, hab.used.trans hbc.used, fun start h => hbc.valid start (hab.valid start h)⟩

theorem encryptWithAd_grows (cs : CipherState K) (ad plaintext : Bytes) :
    cs.Grows (cs.encryptWithAd aead ad plaintext).1 := by
  rw [encryptWithAd]
  split
  · exact .refl cs
  split
  · exact .refl cs
  split
  · exact .refl cs
  rename_i nonce hnonce
  refine ⟨rfl, List.prefix_append _ _, fun start h => ⟨?_, ?_, ?_⟩⟩
  · have := h.counter
    simp only [List.length_append, List.length_singleton]
    omega
  · intro i e he
    simp only at he
    rcases Nat.lt_or_ge i cs.used.length with hi | hi
    · rw [List.getElem?_append_left hi] at he
      exact h.nonces i e he
    rw [List.getElem?_append_right hi] at he
    obtain ⟨hi', rfl⟩ := List.getElem?_eq_some_iff.1 he
    rw [List.length_singleton] at hi'
    have hcounter := h.counter
    have hsame : start + i = cs.n := by omega
    rw [hsame, hnonce]
    simp
  · have := noiseNonceBytes_lt hnonce
    simp only
    omega

/-- At the limit an encryption is refused and nothing moves. -/
theorem encryptWithAd_exhausted {cs : CipherState K} (hkey : cs.key.isSome = true)
    (hlimit : reservedNonce ≤ cs.n) (ad plaintext : Bytes) :
    (cs.encryptWithAd aead ad plaintext).1 = cs ∧
      ∃ e, (cs.encryptWithAd aead ad plaintext).2 = .error e := by
  obtain ⟨key, hkey⟩ := Option.isSome_iff_exists.1 hkey
  have hnonce : noiseNonceBytes cs.n = .error (.noise "nonce counter exhausted") := if_pos hlimit
  rw [encryptWithAd]
  split
  · rename_i e _
    exact ⟨rfl, e, rfl⟩
  · rw [hkey]
    simp only [hnonce]
    exact ⟨trivial, _, rfl⟩

/-- What opens under a keyed state: its key, at the nonce of its counter, and the
counter moves on by one. -/
theorem decryptWithAd_ok {cs : CipherState K} {key : K} (hkey : cs.key = some key)
    {ad ciphertext plaintext : Bytes}
    (h : (cs.decryptWithAd aead ad ciphertext).2 = .ok plaintext) :
    ∃ nonce, noiseNonceBytes cs.n = .ok nonce ∧
      aead.decrypt key nonce ad ciphertext = some plaintext ∧
      (cs.decryptWithAd aead ad ciphertext).1 = { cs with n := cs.n + 1 } := by
  rw [decryptWithAd] at h ⊢
  split at h
  · exact absurd h (by simp)
  rename_i hlen
  simp only [hkey] at h ⊢
  split at h
  · exact absurd h (by simp)
  rename_i nonce hnonce
  split at h
  · exact absurd h (by simp)
  · rename_i pt hpt
    obtain rfl := Except.ok.inj h
    simp only [hnonce]
    exact ⟨nonce, rfl, hpt, trivial⟩

/-- **A failed decryption does not advance the counter**, nor anything else. -/
theorem decryptWithAd_error {cs : CipherState K} {ad ciphertext : Bytes} {e : Exn}
    (h : (cs.decryptWithAd aead ad ciphertext).2 = .error e) :
    (cs.decryptWithAd aead ad ciphertext).1 = cs := by
  rw [decryptWithAd] at h ⊢
  split
  · rfl
  split
  · rfl
  split
  · rfl
  · split
    · rfl
    · rename_i hlen _ _ hkey _ _ hnonce _ _ hpt
      simp only [hlen, hkey, hnonce, hpt] at h
      exact absurd h (by simp)

/-- A decryption keeps the key and stays within the counter's limit. -/
theorem decryptWithAd_bound {cs : CipherState K} {key : K} (hkey : cs.key = some key)
    (hbound : cs.n ≤ reservedNonce) (ad ciphertext : Bytes) :
    (cs.decryptWithAd aead ad ciphertext).1.key = some key ∧
      (cs.decryptWithAd aead ad ciphertext).1.n ≤ reservedNonce := by
  cases hres : (cs.decryptWithAd aead ad ciphertext).2 with
  | error e =>
    rw [decryptWithAd_error hres]
    exact ⟨hkey, hbound⟩
  | ok plaintext =>
    obtain ⟨nonce, hnonce, -, hnext⟩ := decryptWithAd_ok hkey hres
    rw [hnext]
    exact ⟨hkey, noiseNonceBytes_lt hnonce⟩

theorem decryptWithAd_exhausted {cs : CipherState K} (hkey : cs.key.isSome = true)
    (hlimit : reservedNonce ≤ cs.n) (ad ciphertext : Bytes) :
    ∃ e, (cs.decryptWithAd aead ad ciphertext).2 = .error e := by
  obtain ⟨key, hkey⟩ := Option.isSome_iff_exists.1 hkey
  cases hres : (cs.decryptWithAd aead ad ciphertext).2 with
  | error e => exact ⟨e, rfl⟩
  | ok plaintext =>
    obtain ⟨nonce, hnonce, -, -⟩ := decryptWithAd_ok hkey hres
    have := noiseNonceBytes_lt hnonce
    omega

end CipherState

/-! ### Sending calls -/

namespace Session

theorem requireLive_ok {s : Session K} : s.requireLive = .ok () ↔ s.poison = none := by
  rw [requireLive]
  cases s.poison <;> simp

theorem requireLive_error {s : Session K} {e : Exn} (h : s.requireLive = .error e) :
    s.poison ≠ none := by
  intro hnone
  rw [requireLive_ok.2 hnone] at h
  exact absurd h (by simp)

/-- What every sending call does: the sending state grows, the receiving side is left
alone; it returns only on a live session it leaves live, and throws either without a
trace or poisoning a live session. -/
structure SendSpec {α : Type} (s : Session K) (r : Session K × Except Exn α) : Prop where
  grows : s.send.Grows r.1.send
  receive : r.1.receive = s.receive
  ok : ∀ a, r.2 = .ok a → s.poison = none ∧ r.1.poison = none
  error : ∀ e, r.2 = .error e → r.1 = s ∨ (s.poison = none ∧ r.1.poison ≠ none)

theorem SendSpec.rejected {α : Type} (s : Session K) (e : Exn) :
    SendSpec s ((s, .error e) : Session K × Except Exn α) :=
  ⟨.refl _, rfl, by simp, fun _ _ => .inl rfl⟩

/-- Running a call under the guard. -/
theorem guarded_sendSpec {α : Type} {s : Session K} {run : Session K × Except Exn α}
    (hgrows : s.send.Grows run.1.send) (hreceive : run.1.receive = s.receive)
    (hpoison : run.1.poison = s.poison) : SendSpec s (s.guarded run) := by
  unfold guarded
  split
  · exact .rejected s _
  · rename_i hlive
    have hnone := requireLive_ok.1 hlive
    rcases run with ⟨s', a | a⟩
    · exact ⟨hgrows, hreceive, by simp, fun _ _ => .inr ⟨hnone, by simp⟩⟩
    · exact ⟨hgrows, hreceive, fun _ _ => ⟨hnone, hpoison.trans hnone⟩, by simp⟩

theorem encrypt_spec (aead : Aead K) (json : JsonText J) (s : Session K) (frame : TransportPlaintext J) :
    s.send.Grows (s.encrypt aead json frame).1.send ∧
      (s.encrypt aead json frame).1.receive = s.receive ∧
      (s.encrypt aead json frame).1.poison = s.poison := by
  rw [encrypt]
  split
  · exact ⟨.refl _, rfl, rfl⟩
  · exact ⟨CipherState.encryptWithAd_grows _ _ _, rfl, rfl⟩

theorem encryptBodies_spec (aead : Aead K) (json : JsonText J) (bodies : List Bytes) :
    ∀ s : Session K,
    s.send.Grows (s.encryptBodies aead json bodies).1.send ∧
      (s.encryptBodies aead json bodies).1.receive = s.receive ∧
      (s.encryptBodies aead json bodies).1.poison = s.poison := by
  induction bodies with
  | nil => exact fun s => ⟨.refl _, rfl, rfl⟩
  | cons body bodies ih =>
    intro s
    have hfirst := encrypt_spec aead json s (.stream body)
    rw [encryptBodies]
    split
    · rename_i heq
      rw [heq] at hfirst
      exact hfirst
    · rename_i s' ciphertext heq
      rw [heq] at hfirst
      obtain ⟨hgrows, hreceive, hpoison⟩ := ih s'
      exact ⟨hfirst.1.trans hgrows, hreceive.trans hfirst.2.1, hpoison.trans hfirst.2.2⟩

theorem sendKeepalive_spec (s : Session K) : SendSpec s (s.sendKeepalive aead json) := by
  obtain ⟨hgrows, hreceive, hpoison⟩ := encrypt_spec aead json s .keepalive
  exact guarded_sendSpec hgrows hreceive hpoison

theorem sendControl_spec (s : Session K) (value : J) :
    SendSpec s (s.sendControl aead json value) := by
  rw [sendControl]
  split
  · exact .rejected s _
  · split
    · exact .rejected s _
    · exact guarded_sendSpec (CipherState.encryptWithAd_grows _ _ _) rfl rfl

theorem sendApp_spec (s : Session K) (message : Bytes) :
    SendSpec s (s.sendApp aead json message) := by
  rw [sendApp]
  split
  · exact .rejected s _
  split
  · exact .rejected s _
  · rename_i bodies _
    obtain ⟨hgrows, hreceive, hpoison⟩ :=
      encryptBodies_spec aead json bodies s
    exact guarded_sendSpec hgrows hreceive hpoison

/-- **An over-size message is refused without a trace.** -/
theorem sendApp_oversize (s : Session K) {message : Bytes}
    (h : maxAppMessageLength < message.length) :
    (s.sendApp aead json message).1 = s ∧ ∃ e, (s.sendApp aead json message).2 = .error e := by
  rw [sendApp, chunkAppMessage, if_pos h]
  split
  · rename_i e _
    exact ⟨rfl, e, rfl⟩
  · exact ⟨rfl, _, rfl⟩

/-- **An over-size control value is refused without a trace.** -/
theorem sendControl_oversize (s : Session K) {value : J}
    (h : controlPayloadSize < (json.stringify value).length) :
    (s.sendControl aead json value).1 = s ∧
      ∃ e, (s.sendControl aead json value).2 = .error e := by
  have henc : encodeTransportPlaintext json (.control value) =
      .error (.noise "control message exceeds the control payload size") := by
    rw [encodeTransportPlaintext, encodeControlBody, if_pos h]
    rfl
  rw [sendControl, henc]
  split
  · rename_i e _
    exact ⟨rfl, e, rfl⟩
  · exact ⟨rfl, _, rfl⟩

/-! ### Receiving -/

/-- What a receiving call does: the sending state is left alone; it returns only from a
ciphertext that opened, and throwing leaves the session poisoned. -/
structure ReceiveSpec (aead : Aead K) (s : Session K) (ciphertext : Bytes)
    (r : Session K × Except Exn (TransportReceipt J)) : Prop where
  send : r.1.send = s.send
  receive : r.1 = s ∨ r.1.receive = (s.receive.decryptWithAd aead [] ciphertext).1
  ok : ∀ a, r.2 = .ok a → s.poison = none ∧ r.1.poison = none ∧
    r.1.receive = (s.receive.decryptWithAd aead [] ciphertext).1 ∧
    ∃ plaintext, (s.receive.decryptWithAd aead [] ciphertext).2 = .ok plaintext
  error : ∀ e, r.2 = .error e → r.1.poison ≠ none

theorem acceptFrame_spec (s : Session K) (frame : TransportPlaintext J) :
    (s.acceptFrame frame).1.send = s.send ∧ (s.acceptFrame frame).1.receive = s.receive ∧
      (s.acceptFrame frame).1.poison = s.poison := by
  cases frame <;> exact ⟨rfl, rfl, rfl⟩

theorem receiveFrame_spec (aead : Aead K) (json : JsonText J) (s : Session K) (ciphertext : Bytes) :
    (s.receiveFrame aead json ciphertext).1.send = s.send ∧
      (s.receiveFrame aead json ciphertext).1.receive =
        (s.receive.decryptWithAd aead [] ciphertext).1 ∧
      (s.receiveFrame aead json ciphertext).1.poison = s.poison ∧
      (∀ a, (s.receiveFrame aead json ciphertext).2 = .ok a →
        ∃ plaintext, (s.receive.decryptWithAd aead [] ciphertext).2 = .ok plaintext) := by
  rw [receiveFrame]
  rcases s.receive.decryptWithAd aead [] ciphertext with ⟨cs, e | plaintext⟩
  · exact ⟨rfl, rfl, rfl, by simp⟩
  simp only
  split
  · exact ⟨rfl, rfl, rfl, by simp⟩
  · rename_i frame _
    obtain ⟨hsend, hreceive, hpoison⟩ := acceptFrame_spec { s with receive := cs } frame
    exact ⟨hsend, hreceive, hpoison, fun _ _ => ⟨plaintext, rfl⟩⟩

theorem receiveMessage_spec (aead : Aead K) (json : JsonText J) (s : Session K) (ciphertext : Bytes) :
    ReceiveSpec aead s ciphertext (s.receiveMessage aead json ciphertext) := by
  obtain ⟨hsend, hreceive, hpoison, hopened⟩ :=
    receiveFrame_spec aead json s ciphertext
  unfold receiveMessage guarded
  split
  · rename_i e hdead
    exact ⟨rfl, .inl rfl, by simp, fun _ _ => requireLive_error hdead⟩
  rename_i hlive
  have hnone := requireLive_ok.1 hlive
  rcases hrun : s.receiveFrame aead json ciphertext with ⟨s', e | a⟩
  · rw [hrun] at hsend hreceive
    exact ⟨hsend, .inr hreceive, by simp, by simp⟩
  · rw [hrun] at hsend hreceive hpoison hopened
    exact ⟨hsend, .inr hreceive, fun _ _ => ⟨hnone, hpoison.trans hnone, hreceive,
      hopened a rfl⟩, by simp⟩

/-- **Poison is final**: a poisoned session answers every call with an error and
stays as it is. -/
theorem poisoned_guarded {α : Type} {s : Session K} (h : s.poison ≠ none)
    (run : Session K × Except Exn α) :
    (s.guarded run).1 = s ∧ ∃ e, (s.guarded run).2 = .error e := by
  unfold guarded
  split
  · rename_i e _
    exact ⟨rfl, e, rfl⟩
  · rename_i hlive
    exact absurd (requireLive_ok.1 hlive) h

end Session

end Session

/-! ### The two directions -/

theorem prefix_concat {α : Type} {l m : List α} {a : α} (h : l <+: m)
    (ha : m[l.length]? = some a) : l ++ [a] <+: m := by
  obtain ⟨t, rfl⟩ := h
  rw [List.getElem?_append_right (Nat.le_refl _), Nat.sub_self] at ha
  cases t with
  | nil => simp at ha
  | cons b t =>
    obtain rfl : b = a := by simpa using ha
    exact ⟨t, by simp⟩

section Network

variable {K J : Type} {aead : Aead K} {json : JsonText J} {keys : Party → K}
  {counters : Party → Nat}

/-- The sending side of a direction that started at counter `start`. -/
structure SenderInv (key : K) (start : Nat) (s : Session K) (sent : List Sealed) : Prop where
  key : s.send.key = some key
  valid : s.send.Valid start
  sent_initial : sent <+: s.send.used
  sent_all : s.poison = none → sent = s.send.used

/-- The receiving side of a direction that started at counter `start`. -/
structure ReceiverInv (key : K) (start : Nat) (s : Session K) (peerSent : List Sealed)
    (accepted : List Bytes) : Prop where
  key : s.receive.key = some key
  bound : s.receive.n ≤ reservedNonce
  accepted_initial : accepted <+: peerSent.map (·.plaintext)
  counter : s.poison = none → s.receive.n = start + accepted.length

/-- What holds of the network in every run. -/
structure NetInv (keys : Party → K) (counters : Party → Nat) (net : Net K) : Prop where
  sender : ∀ p, SenderInv (keys p) (counters p) (net.session p) (net.sent p)
  receiver : ∀ p, ReceiverInv (keys p.other) (counters p.other) (net.session p)
    (net.sent p.other) (net.accepted p)

@[simp] theorem Party.other_other (p : Party) : p.other.other = p := by cases p <;> rfl

theorem Party.other_ne (p : Party) : p.other ≠ p := by cases p <;> decide

theorem Party.eq_or_other (p q : Party) : q = p ∨ q = p.other := by
  cases p <;> cases q <;> simp [Party.other]

/-- A sending call at `p` adds to what `p` has sent and keeps both directions. -/
theorem NetInv.afterSend {α : Type} {net : Net K} (h : NetInv keys counters net) {p : Party}
    {r : Session K × Except Exn α} (hspec : (net.session p).SendSpec r) :
    NetInv keys counters (net.afterSend p r) := by
  have hs := h.sender p
  have hgrow : net.sent p <+: (net.afterSend p r).sent p := by
    rw [Net.afterSend]
    split
    · simp only [Function.update_self]
      exact List.prefix_append _ _
    · exact List.prefix_rfl
  have hsent : (net.afterSend p r).sent p.other = net.sent p.other := by
    rw [Net.afterSend]
    split
    · simp only [Function.update_of_ne p.other_ne]
    · rfl
  have hdead : r.1.poison = none → (net.session p).poison = none := by
    intro hnone
    cases hres : r.2 with
    | ok a => exact (hspec.ok a hres).1
    | error e =>
      rcases hspec.error e hres with heq | ⟨hlive, -⟩
      · rwa [heq] at hnone
      · exact hlive
  constructor
  · intro q
    rcases p.eq_or_other q with rfl | rfl
    · have hsession : (net.afterSend q r).session q = r.1 := Function.update_self ..
      rw [hsession]
      refine ⟨hspec.grows.key.trans hs.key, hspec.grows.valid _ hs.valid, ?_, ?_⟩
      · rw [Net.afterSend]
        split
        · rename_i a hres
          simp only [Function.update_self]
          rw [hs.sent_all (hspec.ok a hres).1]
          exact ⟨[], (List.append_nil _).trans (List.prefix_iff_eq_append.1 hspec.grows.used)⟩
        · exact hs.sent_initial.trans hspec.grows.used
      · intro hnone
        rw [Net.afterSend]
        split
        · rename_i a hres
          simp only [Function.update_self]
          rw [hs.sent_all (hspec.ok a hres).1]
          exact List.prefix_iff_eq_append.1 hspec.grows.used
        · rename_i e hres
          rcases hspec.error e hres with heq | ⟨-, hpoison⟩
          · rw [heq] at hnone ⊢
            exact hs.sent_all hnone
          · exact absurd hnone hpoison
    · have hsession : (net.afterSend p r).session p.other = net.session p.other :=
        Function.update_of_ne p.other_ne ..
      rw [hsession, hsent]
      exact h.sender p.other
  · intro q
    rcases p.eq_or_other q with rfl | rfl
    · have hsession : (net.afterSend q r).session q = r.1 := Function.update_self ..
      have hr := h.receiver q
      rw [hsession, hsent]
      refine ⟨?_, ?_, hr.accepted_initial, fun hnone => ?_⟩
      · rw [hspec.receive]
        exact hr.key
      · rw [hspec.receive]
        exact hr.bound
      · rw [hspec.receive]
        exact hr.counter (hdead hnone)
    · have hsession : (net.afterSend p r).session p.other = net.session p.other :=
        Function.update_of_ne p.other_ne ..
      have hr := h.receiver p.other
      rw [hsession]
      refine ⟨hr.key, hr.bound, hr.accepted_initial.trans ?_, hr.counter⟩
      rw [Party.other_other]
      exact hgrow.map _

/-- **The one ciphertext a live receiver accepts** is the next one its peer sent. -/
theorem NetInv.opened {net : Net K} (h : NetInv keys counters net) {p : Party}
    (hlive : (net.session p).poison = none) {ciphertext plaintext : Bytes}
    (hideal : Unforged aead keys net ciphertext)
    (hopen : ((net.session p).receive.decryptWithAd aead [] ciphertext).2 = .ok plaintext) :
    ∃ nonce, (net.sent p.other)[(net.accepted p).length]? =
      some ⟨nonce, plaintext, ciphertext⟩ := by
  have hr := h.receiver p
  have hs := h.sender p.other
  obtain ⟨nonce, hnonce, hdec, -⟩ := CipherState.decryptWithAd_ok hr.key hopen
  refine ⟨nonce, ?_⟩
  obtain ⟨i, hi⟩ := List.mem_iff_getElem?.1 (hideal p.other nonce plaintext hdec)
  have hused : (net.session p.other).send.used[i]? = some ⟨nonce, plaintext, ciphertext⟩ := by
    obtain ⟨t, ht⟩ := hs.sent_initial
    rw [← ht]
    rw [List.getElem?_append_left (List.getElem?_eq_some_iff.1 hi).1]
    exact hi
  have hinj := noiseNonceBytes_inj (hs.valid.nonces i _ hused) hnonce
  have hcounter := hr.counter hlive
  have : i = (net.accepted p).length := by omega
  rwa [← this]

theorem Net.afterReceive_accepted_of_ne (aead : Aead K) (json : JsonText J) (net : Net K)
    {p q : Party} (hne : p ≠ q) (ciphertext : Bytes) :
    (net.afterReceive aead json q ciphertext).accepted p = net.accepted p := by
  cases hres : ((net.session q).receiveMessage aead json ciphertext).2 with
  | error e => simp only [Net.afterReceive, hres]
  | ok receipt =>
    cases hopen : ((net.session q).receive.decryptWithAd aead [] ciphertext).2 with
    | error e => simp only [Net.afterReceive, hres, hopen]
    | ok plaintext =>
      simp only [Net.afterReceive, hres, hopen, Function.update_of_ne hne]

/-- A receiving call at `p` accepts at most the next plaintext of its peer. -/
theorem NetInv.afterReceive {net : Net K} (h : NetInv keys counters net) {p : Party}
    {ciphertext : Bytes} (hideal : Unforged aead keys net ciphertext) :
    NetInv keys counters (net.afterReceive aead json p ciphertext) := by
  have hspec := Session.receiveMessage_spec aead json (net.session p) ciphertext
  have hs := h.sender p
  have hr := h.receiver p
  have hsession : (net.afterReceive aead json p ciphertext).session p =
      ((net.session p).receiveMessage aead json ciphertext).1 := Function.update_self ..
  have hother : (net.afterReceive aead json p ciphertext).session p.other = net.session p.other :=
    Function.update_of_ne p.other_ne ..
  have hacc : (net.afterReceive aead json p ciphertext).accepted p.other =
      net.accepted p.other :=
    Net.afterReceive_accepted_of_ne aead json net p.other_ne ciphertext
  have hdead : ((net.session p).receiveMessage aead json ciphertext).1.poison = none →
      (net.session p).poison = none ∧
        ∃ a, ((net.session p).receiveMessage aead json ciphertext).2 = .ok a := by
    intro hnone
    cases hres : ((net.session p).receiveMessage aead json ciphertext).2 with
    | ok a => exact ⟨(hspec.ok a hres).1, a, rfl⟩
    | error e => exact absurd hnone (hspec.error e hres)
  constructor
  · intro q
    rcases p.eq_or_other q with rfl | rfl
    · rw [hsession]
      refine ⟨hspec.send ▸ hs.key, hspec.send ▸ hs.valid, hspec.send ▸ hs.sent_initial, ?_⟩
      intro hnone
      rw [hspec.send]
      exact hs.sent_all (hdead hnone).1
    · rw [hother]
      exact h.sender p.other
  · intro q
    rcases p.eq_or_other q with rfl | rfl
    · rw [hsession]
      have hmoved : ((net.session q).receiveMessage aead json ciphertext).1.receive.key =
          some (keys q.other) ∧
          ((net.session q).receiveMessage aead json ciphertext).1.receive.n ≤ reservedNonce := by
        rcases hspec.receive with heq | heq
        · rw [heq]
          exact ⟨hr.key, hr.bound⟩
        · rw [heq]
          exact CipherState.decryptWithAd_bound hr.key hr.bound [] ciphertext
      cases hres : ((net.session q).receiveMessage aead json ciphertext).2 with
      | error e =>
        have hsame : (net.afterReceive aead json q ciphertext).accepted q = net.accepted q := by
          rw [Net.afterReceive]
          simp only [hres]
        rw [hsame]
        exact ⟨hmoved.1, hmoved.2, hr.accepted_initial,
          fun hnone => absurd hnone (hspec.error e hres)⟩
      | ok a =>
        obtain ⟨hlive, -, hrecv, plaintext, hopen⟩ := hspec.ok a hres
        obtain ⟨nonce, hnext⟩ := h.opened hlive hideal hopen
        have hmore : (net.afterReceive aead json q ciphertext).accepted q =
            net.accepted q ++ [plaintext] := by
          rw [Net.afterReceive]
          simp only [hres, hopen, Function.update_self]
        rw [hmore]
        refine ⟨hmoved.1, hmoved.2, prefix_concat hr.accepted_initial ?_, fun _ => ?_⟩
        · show ((net.sent q.other).map (·.plaintext))[(net.accepted q).length]? = some plaintext
          rw [List.getElem?_map, hnext]
          rfl
        · obtain ⟨-, -, -, hstate⟩ := CipherState.decryptWithAd_ok hr.key hopen
          have hcounter := hr.counter hlive
          rw [hrecv, hstate, List.length_append, List.length_singleton]
          simp only
          omega
    · rw [hother, hacc]
      exact h.receiver p.other

/-- **Both directions keep their invariant** in every run. -/
theorem network_inductive (hcounters : ∀ p, counters p ≤ reservedNonce) :
    (network aead json keys counters).Inductive (NetInv keys counters) where
  init := by
    rintro net rfl
    refine ⟨fun p => ⟨rfl, ⟨rfl, ?_, hcounters p⟩, List.prefix_rfl, fun _ => rfl⟩,
      fun p => ⟨rfl, hcounters p.other, List.prefix_rfl, fun _ => rfl⟩⟩
    intro i e he
    simp [freshSession] at he
  step := by
    rintro net net' ⟨p, action⟩ h ⟨hideal, rfl⟩
    cases action with
    | keepalive => exact h.afterSend (Session.sendKeepalive_spec _)
    | control value => exact h.afterSend (Session.sendControl_spec _ value)
    | app message => exact h.afterSend (Session.sendApp_spec _ message)
    | deliver ciphertext => exact h.afterReceive (hideal ciphertext rfl)

/-! ### What the transport promises -/

/-- Key and nonce of every encryption a party has made. -/
def pairsUsed (keys : Party → K) (net : Net K) (p : Party) : List (K × Bytes) :=
  (net.session p).send.used.map fun e => (keys p, e.nonce)

theorem NetInv.nodup_pairsUsed {net : Net K} (h : NetInv keys counters net) (p : Party) :
    (pairsUsed keys net p).Nodup := by
  rw [List.nodup_iff_getElem?_ne_getElem?]
  intro i j hij hj heq
  rw [pairsUsed, List.length_map] at hj
  have hi : i < (net.session p).send.used.length := by omega
  rw [pairsUsed, List.getElem?_map, List.getElem?_map, List.getElem?_eq_getElem hi,
    List.getElem?_eq_getElem hj] at heq
  have hnonce : (net.session p).send.used[i].nonce = (net.session p).send.used[j].nonce :=
    congrArg Prod.snd (Option.some.inj heq)
  have hvalid := (h.sender p).valid
  have h1 := hvalid.nonces i _ (List.getElem?_eq_getElem hi)
  have h2 := hvalid.nonces j _ (List.getElem?_eq_getElem hj)
  rw [← hnonce] at h2
  have := noiseNonceBytes_inj h1 h2
  omega

/-- A poisoned party stays as it is, and accepts and sends nothing more. -/
theorem poisoned_step (aead : Aead K) (json : JsonText J) {net : Net K} {p : Party} (h : (net.session p).poison ≠ none) (q : Party)
    (action : Action J) :
    (net.next aead json q action).session p = net.session p ∧
      (net.next aead json q action).accepted p = net.accepted p ∧
      (net.next aead json q action).sent p = net.sent p := by
  have hsend : ∀ {α : Type} (r : Session K × Except Exn α),
      (q = p → r.1 = net.session p ∧ ∃ e, r.2 = .error e) →
        (net.afterSend q r).session p = net.session p ∧
          (net.afterSend q r).accepted p = net.accepted p ∧
          (net.afterSend q r).sent p = net.sent p := by
    intro α r hr
    rcases p.eq_or_other q with rfl | rfl
    · obtain ⟨hsame, e, he⟩ := hr rfl
      refine ⟨?_, rfl, ?_⟩
      · rw [Net.afterSend]
        simp only [hsame, Function.update_self]
      · rw [Net.afterSend]
        simp only [he]
    · refine ⟨Function.update_of_ne p.other_ne.symm .., rfl, ?_⟩
      rw [Net.afterSend]
      split
      · exact Function.update_of_ne p.other_ne.symm ..
      · rfl
  have herr : ∃ e, (net.session p).requireLive = .error e := by
    cases hlive : (net.session p).requireLive with
    | error e => exact ⟨e, rfl⟩
    | ok u => exact absurd (Session.requireLive_ok.1 hlive) h
  obtain ⟨e, he⟩ := herr
  cases action with
  | keepalive =>
    refine hsend _ ?_
    rintro rfl
    exact Session.poisoned_guarded h _
  | control value =>
    refine hsend _ ?_
    rintro rfl
    rw [Session.sendControl, he]
    exact ⟨rfl, e, rfl⟩
  | app message =>
    refine hsend _ ?_
    rintro rfl
    rw [Session.sendApp, he]
    exact ⟨rfl, e, rfl⟩
  | deliver ciphertext =>
    rcases p.eq_or_other q with rfl | rfl
    · obtain ⟨hsame, e, herr⟩ := Session.poisoned_guarded h
        ((net.session q).receiveFrame aead json ciphertext)
      refine ⟨?_, ?_, rfl⟩
      · exact (Function.update_self ..).trans hsame
      · rw [Net.next, Net.afterReceive]
        simp only [Session.receiveMessage, herr]
    · exact ⟨Function.update_of_ne p.other_ne.symm ..,
        Net.afterReceive_accepted_of_ne aead json net p.other_ne.symm ciphertext, rfl⟩

variable (aead json keys counters)

/-- What holds of the network in every run, and of every way to go on from there. -/
structure TransportSafe (net : Net K) : Prop where
  /-- Each side accepts a prefix of what the other sent. -/
  accepted_initial : ∀ p : Party, net.accepted p.other <+: (net.sent p).map (·.plaintext)
  /-- No key and nonce encrypt twice. -/
  no_reuse : (pairsUsed keys net .alice ++ pairsUsed keys net .bob).Nodup
  /-- No counter passes the reserved value. -/
  no_wrap : ∀ p, (net.session p).send.n ≤ reservedNonce ∧ (net.session p).receive.n ≤ reservedNonce
  /-- Any other ciphertext than the peer's next one poisons the receiver. -/
  deviation : ∀ p ciphertext, Unforged aead keys net ciphertext →
    (∀ e, (net.sent p.other)[(net.accepted p).length]? = some e → e.ciphertext ≠ ciphertext) →
      ((net.next aead json p (.deliver ciphertext)).session p).isPoisoned = true ∧
        (net.next aead json p (.deliver ciphertext)).accepted p = net.accepted p
  /-- A poisoned side delivers and sends nothing more, however the run goes on. -/
  permanent : ∀ p, (net.session p).isPoisoned = true → ∀ net',
    ((network aead json keys counters).startingAt net).Reachable net' →
      net'.session p = net.session p ∧ net'.accepted p = net.accepted p ∧
        net'.sent p = net.sent p

/-- What single calls promise, in any state. -/
structure CallsSafe : Prop where
  /-- Encrypting at the limit throws and moves nothing. -/
  encrypt_limit : ∀ (cs : CipherState K) ad plaintext, cs.key.isSome = true →
    reservedNonce ≤ cs.n → (cs.encryptWithAd aead ad plaintext).1 = cs ∧
      ∃ e, (cs.encryptWithAd aead ad plaintext).2 = .error e
  /-- Decrypting at the limit throws. -/
  decrypt_limit : ∀ (cs : CipherState K) ad ciphertext, cs.key.isSome = true →
    reservedNonce ≤ cs.n → ∃ e, (cs.decryptWithAd aead ad ciphertext).2 = .error e
  /-- A failed decryption does not advance the counter. -/
  decrypt_failure : ∀ (cs : CipherState K) ad ciphertext e,
    (cs.decryptWithAd aead ad ciphertext).2 = .error e →
      (cs.decryptWithAd aead ad ciphertext).1 = cs
  /-- An over-size message leaves the session as it was. -/
  app_size : ∀ (s : Session K) message, maxAppMessageLength < message.length →
    (s.sendApp aead json message).1 = s ∧ ∃ e, (s.sendApp aead json message).2 = .error e
  /-- An over-size control value leaves the session as it was. -/
  control_size : ∀ (s : Session K) value, controlPayloadSize < (json.stringify value).length →
    (s.sendControl aead json value).1 = s ∧ ∃ e, (s.sendControl aead json value).2 = .error e

/-- **The transport is safe** in every run of two mirrored sessions over a network
that forges nothing. -/
theorem transport_safe (hkeys : keys .alice ≠ keys .bob)
    (hcounters : ∀ p, counters p ≤ reservedNonce) (net : Net K)
    (h : (network aead json keys counters).Reachable net) :
    TransportSafe aead json keys counters net ∧ CallsSafe aead json := by
  have hinv := (network_inductive hcounters).reachable h
  refine ⟨⟨fun p => ?_, ?_, fun p => ⟨(hinv.sender p).valid.bound, (hinv.receiver p).bound⟩, ?_, ?_⟩,
    ⟨fun _ _ _ hkey hlimit => CipherState.encryptWithAd_exhausted hkey hlimit _ _,
      fun _ _ _ hkey hlimit => CipherState.decryptWithAd_exhausted hkey hlimit _ _,
      fun _ _ _ _ => CipherState.decryptWithAd_error,
      fun s _ => s.sendApp_oversize, fun s _ => s.sendControl_oversize⟩⟩
  · have hprefix := (hinv.receiver p.other).accepted_initial
    rwa [Party.other_other] at hprefix
  · refine List.nodup_append.2 ⟨hinv.nodup_pairsUsed .alice, hinv.nodup_pairsUsed .bob, ?_⟩
    intro a ha b hb hab
    obtain ⟨e, -, rfl⟩ := List.mem_map.1 ha
    obtain ⟨f, -, rfl⟩ := List.mem_map.1 hb
    exact hkeys (congrArg Prod.fst hab)
  · intro p ciphertext hideal hdeviates
    have hspec := Session.receiveMessage_spec aead json (net.session p)
      ciphertext
    have hsession : (net.next aead json p (.deliver ciphertext)).session p =
        ((net.session p).receiveMessage aead json ciphertext).1 := Function.update_self ..
    cases hres : ((net.session p).receiveMessage aead json ciphertext).2 with
    | error e =>
      refine ⟨?_, ?_⟩
      · rw [hsession, Session.isPoisoned]
        exact Option.isSome_iff_ne_none.2 (hspec.error e hres)
      · rw [Net.next, Net.afterReceive]
        simp only [hres]
    | ok a =>
      obtain ⟨hlive, -, -, plaintext, hopen⟩ := hspec.ok a hres
      obtain ⟨nonce, hnext⟩ := hinv.opened hlive hideal hopen
      exact absurd rfl (hdeviates _ hnext)
  · intro p hpoisoned net' hreach
    have hpoison : (net.session p).poison ≠ none := Option.isSome_iff_ne_none.1 hpoisoned
    have hstays : ((network aead json keys counters).startingAt net).Inductive fun net' =>
        net'.session p = net.session p ∧ net'.accepted p = net.accepted p ∧
          net'.sent p = net.sent p := by
      refine ⟨?_, ?_⟩
      · rintro s rfl
        exact ⟨rfl, rfl, rfl⟩
      · rintro s t ⟨q, action⟩ ⟨h1, h2, h3⟩ ⟨-, rfl⟩
        obtain ⟨h1', h2', h3'⟩ := poisoned_step aead json
          (h1.symm ▸ hpoison) q action
        exact ⟨h1'.trans h1, h2'.trans h2, h3'.trans h3⟩
    exact hstays.reachable hreach

end Network

/-! ### A run with a toy AEAD -/

/-- Appends key and nonce as the tag. -/
def tagAead : Aead UInt8 where
  encrypt key nonce _ plaintext := plaintext ++ (key :: nonce ++ [0, 0, 0])
  decrypt key nonce _ ciphertext :=
    if ciphertext.drop (ciphertext.length - noiseTagLength) = key :: nonce ++ [0, 0, 0] then
      some (ciphertext.take (ciphertext.length - noiseTagLength))
    else none

def noJson : JsonText Unit where
  stringify _ := [0x7b, 0x7d]
  parse _ := none
  isObject _ := true

def tagKeys : Party → UInt8
  | .alice => 1
  | .bob => 2

def keepaliveSent : Net UInt8 :=
  (⟨freshSession tagKeys fun _ => 0, fun _ => [], fun _ => []⟩ : Net UInt8).next tagAead noJson
    .alice .keepalive

/-- The ciphertext of alice's first keepalive. -/
def firstKeepalive : Bytes :=
  tagAead.encrypt 1 (List.replicate 12 0) [] (transportKindKeepalive :: List.replicate 32 0)

theorem keepaliveSent_unforged : Unforged tagAead tagKeys keepaliveSent firstKeepalive := by
  intro p nonce plaintext h
  have htag : firstKeepalive.drop (firstKeepalive.length - noiseTagLength) =
      1 :: List.replicate 12 0 ++ [0, 0, 0] := by decide
  have hbody : firstKeepalive.take (firstKeepalive.length - noiseTagLength) =
      transportKindKeepalive :: List.replicate 32 0 := by decide
  simp only [tagAead, htag, hbody] at h
  split at h
  · rename_i heq
    obtain rfl := Option.some.inj h
    have hkey : (1 : UInt8) = tagKeys p := (List.cons.inj heq).1
    obtain rfl : List.replicate 12 0 = nonce := List.append_cancel_right (List.cons.inj heq).2
    cases p with
    | alice => decide
    | bob => exact absurd hkey (by decide)
  · exact absurd h (by simp)

/-- alice sends a keepalive and bob accepts it. -/
theorem transport_safe_keepalive :
    ((keepaliveSent.next tagAead noJson .bob (.deliver firstKeepalive)).accepted .bob).length = 1 ∧
      TransportSafe tagAead noJson tagKeys (fun _ => 0)
        (keepaliveSent.next tagAead noJson .bob (.deliver firstKeepalive)) ∧
      CallsSafe tagAead noJson := by
  refine ⟨by decide, transport_safe tagAead noJson tagKeys (fun _ => 0) (by decide)
    (fun _ => Nat.zero_le _) _ ?_⟩
  refine .next (s := keepaliveSent) (a := (.bob, .deliver firstKeepalive)) ?_ ⟨?_, rfl⟩
  · refine .next (a := (.alice, .keepalive)) (.start rfl) ⟨?_, rfl⟩
    intro ciphertext h
    exact absurd h (by simp)
  · intro ciphertext h
    obtain rfl : firstKeepalive = ciphertext := by simpa using h
    exact keepaliveSent_unforged

end Dormouse.Noise

import Dormouse.Security.Acl
import Dormouse.Security.PushSeal
import Dormouse.Security.PushText

/-!
# Dormouse.Burrow.PushDelivery

**Delivering a push** (`lib/src/remote/burrow/push-delivery.ts`): the plaintext that `sendPush`
builds of a title and a Session, and the envelopes it seals to the paired Clients.

The fields are bounded in code points and the seal in bytes. A code point is six bytes at most, a
lone surrogate being escaped, so that the two bounds agree.
-/

namespace Dormouse.Burrow

open JsonText (NumberFormat)
open Noise (Bytes Exn noiseTagLength)
open Security

def pushTitleLimit : Nat := 100

def pushBody : JsString := js "Needs attention"

def pushTagLimit : Nat := 64

def maxPushQueryDeliveryIds : Nat := 64

def toPushText (label : JsString) : JsString :=
  boundedPushText label pushTitleLimit (js "terminal")

def toPushTag (sessionId : JsString) : JsString :=
  boundedPushText sessionId pushTagLimit (js "dormouse")

def pushFields (title sessionId : JsString) : Json :=
  .object [(js "title", .string (toPushText title)), (js "body", .string pushBody),
    (js "tag", .string (toPushTag sessionId))]

/-- The plaintext that `sendPush` seals. -/
def pushPlaintext (fmt : NumberFormat) (title sessionId : JsString) : Bytes :=
  utf8Encode (JsonText.stringify fmt (pushFields title sessionId))

structure SealedPushRecipient where
  deliveryId : JsString
  sealed : SealedPushV1

/-- `sealPushForClient`, with the Burrow's static if it has one; what throws is no envelope. -/
def sealPushForClient {Key : Type} (suite : SealSuite Key) (noiseStatic : Option Key)
    (random : Bytes) (clientStaticPublicKey : JsString) (plaintext : Bytes) : Option SealedPushV1 :=
  noiseStatic.bind fun privateKey =>
    (fromBase64Url clientStaticPublicKey).bind fun peer =>
      (sealPush suite random privateKey peer plaintext).toOption

/-- The recipients `sendPush` posts: the newest records that could be sealed to. -/
def sendPushRecipients (fmt : NumberFormat) (activeRecords : List BurrowAclRecord)
    (sealFor : JsString → Bytes → Option SealedPushV1) (sessionId title : JsString) :
    List SealedPushRecipient :=
  (activeRecords.drop (activeRecords.length - maxPushQueryDeliveryIds)).filterMap fun record =>
    (sealFor record.clientStaticPublicKey (pushPlaintext fmt title sessionId)).map fun sealed =>
      ⟨record.deliveryId, sealed⟩

/-! ### The plaintext -/

theorem pushFields_wellformed (fmt : NumberFormat) (title sessionId : JsString) :
    JsonText.Wellformed fmt (pushFields title sessionId) := by
  have hkeys : [js "title", js "body", js "tag"].Nodup := by decide
  refine .object hkeys fun f hf => ?_
  simp only [List.mem_cons, List.not_mem_nil, or_false] at hf
  rcases hf with rfl | rfl | rfl
  all_goals exact .string _

theorem stringify_pushFields (fmt : NumberFormat) (title sessionId : JsString) :
    JsonText.stringify fmt (pushFields title sessionId) =
      js "\x7b\"title\":" ++ (JsonText.quote (toPushText title) ++
        (js ",\"body\":\"Needs attention\",\"tag\":" ++
          (JsonText.quote (toPushTag sessionId) ++ js "\x7d"))) := by
  have hfront : js "\x7b\"title\":" = unit '\x7b' :: (JsonText.quote (js "title") ++ [unit ':']) := by
    decide
  have hmiddle : js ",\"body\":\"Needs attention\",\"tag\":" =
      unit ',' :: (JsonText.quote (js "body") ++ unit ':' :: (JsonText.quote pushBody ++
        unit ',' :: (JsonText.quote (js "tag") ++ [unit ':']))) := by
    decide
  have hback : js "\x7d" = [unit '\x7d'] := by decide
  rw [hfront, hmiddle, hback]
  simp [pushFields, JsonText.stringify, JsonText.stringifyFields]

/-- **The plaintext fits the seal**, whatever the title and the Session. -/
theorem length_pushPlaintext (fmt : NumberFormat) (title sessionId : JsString) :
    (pushPlaintext fmt title sessionId).length ≤ maxSealedPushPlaintextLength := by
  have hfront : ∀ c ∈ js "\x7b\"title\":", 0x20 ≤ c.toNat ∧ c.toNat < 0x80 :=
    List.all_iff_forall_prop.1 (by decide)
  have hmiddle : ∀ c ∈ js ",\"body\":\"Needs attention\",\"tag\":", 0x20 ≤ c.toNat ∧ c.toNat < 0x80 :=
    List.all_iff_forall_prop.1 (by decide)
  have hback : ∀ c ∈ js "\x7d", c.toNat < 0x80 :=
    List.all_iff_forall_prop.1 (by decide)
  have htitle := length_utf8Encode_quote (toPushText title)
  have htag := length_utf8Encode_quote (toPushTag sessionId)
  have htitleLimit : (JsString.codePoints (toPushText title)).length ≤ 100 :=
    length_boundedPushText title (by decide : _ ≤ 100)
  have htagLimit : (JsString.codePoints (toPushTag sessionId)).length ≤ 64 :=
    length_boundedPushText sessionId (by decide : _ ≤ 64)
  have hlengths : (js "\x7b\"title\":").length = 9 ∧
      (js ",\"body\":\"Needs attention\",\"tag\":").length = 32 ∧ (js "\x7d").length = 1 := by decide
  rw [pushPlaintext, stringify_pushFields,
    utf8Encode_append (JsonText.Clean.of_ascii hfront).wellFormed,
    utf8Encode_append (JsonText.clean_quote _).wellFormed,
    utf8Encode_append (JsonText.Clean.of_ascii hmiddle).wellFormed,
    utf8Encode_append (JsonText.clean_quote _).wellFormed]
  simp only [List.length_append, length_utf8Encode_ascii fun c hc => (hfront c hc).2,
    length_utf8Encode_ascii fun c hc => (hmiddle c hc).2, length_utf8Encode_ascii hback, hlengths,
    maxSealedPushPlaintextLength]
  omega

/-- What the reader of the plaintext parses: the three fields. -/
theorem parse_pushPlaintext (fmt : NumberFormat) (title sessionId : JsString) :
    (utf8Decode (pushPlaintext fmt title sessionId)).bind (JsonText.parse fmt) =
      some (pushFields title sessionId) := by
  have hwellformed := pushFields_wellformed fmt title sessionId
  rw [pushPlaintext, utf8Decode_utf8Encode (JsonText.clean_stringify fmt hwellformed).wellFormed,
    Option.bind_some, JsonText.parse_stringify fmt hwellformed]

theorem toPushText_idem (title : JsString) : toPushText (toPushText title) = toPushText title :=
  boundedPushText_idem title (by decide)

theorem toPushTag_idem (sessionId : JsString) :
    toPushTag (toPushTag sessionId) = toPushTag sessionId :=
  boundedPushText_idem sessionId (by decide)

/-! ### End to end -/

/-- Every recipient that is posted can be opened by the Client of its record. -/
theorem recipient_opens {Key : Type} {suite : SealSuite Key} {pub : Key → Bytes}
    (ideal : IdealSeal suite pub) {fmt : NumberFormat} {activeRecords : List BurrowAclRecord}
    {burrow : Key} {random : JsString → Bytes}
    (hrandom : ∀ key, (random key).length = pushSealSaltLength) {sessionId title : JsString}
    {recipient : SealedPushRecipient}
    (h : recipient ∈ sendPushRecipients fmt activeRecords
      (fun key => sealPushForClient suite (some burrow) (random key) key) sessionId title) :
    ∃ record ∈ activeRecords, recipient.deliveryId = record.deliveryId ∧
      ∀ client, record.clientStaticPublicKey = toBase64Url (pub client) →
        ∀ value, recipient.sealed.IsIn value →
          openPush suite client (pub burrow) value =
            .ok (some (pushPlaintext fmt title sessionId)) := by
  obtain ⟨record, hrecord, hsealed⟩ := List.mem_filterMap.1 h
  obtain ⟨sealed, hseal, rfl⟩ := Option.map_eq_some_iff.1 hsealed
  refine ⟨record, List.mem_of_mem_drop hrecord, rfl, fun client hclient value hvalue => ?_⟩
  have hlength := length_pushPlaintext fmt title sessionId
  let s : PushSealing Key :=
    ⟨burrow, client, random record.clientStaticPublicKey, pushPlaintext fmt title sessionId⟩
  have hok : sealPush suite (random record.clientStaticPublicKey) burrow (pub client)
      (pushPlaintext fmt title sessionId) = .ok (s.envelope suite pub) :=
    sealPush_ok ideal s hlength
  have hpeer : fromBase64Url record.clientStaticPublicKey = some (pub client) := by
    rw [hclient, fromBase64Url_toBase64Url]
  unfold sealPushForClient at hseal
  dsimp only at hseal
  rw [Option.bind_some, hpeer, Option.bind_some, hok] at hseal
  cases hseal
  exact openPush_envelope ideal s (hrandom _) hlength hvalue

/-- **A push is sealed to one Client and read by it alone.** The plaintext fits the seal and its
fields are bounded already; the envelope passes the guard and opens with the matching keys; and
opening never throws, and answers `null` to a malformed envelope and to every envelope and key
under which nothing was sealed. -/
theorem push_sealed {Key : Type} {suite : SealSuite Key} {pub : Key → Bytes}
    (ideal : IdealSeal suite pub) (fmt : NumberFormat) (title sessionId : JsString) :
    (pushPlaintext fmt title sessionId).length ≤ maxSealedPushPlaintextLength ∧
      (∃ fields parsedTitle parsedTag,
        (utf8Decode (pushPlaintext fmt title sessionId)).bind (JsonText.parse fmt) = some fields ∧
        fields.stringField (js "title") = some parsedTitle ∧
        fields.stringField (js "tag") = some parsedTag ∧
        toPushText parsedTitle = parsedTitle ∧ toPushTag parsedTag = parsedTag) ∧
      (∀ burrow client random, random.length = pushSealSaltLength →
        ∃ sealed, sealPush suite random burrow (pub client) (pushPlaintext fmt title sessionId) =
            .ok sealed ∧
          ∀ value, sealed.IsIn value → isSealedPushV1 value = true ∧
            openPush suite client (pub burrow) value =
              .ok (some (pushPlaintext fmt title sessionId))) ∧
      ∀ client burrow value,
        (∃ answer, openPush suite client burrow value = .ok answer) ∧
        (isSealedPushV1 value = false → openPush suite client burrow value = .ok none) ∧
        ∀ sealings, Security.Unforged suite pub sealings client burrow value →
          (∀ s ∈ sealings, (s.envelope suite pub).IsIn value → ¬s.Between pub client burrow) →
            openPush suite client burrow value = .ok none := by
  have hlength := length_pushPlaintext fmt title sessionId
  refine ⟨hlength, ⟨_, _, _, parse_pushPlaintext fmt title sessionId, rfl, rfl,
    toPushText_idem title, toPushTag_idem sessionId⟩, ?_, ?_⟩
  · intro burrow client random hrandom
    let s : PushSealing Key := ⟨burrow, client, random, pushPlaintext fmt title sessionId⟩
    exact ⟨s.envelope suite pub, sealPush_ok ideal s hlength, fun value hvalue =>
      ⟨isSealedPushV1_envelope ideal s hrandom hlength hvalue,
        openPush_envelope ideal s hrandom hlength hvalue⟩⟩
  · intro client burrow value
    refine ⟨openPush_ok client burrow value, openPush_malformed client burrow, ?_⟩
    intro sealings unforged hnone
    obtain ⟨answer, hanswer⟩ := @openPush_ok _ suite client burrow value
    cases answer with
    | none => exact hanswer
    | some plaintext =>
      obtain ⟨s, hs, hin, hbetween, -⟩ := openPush_only ideal unforged hanswer
      exact absurd hbetween (hnone s hs hin)

/-! ### A toy suite -/

namespace PushToy

/-- Two keys, the smaller first. -/
def secretOf (a b : UInt8) : Bytes :=
  if a.toNat ≤ b.toNat then a :: b :: List.replicate 30 1 else b :: a :: List.replicate 30 1

/-- Only a public key is agreed with. -/
def deriveBits (key : UInt8) (other : Bytes) : Option Bytes :=
  if other = Noise.Toy.publicKey (other.headD 0) then some (secretOf key (other.headD 0)) else none

def hkdf (shared salt info : Bytes) : Option Bytes := some (Noise.Toy.digest (shared ++ salt ++ info))

def plaintext : Bytes := pushPlaintext JsonText.naturals (js "build") (js "session-1")

/-- The one message that is sealed, from 3 to 4. -/
def sealing : PushSealing UInt8 := ⟨3, 4, List.replicate 32 7, plaintext⟩

def sealingKey : Bytes :=
  Noise.Toy.digest ((3 :: 4 :: List.replicate 30 1) ++ List.replicate 32 7 ++ pushSealInfo)

/-- Its AEAD marks the one message. -/
def suite : SealSuite UInt8 where
  toSuite :=
    { Noise.Toy.suiteOf fun key ad p => key == sealingKey && ad == [] && p == plaintext with
      deriveBits := deriveBits }
  hkdf := hkdf

theorem secretOf_comm (a b : UInt8) : secretOf a b = secretOf b a := by
  unfold secretOf
  split <;> split
  · have heq : a = b := UInt8.toNat.inj (by omega)
    rw [heq]
  · rfl
  · rfl
  · omega

/-- A secret tells its two keys. -/
theorem secretOf_inj {a b c d : UInt8} (h : secretOf c d = secretOf a b) :
    (c = a ∧ d = b) ∨ (c = b ∧ d = a) := by
  unfold secretOf at h
  split at h <;> split at h
  all_goals
    obtain ⟨hfirst, hrest⟩ := List.cons.inj h
    obtain ⟨hsecond, -⟩ := List.cons.inj hrest
  · exact .inl ⟨hfirst, hsecond⟩
  · exact .inr ⟨hfirst, hsecond⟩
  · exact .inr ⟨hsecond, hfirst⟩
  · exact .inl ⟨hsecond, hfirst⟩

theorem deriveBits_publicKey (a b : UInt8) :
    suite.deriveBits a (Noise.Toy.publicKey b) = some (secretOf a b) := if_pos rfl

theorem ideal : IdealSeal suite Noise.Toy.publicKey where
  dh :=
    { length := fun _ => rfl
      agree := by
        intro a b
        refine ⟨secretOf a b, deriveBits_publicKey a b, ?_, ?_, ?_⟩
        · rw [secretOf_comm]
          exact deriveBits_publicKey b a
        · unfold secretOf
          split <;> rfl
        · intro hzero
          have htail : (secretOf a b).drop 2 = List.replicate 30 1 := by
            unfold secretOf
            split <;> rfl
          rw [hzero] at htail
          exact absurd htail (by decide) }
  only := by
    intro a b c other h
    have hsecret : Noise.sharedSecret suite.toSuite Noise.Toy.publicKey a b = secretOf a b := by
      rw [Noise.sharedSecret, deriveBits_publicKey, Option.getD_some]
    rw [hsecret] at h
    obtain ⟨hother, heq⟩ := Option.ite_none_right_eq_some.1 h
    generalize other.headD 0 = d at hother heq
    rcases secretOf_inj (Option.some.inj heq) with ⟨rfl, rfl⟩ | ⟨rfl, rfl⟩
    · exact .inl ⟨rfl, hother⟩
    · exact .inr ⟨rfl, hother⟩
  hkdf := fun _ _ _ => ⟨_, rfl⟩
  opens := by
    intro key nonce ad p
    show (if _ then _ else _) = _
    simp only [suite, Noise.Toy.suiteOf, Noise.Toy.take_tagged, if_true]
  tag := by
    intro key nonce ad p
    show (p ++ Noise.Toy.tagOf _).length = _
    rw [List.length_append, Noise.Toy.tagOf, List.length_replicate]

/-- What opens carries the tag of its key and text. -/
theorem decrypt_some {key nonce ad ct p : Bytes} (h : suite.aead.decrypt key nonce ad ct = some p) :
    ct.take (ct.length - noiseTagLength) = p ∧
      p ++ Noise.Toy.tagOf (key == sealingKey && ad == [] && p == plaintext) = ct := by
  obtain ⟨hcipher, hp⟩ := Option.ite_none_right_eq_some.1 h
  cases hp
  exact ⟨rfl, hcipher⟩

/-- The ciphertext of the message with its first byte changed. -/
def alteredCt : Bytes := 0 :: (sealing.ct suite Noise.Toy.publicKey).tail

def altered : Json :=
  SealedPushV1.toJson ⟨toBase64Url sealing.salt, toBase64Url alteredCt⟩

theorem unforged : Security.Unforged suite Noise.Toy.publicKey [sealing] 4 (Noise.Toy.publicKey 3) altered where
  opensOnly := by
    intro ct key p hct hopen
    have htext : fromBase64Url (sealedText altered (js "ct")) = some alteredCt :=
      fromBase64Url_toBase64Url _
    rw [htext] at hct
    cases hct
    obtain ⟨hp, hcipher⟩ := decrypt_some hopen
    have hother : (p == plaintext) = false := by
      rw [← hp]
      decide +kernel
    rw [hother, Bool.and_false] at hcipher
    have hlast := congrArg List.getLast? hcipher
    rw [List.getLast?_append, (by decide : (Noise.Toy.tagOf false).getLast? = some 0),
      Option.some_or] at hlast
    exact absurd hlast (by decide +kernel)
  derivesOnly := by
    intro salt shared hsalt hshared s hs _
    obtain rfl := List.mem_singleton.1 hs
    have htext : fromBase64Url (sealedText altered (js "salt")) = some sealing.salt :=
      fromBase64Url_toBase64Url _
    rw [htext] at hsalt
    cases hsalt
    have hsecret : suite.deriveBits 4 (Noise.Toy.publicKey 3) =
        some (sealing.secret suite Noise.Toy.publicKey) := by decide
    rw [hsecret] at hshared
    exact ⟨Option.some.inj hshared, rfl⟩

/-- What 3 seals to 4, 4 opens; and not when the first byte is another. -/
theorem push_sealed_altered :
    (∃ sealed, sealPush suite sealing.salt 3 (Noise.Toy.publicKey 4) plaintext = .ok sealed ∧
        openPush suite 4 (Noise.Toy.publicKey 3) sealed.toJson = .ok (some plaintext)) ∧
      openPush suite 4 (Noise.Toy.publicKey 3) altered = .ok none := by
  obtain ⟨-, -, hopens, hrest⟩ :=
    push_sealed ideal JsonText.naturals (js "build") (js "session-1")
  obtain ⟨sealed, hseal, hopen⟩ := hopens 3 4 sealing.salt rfl
  refine ⟨⟨sealed, hseal, (hopen _ sealed.isIn_toJson).2⟩, ?_⟩
  refine (hrest 4 (Noise.Toy.publicKey 3) altered).2.2 [sealing] unforged fun s hs hin => ?_
  obtain rfl := List.mem_singleton.1 hs
  exact absurd hin.ct (by decide +kernel)

end PushToy

end Dormouse.Burrow

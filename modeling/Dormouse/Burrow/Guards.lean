import Dormouse.Burrow.Runtime
import Dormouse.Security.Base64Url

/-!
# Dormouse.Burrow.Guards

**What the shape guards let in**: they look at the alphabet and the length of a text, so a text
whose last character carries bits past the last byte passes, and no byte string is spelled that way.
-/

namespace Dormouse.Burrow

open Noise (Bytes noiseKeyLength)
open Security

def clientStaticPublicKeyLength : Nat := base64UrlLength noiseKeyLength

def deliveryIdLength : Nat := base64UrlLength 32

/-- Whether a value is base64url of a raw 32-byte X25519 public key. -/
def isNoisePublicKey (value : JsString) : Bool :=
  isExactBase64Url value (base64UrlLength noiseKeyLength)

/-- Structural validation of a record off disk. -/
def isBurrowAclRecord (record : Json) : Bool :=
  (record.stringField (js "burrowId")).isSome &&
  (record.stringField (js "accountId")).isSome &&
  (record.stringField (js "passkeyCredentialId")).isSome &&
  (record.stringField (js "passkeyPublicKeyHash")).isSome &&
  (record.stringField (js "clientStaticPublicKey")).any
    (isExactBase64Url · clientStaticPublicKeyLength) &&
  (record.stringField (js "deliveryId")).any (isExactBase64Url · deliveryIdLength) &&
  (record.numberField (js "approvedAt")).isSome &&
  (record.stringField (js "approvedBy")).isSome &&
  (record.stringField (js "label")).isSome &&
  match record.field (js "revokedAt") with
  | some .null => true
  | some (.number _) => true
  | _ => false

/-- Some `n` bytes are spelled so. -/
def Spells (n : Nat) (text : JsString) : Prop :=
  ∃ bytes : Bytes, bytes.length = n ∧ toBase64Url bytes = text

/-- The text is not empty; and if it has the shape of `n` bytes, then no bit is left over. -/
def Clean (n : Nat) (text : JsString) : Prop :=
  (n = 0 → text ≠ []) ∧
    (text.length = base64UrlLength n → text.all isBase64UrlChar = true → unusedBits text = 0)

theorem isExactBase64Url_shape {text : JsString} {n : Nat} :
    isExactBase64Url text (base64UrlLength n) = true ↔
      text ≠ [] ∧ text.length = base64UrlLength n ∧ text.all isBase64UrlChar = true := by
  simp only [isExactBase64Url, isBoundedBase64Url, Bool.and_eq_true, decide_eq_true_eq, beq_iff_eq,
    List.length_pos_iff]
  constructor
  · exact fun h => ⟨h.1.1.1, h.2, h.1.2⟩
  · exact fun h => ⟨⟨⟨h.1, h.2.1.le⟩, h.2.2⟩, h.2.1⟩

theorem length_of_spells {n : Nat} {text : JsString} (h : Spells n text) :
    text.length = base64UrlLength n ∧ text.all isBase64UrlChar = true ∧ unusedBits text = 0 := by
  obtain ⟨bytes, rfl, rfl⟩ := h
  have hlength := length_toBase64Url bytes
  have hchars := toBase64Url_chars bytes
  exact ⟨hlength, hchars, (spells_iff hlength hchars).1 ⟨bytes, rfl, rfl⟩⟩

theorem guard_iff_clean (n : Nat) (text : JsString) :
    (isExactBase64Url text (base64UrlLength n) = true ↔ Spells n text) ↔ Clean n text := by
  rw [isExactBase64Url_shape]
  constructor
  · intro h
    refine ⟨?_, fun hlength hchars => ?_⟩
    · rintro rfl rfl
      exact (h.2 ⟨[], rfl, rfl⟩).1 rfl
    · by_cases hnil : text = []
      · rw [hnil]
        rfl
      · exact (length_of_spells (h.1 ⟨hnil, hlength, hchars⟩)).2.2
  · rintro ⟨hempty, hclean⟩
    constructor
    · rintro ⟨-, hlength, hchars⟩
      exact (spells_iff hlength hchars).2 (hclean hlength hchars)
    · intro h
      obtain ⟨hlength, hchars, -⟩ := length_of_spells h
      refine ⟨fun hnil => ?_, hlength, hchars⟩
      obtain ⟨bytes, rfl, rfl⟩ := h
      cases bytes with
      | nil => exact hempty rfl hnil
      | cons b bytes =>
        have hpos : 0 < base64UrlLength (b :: bytes).length := by
          unfold base64UrlLength
          rw [List.length_cons]
          split <;> omega
        rw [← hlength, hnil] at hpos
        exact absurd hpos (by decide)

/-- **The guards and the decoder agree on the clean texts, and on no others.** Of what a guard
accepts, the clean texts decode, each to bytes of its own. -/
theorem guards_iff_clean (text : JsString) :
    (∀ n, (isExactBase64Url text (base64UrlLength n) = true ↔ Spells n text) ↔ Clean n text) ∧
    ((isNoisePublicKey text = true ↔ Spells 32 text) ↔ Clean 32 text) ∧
    ((isE2eId text = true ↔ Spells 16 text) ↔ Clean 16 text) ∧
    (∀ record key, isBurrowAclRecord record = true →
      key ∈ [js "clientStaticPublicKey", js "deliveryId"] → record.stringField key = some text →
        (Spells 32 text ↔ Clean 32 text)) ∧
    ∀ n, isExactBase64Url text (base64UrlLength n) = true →
      ((fromBase64Url text).isSome = true ↔ Clean n text) ∧
      ∀ other bytes, isExactBase64Url other (base64UrlLength n) = true →
        fromBase64Url text = some bytes → fromBase64Url other = some bytes → text = other := by
  refine ⟨fun n => guard_iff_clean n text, guard_iff_clean 32 text, guard_iff_clean 16 text,
    fun record key hrecord hkey htext => ?_, fun n hguard => ⟨?_, ?_⟩⟩
  · have hguard : isExactBase64Url text (base64UrlLength 32) = true := by
      simp only [isBurrowAclRecord, Bool.and_eq_true] at hrecord
      simp only [List.mem_cons, List.not_mem_nil, or_false] at hkey
      rcases hkey with rfl | rfl
      · have hany := hrecord.1.1.1.1.1.2
        rwa [htext, Option.any_some] at hany
      · have hany := hrecord.1.1.1.1.2
        rwa [htext, Option.any_some] at hany
    rw [← guard_iff_clean, hguard]
    exact (iff_true_left rfl).symm
  · obtain ⟨hne, hlength, hchars⟩ := isExactBase64Url_shape.1 hguard
    have hmod : text.length % 4 ≠ 1 := by
      rw [hlength, base64UrlLength]
      split <;> omega
    rw [fromBase64Url_isSome hchars hmod]
    exact ⟨fun h => ⟨fun _ => hne, fun _ _ => h⟩, fun h => h.2 hlength hchars⟩
  · intro other bytes hother h h'
    have hchars := (isExactBase64Url_shape.1 hguard).2.2
    have hchars' := (isExactBase64Url_shape.1 hother).2.2
    rw [← toBase64Url_of_fromBase64Url hchars h, toBase64Url_of_fromBase64Url hchars' h']

/-- A key that is accepted, and that no decoder reads. -/
theorem guard_accepts_undecodable :
    isNoisePublicKey (List.replicate 42 (unit 'A') ++ js "B") = true ∧
      fromBase64Url (List.replicate 42 (unit 'A') ++ js "B") = none ∧
      ¬ ∀ text n, isExactBase64Url text (base64UrlLength n) = true ↔ Spells n text := by
  refine ⟨by decide, by decide, fun h => ?_⟩
  have hclean := (guard_iff_clean 32 _).1 (h (List.replicate 42 (unit 'A') ++ js "B") 32)
  exact absurd (hclean.2 (by decide) (by decide)) (by decide)

end Dormouse.Burrow

import Mathlib.Data.Option.Basic
import Mathlib.Data.Rat.Lemmas
import Dormouse.Lib.Decimal
import Dormouse.Lib.Json
import Dormouse.Burrow.Invitation

/-!
# Dormouse.Burrow.InvitationLink

The **pairing link** (`remote-lib-common/src/security/pairing-invitation.ts`): the URL a
Burrow renders as its QR, and the one parser a scanned code crosses.

`new URL` and the X25519 import are parameters. The round trip rests on one equivalence,
`readFragment_eq_some`: a fragment reads as an invitation exactly when it is its fragment.
-/

namespace Dormouse.Burrow

open Noise (Bytes noiseKeyLength)
open Security (base64UrlLength fromBase64Url isExactBase64Url isBoundedBase64Url isBase64UrlChar)

/-! ### The grammar -/

/-- The one hash prefix a pairing URL may carry. -/
def pairingHashPrefix : JsString := js "#pair?"

def fieldSeparator : UInt16 := unit '.'

def routingIdLength : Nat := base64UrlLength 16

def secretLength : Nat := base64UrlLength 32

/-- The hosts that plain HTTP is accepted on. -/
def loopbackHosts : List JsString := [js "localhost", js "127.0.0.1", js "[::1]"]

def fragmentFieldCount : Nat := 6

def pairingFragmentLength : Nat :=
  pairingInvitationVersion.length + routingIdLength * 2 + expiryDigits + secretLength * 2 +
    (fragmentFieldCount - 1)

def pairingQrUrlMaxLength : Nat := 256

/-- `[version, burrowId, ...rest].join('.')` -/
def pairingFragment (invitation : PairingInvitation) : Option JsString :=
  match pairingInvitationFields invitation with
  | some (version :: rest) =>
    some (JsString.join [fieldSeparator] (version :: invitation.burrowId :: rest))
  | _ => none

/-- The URL a Burrow renders as its QR; one that is too long throws. -/
def formatPairingInvitationUrl (origin : JsString) (invitation : PairingInvitation) :
    Option JsString :=
  match pairingFragment invitation with
  | none => none
  | some fragment =>
    let url := origin ++ js "/" ++ pairingHashPrefix ++ fragment
    if pairingQrUrlMaxLength < url.length then none else some url

/-! ### The parser -/

/-- What `new URL` makes of a text, as far as it is read here. -/
structure Url where
  protocol : JsString
  username : JsString
  password : JsString
  hostname : JsString
  pathname : JsString
  search : JsString
  origin : JsString
  hash : JsString

/-- HTTPS, or plain HTTP on a loopback host. -/
def Url.isServed (url : Url) : Bool :=
  url.protocol == js "https:" ||
    url.protocol == js "http:" && loopbackHosts.contains url.hostname

/-- `/^[0-9]{10}$/` -/
def isExpiryText (text : JsString) : Bool := text.length == expiryDigits && text.all JsString.isDigit

section Parser

variable (parseUrl : JsString → Option Url) (importKey : Bytes → Bool)

/-- The checks on the fragment, field by field. -/
def readFragment (fragment : JsString) (now : ℚ) : Option PairingInvitation :=
  if fragment.length ≠ pairingFragmentLength then none
  else
    match fragment.splitOn fieldSeparator with
    | [version, burrowId, inviteId, expiryText, setupToken, ephPubBase64Url] =>
      if version ≠ pairingInvitationVersion then none
      else if !isExactBase64Url burrowId routingIdLength ||
          !isExactBase64Url inviteId routingIdLength then none
      else if !isExactBase64Url setupToken secretLength ||
          !isExactBase64Url ephPubBase64Url secretLength then none
      else if !isExpiryText expiryText then none
      else
        let expiry : Int := JsString.decimalValue expiryText
        if maxUint32 < expiry then none
        else if (expiry * 1000 : ℚ) < now then none
        else
          match fromBase64Url ephPubBase64Url with
          | none => none
          | some ephPub =>
            if ephPub.length ≠ noiseKeyLength then none
            else if !importKey ephPub then none
            else some ⟨burrowId, inviteId, expiry, setupToken, ephPub, ephPubBase64Url⟩
    | _ => none

/-- The boundary a scanned, pasted, or camera-supplied pairing code crosses. -/
def parsePairingInvitationUrl (text : Json) (appOrigin : JsString) (now : ℚ) :
    Option PairingInvitation :=
  match text with
  | .string text =>
    if pairingQrUrlMaxLength < text.length then none
    else
      match parseUrl text with
      | none => none
      | some url =>
        if !url.isServed then none
        else if url.username ≠ [] ∨ url.password ≠ [] then none
        else if url.pathname ≠ js "/" ∨ url.search ≠ [] then none
        else if url.origin ≠ appOrigin then none
        else if !pairingHashPrefix.isPrefixOf url.hash then none
        else readFragment importKey (url.hash.drop pairingHashPrefix.length) now
  | _ => none

/-- Whether a code the parser refused is one it would have taken before its expiry. -/
def pairingInvitationExpired (text : Json) (appOrigin : JsString) (now : ℚ) : Bool :=
  match parsePairingInvitationUrl parseUrl importKey text appOrigin 0 with
  | none => false
  | some invitation => decide ((invitation.expiry * 1000 : ℚ) < now)

end Parser

/-! ### Well-formed invitations -/

/-- An invitation whose every field is as its type says. -/
structure PairingInvitation.WellFormed (invitation : PairingInvitation) : Prop where
  burrowId : isExactBase64Url invitation.burrowId routingIdLength = true
  inviteId : isExactBase64Url invitation.inviteId routingIdLength = true
  expiry : 0 ≤ invitation.expiry ∧ invitation.expiry ≤ maxUint32
  setupToken : isExactBase64Url invitation.setupToken secretLength = true
  spelled : isExactBase64Url invitation.ephPubBase64Url secretLength = true
  decoded : fromBase64Url invitation.ephPubBase64Url = some invitation.ephPub
  ephPub : invitation.ephPub.length = noiseKeyLength

/-- The code has not run out. -/
def PairingInvitation.Unexpired (invitation : PairingInvitation) (now : ℚ) : Prop :=
  now ≤ invitation.expiry * 1000

theorem isExactBase64Url_iff {value : JsString} {length : Nat} (hlength : 0 < length) :
    isExactBase64Url value length = true ↔
      value.length = length ∧ ∀ c ∈ value, isBase64UrlChar c = true := by
  unfold isExactBase64Url isBoundedBase64Url
  rw [Bool.and_eq_true, Bool.and_eq_true, Bool.and_eq_true, decide_eq_true_eq, decide_eq_true_eq,
    beq_iff_eq, List.all_eq_true]
  constructor
  · rintro ⟨⟨-, hchars⟩, heq⟩
    exact ⟨heq, hchars⟩
  · rintro ⟨rfl, hchars⟩
    exact ⟨⟨⟨hlength, Nat.le_refl _⟩, hchars⟩, rfl⟩

/-! ### Expiries -/

theorem formatInvitationExpiry_eq {expiry : Int} (h : 0 ≤ expiry ∧ expiry ≤ maxUint32) :
    ∃ text, formatInvitationExpiry expiry = some text ∧ isExpiryText text = true ∧
      (JsString.decimalValue text : Int) = expiry := by
  obtain ⟨n, rfl⟩ := Int.eq_ofNat_of_zero_le h.1
  have hn : n ≤ 0xffffffff := by
    have := h.2
    unfold maxUint32 at this
    omega
  have hlength : (JsString.ofInt n).length ≤ expiryDigits :=
    (JsString.length_ofInt_le (by decide)).2 (Nat.lt_of_le_of_lt hn (by decide))
  refine ⟨_, if_neg ?_, ?_, ?_⟩
  · rintro (hneg | hbig)
    · omega
    · omega
  · unfold isExpiryText
    rw [Bool.and_eq_true, beq_iff_eq, List.length_append, List.length_replicate, List.all_append,
      Bool.and_eq_true]
    refine ⟨by omega, ?_, JsString.all_isDigit_ofInt n⟩
    rw [List.all_eq_true]
    intro c hc
    rw [List.eq_of_mem_replicate hc]
    decide
  · rw [JsString.decimalValue_padded]

/-- An expiry has one spelling. -/
theorem formatInvitationExpiry_decimalValue {text : JsString} (htext : isExpiryText text = true)
    (hmax : (JsString.decimalValue text : Int) ≤ maxUint32) :
    formatInvitationExpiry (JsString.decimalValue text) = some text := by
  obtain ⟨text', hformat, htext', hvalue⟩ := formatInvitationExpiry_eq ⟨Int.natCast_nonneg _, hmax⟩
  unfold isExpiryText at htext htext'
  rw [Bool.and_eq_true, beq_iff_eq] at htext htext'
  rw [hformat, JsString.decimalValue_inj (htext'.1.trans htext.1.symm) htext'.2 htext.2
    (Int.natCast_inj.1 hvalue)]

/-! ### Fragments -/

theorem separator_not_mem {field : JsString} {length : Nat} (hlength : 0 < length)
    (h : isExactBase64Url field length = true) : fieldSeparator ∉ field := by
  intro hmem
  exact absurd (((isExactBase64Url_iff hlength).1 h).2 _ hmem) (by decide)

theorem separator_not_mem_expiry {text : JsString} (h : isExpiryText text = true) :
    fieldSeparator ∉ text := by
  intro hmem
  unfold isExpiryText at h
  rw [Bool.and_eq_true, List.all_eq_true] at h
  exact absurd (h.2 _ hmem) (by decide)

theorem length_isExpiryText {text : JsString} (h : isExpiryText text = true) :
    text.length = expiryDigits := by
  unfold isExpiryText at h
  rw [Bool.and_eq_true, beq_iff_eq] at h
  exact h.1

/-- A well-formed invitation's fragment, as its six fields. -/
theorem PairingInvitation.WellFormed.fragment {i : PairingInvitation} (wf : i.WellFormed) :
    ∃ expiryText fragment, isExpiryText expiryText = true ∧
      (JsString.decimalValue expiryText : Int) = i.expiry ∧ pairingFragment i = some fragment ∧
      fragment.length = pairingFragmentLength ∧
      fragment.splitOn fieldSeparator = [pairingInvitationVersion, i.burrowId, i.inviteId,
        expiryText, i.setupToken, i.ephPubBase64Url] := by
  obtain ⟨expiryText, hformat, htext, hvalue⟩ := formatInvitationExpiry_eq wf.expiry
  refine ⟨expiryText, JsString.join [fieldSeparator] [pairingInvitationVersion, i.burrowId,
    i.inviteId, expiryText, i.setupToken, i.ephPubBase64Url], htext, hvalue, ?_, ?_, ?_⟩
  · unfold pairingFragment pairingInvitationFields
    rw [hformat]
    rfl
  · have hburrow := ((isExactBase64Url_iff (by decide)).1 wf.burrowId).1
    have hinvite := ((isExactBase64Url_iff (by decide)).1 wf.inviteId).1
    have htoken := ((isExactBase64Url_iff (by decide)).1 wf.setupToken).1
    have hkey := ((isExactBase64Url_iff (by decide)).1 wf.spelled).1
    simp only [JsString.join, List.length_append, List.length_singleton, hburrow, hinvite, htoken,
      hkey, length_isExpiryText htext]
    rfl
  · rw [JsString.join_eq_intercalate]
    refine List.splitOn_intercalate _ ?_ (List.cons_ne_nil _ _)
    simp only [List.forall_mem_cons]
    refine ⟨by decide, separator_not_mem (by decide) wf.burrowId,
      separator_not_mem (by decide) wf.inviteId, separator_not_mem_expiry htext,
      separator_not_mem (by decide) wf.setupToken, separator_not_mem (by decide) wf.spelled, ?_⟩
    intro _ hnil
    cases hnil

/-- **The round trip**: a fragment reads as an invitation exactly when it is its fragment. -/
theorem readFragment_eq_some {importKey : Bytes → Bool} {fragment : JsString} {now : ℚ}
    {i : PairingInvitation} :
    readFragment importKey fragment now = some i ↔
      i.WellFormed ∧ importKey i.ephPub = true ∧ i.Unexpired now ∧
        pairingFragment i = some fragment := by
  constructor
  · intro hread
    unfold readFragment at hread
    split at hread
    · cases hread
    split at hread
    · next version burrowId inviteId expiryText setupToken ephPubBase64Url hsplit =>
        simp only [Option.ite_none_left_eq_some, Bool.or_eq_true, Bool.not_eq_true', not_or,
          Bool.not_eq_false, ne_eq, not_not] at hread
        obtain ⟨rfl, ⟨hburrow, hinvite⟩, ⟨htoken, hkey⟩, htext, hmax, hnow, hread⟩ := hread
        split at hread
        · cases hread
        next ephPub hdecoded =>
        simp only [Option.ite_none_left_eq_some, not_not, Bool.not_eq_false,
          Option.some.injEq] at hread
        obtain ⟨hlength, himport, rfl⟩ := hread
        refine ⟨⟨hburrow, hinvite, ⟨Int.natCast_nonneg _, not_lt.1 hmax⟩, htoken, hkey, hdecoded,
          hlength⟩, himport, Rat.not_lt.1 hnow, ?_⟩
        unfold pairingFragment pairingInvitationFields
        rw [formatInvitationExpiry_decimalValue htext (not_lt.1 hmax)]
        dsimp only [Option.map_some]
        rw [JsString.join_eq_intercalate, ← hsplit, List.intercalate_splitOn]
    · cases hread
  · rintro ⟨wf, himport, hnow, hfragment⟩
    obtain ⟨expiryText, fragment', htext, hvalue, hformat, hlength, hsplit⟩ := wf.fragment
    rw [hformat] at hfragment
    cases hfragment
    unfold readFragment
    rw [if_neg (not_not.2 hlength), hsplit]
    simp only [Option.ite_none_left_eq_some, Bool.or_eq_true, Bool.not_eq_true', not_or,
      Bool.not_eq_false, ne_eq, not_not, wf.burrowId, wf.inviteId, wf.setupToken, wf.spelled,
      htext, hvalue, wf.decoded, wf.ephPub, himport]
    exact ⟨trivial, ⟨trivial, trivial⟩, ⟨trivial, trivial⟩, trivial, not_lt.2 wf.expiry.2,
      Rat.not_lt.2 hnow, trivial, trivial, trivial⟩

/-! ### Links -/

/-- A character that `new URL` leaves in a fragment as it is. -/
def isFragmentChar (c : UInt16) : Bool := isBase64UrlChar c || c == unit '.' || c == unit '?'

/-- **`new URL` reads an origin back**, before any fragment of plain characters. -/
def ReadsOrigins (parseUrl : JsString → Option Url) : Prop :=
  ∀ text url fragment, parseUrl text = some url →
    url.protocol = js "https:" ∨ url.protocol = js "http:" →
    fragment ≠ [] → fragment.all isFragmentChar = true →
    parseUrl (url.origin ++ js "/#" ++ fragment) = some { url with
      username := []
      password := []
      pathname := js "/"
      search := []
      hash := js "#" ++ fragment }

/-- An origin that Pocket may be served from. -/
def IsServedOrigin (parseUrl : JsString → Option Url) (origin : JsString) : Prop :=
  ∃ text url, parseUrl text = some url ∧ url.isServed = true ∧ url.origin = origin

/-- The longest origin a link has room for. -/
def maxOriginLength : Nat :=
  pairingQrUrlMaxLength - (1 + pairingHashPrefix.length + pairingFragmentLength)

theorem Url.isServed_protocol {url : Url} (h : url.isServed = true) :
    url.protocol = js "https:" ∨ url.protocol = js "http:" := by
  unfold Url.isServed at h
  rw [Bool.or_eq_true, Bool.and_eq_true, beq_iff_eq, beq_iff_eq] at h
  exact h.imp_right And.left

theorem all_isFragmentChar_join {parts : List JsString}
    (h : ∀ part ∈ parts, part.all isFragmentChar = true) :
    (JsString.join [fieldSeparator] parts).all isFragmentChar = true := by
  fun_induction JsString.join [fieldSeparator] parts with
  | case1 => rfl
  | case2 part => exact h part List.mem_cons_self
  | case3 part rest hne ih =>
    rw [List.all_append, List.all_append, h part List.mem_cons_self,
      ih fun part hpart => h part (List.mem_cons_of_mem _ hpart)]
    rfl

theorem all_isFragmentChar_of_exact {field : JsString} {length : Nat} (hlength : 0 < length)
    (h : isExactBase64Url field length = true) : field.all isFragmentChar = true := by
  rw [List.all_eq_true]
  intro c hc
  unfold isFragmentChar
  rw [((isExactBase64Url_iff hlength).1 h).2 c hc]
  rfl

theorem PairingInvitation.WellFormed.all_isFragmentChar {i : PairingInvitation} (wf : i.WellFormed)
    {fragment : JsString} (hfragment : pairingFragment i = some fragment) :
    fragment.all isFragmentChar = true := by
  obtain ⟨expiryText, hformat, htext, -⟩ := formatInvitationExpiry_eq wf.expiry
  unfold pairingFragment pairingInvitationFields at hfragment
  rw [hformat] at hfragment
  cases hfragment
  refine all_isFragmentChar_join ?_
  simp only [List.forall_mem_cons]
  refine ⟨by decide, all_isFragmentChar_of_exact (by decide) wf.burrowId,
    all_isFragmentChar_of_exact (by decide) wf.inviteId, ?_,
    all_isFragmentChar_of_exact (by decide) wf.setupToken,
    all_isFragmentChar_of_exact (by decide) wf.spelled, ?_⟩
  · unfold isExpiryText at htext
    rw [Bool.and_eq_true, List.all_eq_true] at htext
    rw [List.all_eq_true]
    intro c hc
    unfold isFragmentChar isBase64UrlChar
    rw [htext.2 c hc, Bool.or_true]
    rfl
  · intro _ hnil
    cases hnil

/-- A link fits exactly when its origin does. -/
theorem formatPairingInvitationUrl_eq {i : PairingInvitation} (wf : i.WellFormed)
    (origin : JsString) :
    ∃ fragment, pairingFragment i = some fragment ∧
      formatPairingInvitationUrl origin i =
        (if origin.length ≤ maxOriginLength then
          some (origin ++ js "/" ++ pairingHashPrefix ++ fragment)
        else none) ∧
      (origin.length ≤ maxOriginLength →
        (origin ++ js "/" ++ pairingHashPrefix ++ fragment).length ≤ pairingQrUrlMaxLength) := by
  obtain ⟨_, fragment, -, -, hfragment, hlength, -⟩ := wf.fragment
  have hurl : (origin ++ js "/" ++ pairingHashPrefix ++ fragment).length =
      origin.length + (1 + pairingHashPrefix.length + pairingFragmentLength) := by
    rw [List.length_append, List.length_append, List.length_append, hlength]
    have hslash : (js "/").length = 1 := by decide
    omega
  have hbound : maxOriginLength +
      (1 + pairingHashPrefix.length + pairingFragmentLength) = pairingQrUrlMaxLength := by decide
  refine ⟨fragment, hfragment, ?_, by omega⟩
  unfold formatPairingInvitationUrl
  rw [hfragment]
  dsimp only
  by_cases hfits : origin.length ≤ maxOriginLength
  · rw [if_pos hfits, if_neg]
    omega
  · rw [if_neg hfits, if_pos]
    omega

section Links

variable {parseUrl : JsString → Option Url} {importKey : Bytes → Bool}

theorem parsePairingInvitationUrl_eq_some {text : Json} {origin : JsString} {now : ℚ}
    {i : PairingInvitation} :
    parsePairingInvitationUrl parseUrl importKey text origin now = some i ↔
      ∃ link url fragment, text = .string link ∧ link.length ≤ pairingQrUrlMaxLength ∧
        parseUrl link = some url ∧ url.isServed = true ∧ url.username = [] ∧ url.password = [] ∧
        url.pathname = js "/" ∧ url.search = [] ∧ url.origin = origin ∧
        url.hash = pairingHashPrefix ++ fragment ∧
        readFragment importKey fragment now = some i := by
  constructor
  · intro hparse
    unfold parsePairingInvitationUrl at hparse
    split at hparse
    · next link =>
        rw [Option.ite_none_left_eq_some] at hparse
        obtain ⟨hlength, hparse⟩ := hparse
        split at hparse
        · cases hparse
        next url hurl =>
        simp only [Option.ite_none_left_eq_some, Bool.not_eq_true', Bool.not_eq_false, ne_eq,
          not_or, not_not] at hparse
        obtain ⟨hserved, ⟨huser, hpassword⟩, ⟨hpath, hsearch⟩, horigin, hstarts, hread⟩ := hparse
        obtain ⟨fragment, hhash⟩ := List.isPrefixOf_iff_prefix.1 hstarts
        rw [← hhash, List.drop_left] at hread
        exact ⟨link, url, fragment, rfl, Nat.le_of_not_lt hlength, hurl, hserved, huser, hpassword,
          hpath, hsearch, horigin, hhash.symm, hread⟩
    · cases hparse
  · rintro ⟨link, url, fragment, rfl, hlength, hurl, hserved, huser, hpassword, hpath, hsearch,
      rfl, hhash, hread⟩
    have hstarts : pairingHashPrefix.isPrefixOf url.hash = true := by
      rw [hhash]
      exact List.isPrefixOf_iff_prefix.2 (List.prefix_append _ _)
    unfold parsePairingInvitationUrl
    dsimp only
    rw [if_neg (Nat.not_lt.2 hlength), hurl]
    dsimp only
    rw [hserved, huser, hpassword, hpath, hsearch, hstarts, hhash, List.drop_left, hread]
    simp only [Bool.not_true, Bool.false_eq_true, ne_eq, not_true_eq_false, or_self, if_false]

/-- A code read at one time is read at any other before its expiry. -/
theorem parse_unexpired {text : Json} {origin : JsString} {now : ℚ} {i : PairingInvitation}
    (hparse : parsePairingInvitationUrl parseUrl importKey text origin now = some i)
    {later : ℚ} (hlater : i.Unexpired later) :
    parsePairingInvitationUrl parseUrl importKey text origin later = some i := by
  obtain ⟨link, url, fragment, htext, hlength, hurl, hserved, huser, hpassword, hpath, hsearch,
    horigin, hhash, hread⟩ := parsePairingInvitationUrl_eq_some.1 hparse
  obtain ⟨wf, himport, -, hfragment⟩ := readFragment_eq_some.1 hread
  exact parsePairingInvitationUrl_eq_some.2 ⟨link, url, fragment, htext, hlength, hurl, hserved,
    huser, hpassword, hpath, hsearch, horigin, hhash,
    readFragment_eq_some.2 ⟨wf, himport, hlater, hfragment⟩⟩

theorem PairingInvitation.WellFormed.unexpired_zero {i : PairingInvitation} (wf : i.WellFormed) :
    i.Unexpired 0 := by
  have h : (0 : ℚ) ≤ i.expiry := by exact_mod_cast wf.expiry.1
  exact Rat.mul_nonneg h (by decide)

/-- A pairing link carries exactly its invitation: over every origin Pocket is served from, what
was formatted parses back; the fragment determines the invitation; nothing else than a
well-formed invitation is ever parsed; both sides come to one prologue; and only a code that the
parser would have taken earlier is called expired. -/
theorem pairing_link_round_trip (origins : ReadsOrigins parseUrl)
    (imports : ∀ key, key.length = noiseKeyLength → importKey key = true) :
    (∀ origin i now, IsServedOrigin parseUrl origin → origin.length ≤ maxOriginLength →
      i.WellFormed → i.Unexpired now →
      ∃ link parsed prologue, formatPairingInvitationUrl origin i = some link ∧
        parsePairingInvitationUrl parseUrl importKey (.string link) origin now = some parsed ∧
        parsed = i ∧ pairingInvitationPrologue i = some prologue ∧
        pairingInvitationPrologue parsed = some prologue) ∧
      (∀ i j, i.WellFormed → j.WellFormed → pairingFragment i = pairingFragment j → i = j) ∧
      (∀ text origin now i,
        parsePairingInvitationUrl parseUrl importKey text origin now = some i →
          i.WellFormed ∧ i.Unexpired now) ∧
      ∀ text origin now,
        pairingInvitationExpired parseUrl importKey text origin now = true ↔
          ∃ i, ¬ i.Unexpired now ∧ ∀ earlier, i.Unexpired earlier →
            parsePairingInvitationUrl parseUrl importKey text origin earlier = some i := by
  refine ⟨?_, ?_, ?_, ?_⟩
  · intro origin i now hserved hfits wf hnow
    obtain ⟨text, url, hurl, hisServed, rfl⟩ := hserved
    obtain ⟨fragment, hfragment, hformat, hlength⟩ := formatPairingInvitationUrl_eq wf url.origin
    rw [if_pos hfits] at hformat
    have hlink : url.origin ++ js "/" ++ pairingHashPrefix ++ fragment =
        url.origin ++ js "/#" ++ (js "pair?" ++ fragment) := by
      rw [List.append_assoc, List.append_assoc, List.append_assoc]
      rfl
    have hread := origins text url (js "pair?" ++ fragment) hurl (Url.isServed_protocol hisServed)
      (List.cons_ne_nil _ _) (by
        rw [List.all_append, wf.all_isFragmentChar hfragment]
        decide)
    rw [← hlink] at hread
    obtain ⟨expiryText, hexpiry, -⟩ := formatInvitationExpiry_eq wf.expiry
    have hprologue : ∃ prologue, pairingInvitationPrologue i = some prologue := by
      unfold pairingInvitationPrologue pairingInvitationFields
      rw [hexpiry]
      exact ⟨_, rfl⟩
    obtain ⟨prologue, hprologue⟩ := hprologue
    exact ⟨_, i, prologue, hformat, parsePairingInvitationUrl_eq_some.2 ⟨_, _, fragment, rfl,
      hlength hfits, hread, hisServed, rfl, rfl, rfl, rfl, rfl, rfl,
      readFragment_eq_some.2 ⟨wf, imports _ wf.ephPub, hnow, hfragment⟩⟩, rfl, hprologue,
      hprologue⟩
  · intro i j wfi wfj heq
    obtain ⟨_, fragment, -, -, hi, -⟩ := wfi.fragment
    have hreadi := readFragment_eq_some.2 ⟨wfi, imports _ wfi.ephPub, wfi.unexpired_zero, hi⟩
    have hreadj := readFragment_eq_some.2
      ⟨wfj, imports _ wfj.ephPub, wfj.unexpired_zero, heq.symm.trans hi⟩
    exact Option.some.inj (hreadi.symm.trans hreadj)
  · intro text origin now i hparse
    obtain ⟨_, _, _, -, -, -, -, -, -, -, -, -, -, hread⟩ :=
      parsePairingInvitationUrl_eq_some.1 hparse
    obtain ⟨wf, -, hnow, -⟩ := readFragment_eq_some.1 hread
    exact ⟨wf, hnow⟩
  · intro text origin now
    unfold pairingInvitationExpired
    constructor
    · intro hexpired
      split at hexpired
      · cases hexpired
      next i hparse =>
      exact ⟨i, Rat.not_le.2 (of_decide_eq_true hexpired), fun _ => parse_unexpired hparse⟩
    · rintro ⟨i, hnow, hparse⟩
      have hlast := hparse _ (Rat.le_refl : i.Unexpired (i.expiry * 1000))
      obtain ⟨_, _, _, -, -, -, -, -, -, -, -, -, -, hread⟩ :=
        parsePairingInvitationUrl_eq_some.1 hlast
      obtain ⟨wf, -⟩ := readFragment_eq_some.1 hread
      rw [hparse 0 wf.unexpired_zero]
      exact decide_eq_true (Rat.not_le.1 hnow)

end Links

/-! ### A plain `new URL` -/

def isHostChar (c : UInt16) : Bool := JsString.isLower c || c == unit '.'

/-- The rest of a text that starts with a scheme: a host, then a fragment. -/
def plainUrlOf (protocol rest : JsString) : Option Url :=
  let hostname := rest.takeWhile isHostChar
  let tail := rest.dropWhile isHostChar
  if hostname ≠ [] ∧ (js "/#").isPrefixOf tail = true ∧ tail.drop 2 ≠ [] ∧
      (tail.drop 2).all isFragmentChar = true then
    some {
      protocol := protocol
      username := []
      password := []
      hostname := hostname
      pathname := js "/"
      search := []
      origin := protocol ++ js "//" ++ hostname
      hash := js "#" ++ tail.drop 2 }
  else none

/-- `new URL` on the plainest of texts. -/
def plainUrl (text : JsString) : Option Url :=
  if (js "https://").isPrefixOf text then plainUrlOf (js "https:") (text.drop 8)
  else if (js "http://").isPrefixOf text then plainUrlOf (js "http:") (text.drop 7)
  else none

theorem plainUrlOf_append {protocol host fragment : JsString}
    (hhost : ∀ c ∈ host, isHostChar c = true) (hne : host ≠ []) (hfragment : fragment ≠ [])
    (hchars : fragment.all isFragmentChar = true) :
    plainUrlOf protocol (host ++ (js "/#" ++ fragment)) = some {
      protocol := protocol
      username := []
      password := []
      hostname := host
      pathname := js "/"
      search := []
      origin := protocol ++ js "//" ++ host
      hash := js "#" ++ fragment } := by
  have hstop : isHostChar (unit '/') = false := by decide
  have htake : (host ++ (js "/#" ++ fragment)).takeWhile isHostChar = host := by
    rw [List.takeWhile_append_of_pos hhost]
    show host ++ (unit '/' :: (js "#" ++ fragment)).takeWhile isHostChar = host
    rw [List.takeWhile_cons_of_neg (by rw [hstop]; decide), List.append_nil]
  have hdrop : (host ++ (js "/#" ++ fragment)).dropWhile isHostChar = js "/#" ++ fragment := by
    rw [List.dropWhile_append_of_pos hhost]
    show (unit '/' :: (js "#" ++ fragment)).dropWhile isHostChar = _
    rw [List.dropWhile_cons_of_neg (by rw [hstop]; decide)]
    rfl
  unfold plainUrlOf
  rw [htake, hdrop, if_pos]
  · rfl
  · exact ⟨hne, List.isPrefixOf_iff_prefix.2 (List.prefix_append _ _), hfragment, hchars⟩

theorem plainUrl_https (rest : JsString) :
    plainUrl (js "https:" ++ js "//" ++ rest) = plainUrlOf (js "https:") rest := by
  have hscheme : js "https:" ++ js "//" = js "https://" := by decide
  rw [hscheme, plainUrl, if_pos (List.isPrefixOf_iff_prefix.2 (List.prefix_append _ _))]
  have hdrop : (js "https://" ++ rest).drop (js "https://").length = rest := List.drop_left
  exact congrArg (plainUrlOf _) hdrop

theorem plainUrl_http (rest : JsString) :
    plainUrl (js "http:" ++ js "//" ++ rest) = plainUrlOf (js "http:") rest := by
  have hscheme : js "http:" ++ js "//" = js "http://" := by decide
  have hother : (js "https://").isPrefixOf (js "http://" ++ rest) = false := by
    have hhttps : js "https://" = [104, 116, 116, 112, 115, 58, 47, 47] := by decide
    have hhttp : js "http://" = [104, 116, 116, 112, 58, 47, 47] := by decide
    rw [hhttps, hhttp]
    rfl
  rw [hscheme, plainUrl, hother, if_neg Bool.false_ne_true,
    if_pos (List.isPrefixOf_iff_prefix.2 (List.prefix_append _ _))]
  have hdrop : (js "http://" ++ rest).drop (js "http://").length = rest := List.drop_left
  exact congrArg (plainUrlOf _) hdrop

theorem plainUrl_readsOrigins : ReadsOrigins plainUrl := by
  intro text url fragment hurl _ hne hchars
  have hcases : ∃ protocol rest, (protocol = js "https:" ∨ protocol = js "http:") ∧
      plainUrlOf protocol rest = some url := by
    unfold plainUrl at hurl
    split at hurl
    · exact ⟨_, _, .inl rfl, hurl⟩
    · split at hurl
      · exact ⟨_, _, .inr rfl, hurl⟩
      · cases hurl
  obtain ⟨protocol, rest, hprotocol, hrest⟩ := hcases
  unfold plainUrlOf at hrest
  rw [Option.ite_none_right_eq_some] at hrest
  obtain ⟨⟨hhost, -⟩, hrest⟩ := hrest
  obtain rfl := Option.some.inj hrest
  have hchar : ∀ c ∈ rest.takeWhile isHostChar, isHostChar c = true :=
    List.all_eq_true.1 List.all_takeWhile
  have hread := @plainUrlOf_append protocol _ _ hchar hhost hne hchars
  rw [← hread, List.append_assoc _ (js "/#")]
  rcases hprotocol with rfl | rfl
  · rw [List.append_assoc _ (rest.takeWhile isHostChar), plainUrl_https]
  · rw [List.append_assoc _ (rest.takeWhile isHostChar), plainUrl_http]

/-- An invitation, with the key `00 01 02 …`. -/
def plainInvitation : PairingInvitation where
  burrowId := js "AAECAwQFBgcICQoLDA0ODw"
  inviteId := js "8O_u7ezr6uno5-bl5OPi4Q"
  expiry := 1700000300
  setupToken := js "gIGCg4SFhoeIiYqLjI2Oj5CRkpOUlZaXmJmam5ydnp8"
  ephPub := (List.range 32).map UInt8.ofNat
  ephPubBase64Url := js "AAECAwQFBgcICQoLDA0ODxAREhMUFRYXGBkaGxwdHh8"

theorem plainInvitation_wellFormed : plainInvitation.WellFormed where
  burrowId := by decide +kernel
  inviteId := by decide +kernel
  expiry := by decide
  setupToken := by decide +kernel
  spelled := by decide +kernel
  decoded := by decide +kernel
  ephPub := by decide

theorem pairing_link_round_trip_plain :
    ∃ link, formatPairingInvitationUrl (js "https://pocket.example") plainInvitation = some link ∧
      parsePairingInvitationUrl plainUrl (fun _ => true) (.string link)
        (js "https://pocket.example") 1700000000000 = some plainInvitation := by
  obtain ⟨link, parsed, prologue, hformat, hparse, rfl, -⟩ :=
    (pairing_link_round_trip plainUrl_readsOrigins fun _ _ => rfl).1
      (js "https://pocket.example") plainInvitation 1700000000000
      ⟨js "https://pocket.example/#pair", _, rfl, by decide +kernel, by decide +kernel⟩
      (by decide) plainInvitation_wellFormed (by
        unfold PairingInvitation.Unexpired
        decide +kernel)
  exact ⟨link, hformat, hparse⟩

/-- A link over plain HTTP is formatted, but off the loopback hosts it is not parsed. -/
theorem plain_http_refused :
    plainInvitation.WellFormed ∧ plainInvitation.Unexpired 1700000000000 ∧
      ∃ link, formatPairingInvitationUrl (js "http://pocket.example") plainInvitation = some link ∧
        parsePairingInvitationUrl plainUrl (fun _ => true) (.string link)
          (js "http://pocket.example") 1700000000000 = none := by
  have hrefused : (formatPairingInvitationUrl (js "http://pocket.example") plainInvitation).map
      (fun link => parsePairingInvitationUrl plainUrl (fun _ => true) (.string link)
        (js "http://pocket.example") 1700000000000) = some none := by decide +kernel
  refine ⟨plainInvitation_wellFormed, ?_, Option.map_eq_some_iff.1 hrefused⟩
  unfold PairingInvitation.Unexpired
  decide +kernel

end Dormouse.Burrow

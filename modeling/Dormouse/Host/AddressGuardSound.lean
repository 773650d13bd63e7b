import Dormouse.Host.AddressGuardIPv6

/-!
# Dormouse.Host.AddressGuardSound

**What the address guard refuses**: it misses no spelling of a link-local address, and what it refuses
beyond them are dotted tails behind groups that are no prefix of an IPv4 address, and texts that are no
address.
-/

namespace Dormouse.Host

open JsString

/-! ### The texts that are refused -/

/-- Behind the last colon of a text that begins with two stands an IPv4 address. -/
def TailText (t : JsString) (v : Nat) : Prop :=
  ∃ before last, t = js "::" ++ before ++ last ∧ (before = [] ∨ ∃ front, before = front ++ js ":") ∧
    unit '.' ∈ before ++ last ∧ (∀ c ∈ before, isLineTerminator c = false) ∧ InetAton last v

/-- Two groups behind two colons, or behind the mark of IPv4-mapped addresses. -/
def PairText (t : JsString) (v : Nat) : Prop :=
  ∃ high low : JsString, isHexGroup high = true ∧ isHexGroup low = true ∧
    (t = js "::" ++ join (js ":") [high, low] ∨ t = js "::" ++ join (js ":") [js "ffff", high, low]) ∧
    v = parseInt 16 high * 65536 + parseInt 16 low

theorem afterLastColon_behind (before text : JsString) :
    afterLastColon (before ++ js ":" ++ text) = afterLastColon text := by
  have hcolon : (js ":").reverse = [unit ':'] := rfl
  have hstop : ([unit ':'] ++ before.reverse).takeWhile (· ≠ unit ':') = [] := by simp
  rw [afterLastColon, afterLastColon, List.reverse_append, List.reverse_append, hcolon,
    List.takeWhile_append, hstop]
  split
  · rename_i hall
    rw [List.append_nil]
    exact congrArg List.reverse ((List.takeWhile_sublist _).eq_of_length hall).symm
  · rfl

theorem afterLastColon_split (text : JsString) :
    ∃ before, text = before ++ afterLastColon text ∧
      (before = [] ∨ ∃ front, before = front ++ js ":") := by
  have hsplit := List.takeWhile_append_dropWhile (p := fun c : UInt16 => decide (c ≠ unit ':'))
    (l := text.reverse)
  have htext : text = (text.reverse.dropWhile (· ≠ unit ':')).reverse ++ afterLastColon text := by
    rw [afterLastColon, ← List.reverse_append, hsplit, List.reverse_reverse]
  refine ⟨_, htext, ?_⟩
  cases hdrop : text.reverse.dropWhile (· ≠ unit ':') with
  | nil => exact .inl rfl
  | cons c rest =>
    have hc := List.head?_dropWhile_not (fun c : UInt16 => decide (c ≠ unit ':')) text.reverse
    rw [hdrop, List.head?_cons] at hc
    have hcolon : c = unit ':' := by simpa using hc
    rw [hcolon]
    exact .inr ⟨rest.reverse, List.reverse_cons⟩

theorem restOfHost_eq_some {text tail : JsString} :
    restOfHost text = some tail ↔
      text = tail ∧ tail ≠ [] ∧ ∀ c ∈ tail, isLineTerminator c = false := by
  rw [restOfHost]
  constructor
  · intro h
    split at h
    · rename_i hrest
      cases h
      refine ⟨rfl, hrest.1, fun c hc => ?_⟩
      have := List.any_eq_false.1 (by simpa using hrest.2) c hc
      simpa using this
    · cases h
  · rintro ⟨rfl, hne, hline⟩
    refine if_pos ⟨hne, ?_⟩
    rw [Bool.not_eq_true']
    exact List.any_eq_false.2 fun c hc => by simp [hline c hc]

theorem matchEmbedded_sound {t tail : JsString} (h : matchEmbedded t = some tail) :
    (t = js "::" ++ tail ∨ t = js "::" ++ (js "ffff:" ++ tail)) ∧
      ∀ c ∈ tail, isLineTerminator c = false := by
  rw [matchEmbedded] at h
  split at h
  swap
  · cases h
  rename_i hcolons
  have ht : t = js "::" ++ t.drop 2 := by
    conv_lhs => rw [← List.take_append_drop 2 t, hcolons]
  dsimp only at h
  split at h
  · rename_i hmapped
    have hrest : t.drop 2 = js "ffff:" ++ (t.drop 2).drop 5 := by
      conv_lhs => rw [← List.take_append_drop 5 (t.drop 2), hmapped]
    cases hfirst : restOfHost ((t.drop 2).drop 5) with
    | some first =>
      rw [hfirst] at h
      cases h
      obtain ⟨heq, -, hline⟩ := restOfHost_eq_some.1 hfirst
      exact ⟨.inr (by rw [← heq, ← hrest, ← ht]), hline⟩
    | none =>
      rw [hfirst] at h
      obtain ⟨heq, -, hline⟩ := restOfHost_eq_some.1 h
      exact ⟨.inl (by rw [← heq, ← ht]), hline⟩
  · obtain ⟨heq, -, hline⟩ := restOfHost_eq_some.1 h
    exact ⟨.inl (by rw [← heq, ← ht]), hline⟩

/-- A text of which the guard makes an embedded address. -/
theorem embeddedIPv4_sound {t : JsString} {v : Nat} (h : embeddedIPv4 t = some v) :
    TailText t v ∨ PairText t v := by
  rw [embeddedIPv4] at h
  split at h
  · cases h
  rename_i tail htail
  obtain ⟨ht, hline⟩ := matchEmbedded_sound htail
  split at h
  · -- A dotted tail.
    rename_i hdot
    obtain ⟨before, hsplit, hbefore⟩ := afterLastColon_split tail
    have hlast := parseIPv4_sound h
    rw [hsplit] at hdot
    generalize afterLastColon tail = last at hsplit hdot hlast
    subst hsplit
    have hquiet : ∀ c ∈ before, isLineTerminator c = false := fun c hc =>
      hline c (List.mem_append_left _ hc)
    rcases ht with ht | ht
    · exact .inl ⟨before, last, by rw [ht, List.append_assoc], hbefore, hdot, hquiet, hlast⟩
    have hmark : ∀ c ∈ js "ffff:", isLineTerminator c = false := fun c hc => by
      have hall := List.all_eq_true.1 (by decide :
        (js "ffff:").all (fun d => !isLineTerminator d) = true) c hc
      exact Bool.not_eq_true' _ ▸ hall
    refine .inl ⟨js "ffff:" ++ before, last, ?_, .inr ?_, ?_, ?_, hlast⟩
    · rw [ht]
      simp only [List.append_assoc]
    · rcases hbefore with rfl | ⟨front, rfl⟩
      · exact ⟨js "ffff", rfl⟩
      · exact ⟨js "ffff:" ++ front, by rw [List.append_assoc]⟩
    · rw [List.append_assoc]
      exact List.mem_append_right _ hdot
    · intro c hc
      rcases List.mem_append.1 hc with hmem | hmem
      · exact hmark c hmem
      · exact hquiet c hmem
  · split at h
    swap
    · cases h
    rename_i high low hparts
    split at h
    swap
    · cases h
    rename_i hgroups
    rw [Bool.and_eq_true] at hgroups
    have hjoin : tail = join (js ":") [high, low] := by
      have hback := join_splitOn (unit ':') tail
      rw [hparts] at hback
      exact hback.symm
    refine .inr ⟨high, low, hgroups.1, hgroups.2, ?_, (Option.some.inj h).symm⟩
    rcases ht with ht | ht
    · exact .inl (by rw [ht, hjoin])
    · exact .inr (by rw [ht, hjoin]; rfl)

theorem field_of_isHexGroup {group : JsString} (h : isHexGroup group = true) : Field group := by
  simp only [isHexGroup, Bool.and_eq_true, decide_eq_true_eq] at h
  refine ⟨List.length_pos_iff.1 h.1.1, fun c hc => ?_⟩
  obtain ⟨⟨d, hd, hvalue⟩, hupper⟩ := isHexUnit_iff.1 (List.all_eq_true.1 h.2 c hc)
  have hdigit : c = digit d := by
    have hc := digitValue_eq_some hvalue
    have hupper' : ¬(0x41 ≤ c.toNat ∧ c.toNat ≤ 0x5A) := fun hbound => by
      rw [isUpper_iff.2 hbound] at hupper
      cases hupper
    refine UInt16.toNat.inj ?_
    rw [digit, toNat_toUInt16 (by split <;> omega)]
    split <;> omega
  rw [hdigit]
  exact ⟨.inl ⟨d, hd, rfl⟩, (digit_spec hd).2.2.2.2.1⟩

theorem embeddedIPv4_pair {t : JsString} {v : Nat} (h : PairText t v) (hlocal : LinkLocalV4 v) :
    embeddedIPv4 t = some v := by
  obtain ⟨high, low, hhigh, hlow, ht, rfl⟩ := h
  have hfields : ∀ p ∈ [high, low], Field p := by
    intro p hp
    simp only [List.mem_cons, List.not_mem_nil, or_false] at hp
    rcases hp with rfl | rfl
    · exact field_of_isHexGroup hhigh
    · exact field_of_isHexGroup hlow
  have hnodot : unit '.' ∉ join (js ":") [high, low] := by
    intro hmem
    have hhex : ∀ {group : JsString}, isHexGroup group = true → unit '.' ∉ group := by
      intro group hgroup hdot
      simp only [isHexGroup, Bool.and_eq_true, decide_eq_true_eq] at hgroup
      exact absurd (List.all_eq_true.1 hgroup.2 _ hdot) (by decide)
    rcases mem_join hmem with hsep | ⟨p, hp, hdot⟩
    · exact absurd (List.mem_singleton.1 hsep) (by decide)
    · simp only [List.mem_cons, List.not_mem_nil, or_false] at hp
      rcases hp with rfl | rfl
      · exact hhex hhigh hdot
      · exact hhex hlow hdot
  -- The high group of a link-local address is no mark of IPv4-mapped addresses.
  have hword : high ≠ js "ffff" := by
    rintro rfl
    have hmark : parseInt 16 (js "ffff") = 65535 := by decide
    rw [hmark, LinkLocalV4] at hlocal
    omega
  have hmatch : matchEmbedded t = some (join (js ":") [high, low]) := by
    rcases ht with rfl | rfl
    · rw [matchEmbedded_join (List.cons_ne_nil _ _) hfields, behindMapped, if_neg hword]
    · have hmark : Field (js "ffff") := field_of_isHexGroup (by decide)
      rw [matchEmbedded_join (List.cons_ne_nil _ _) (List.forall_mem_cons.2 ⟨hmark, hfields⟩),
        behindMapped, if_pos rfl]
  have hsplit : (join (js ":") [high, low]).splitOn (unit ':') = [high, low] :=
    splitOn_join (fun p hp hcolon => ((hfields p hp).2 _ hcolon).2 rfl) (List.cons_ne_nil _ _)
  rw [embeddedIPv4, hmatch]
  dsimp only
  rw [if_neg hnodot, hsplit]
  dsimp only
  rw [hhigh, hlow]
  rfl

theorem IPv4Unit.not_lineTerminator {c : UInt16} (h : IPv4Unit c) : isLineTerminator c = false := by
  rcases h with ⟨d, -, hvalue⟩ | rfl | rfl | rfl
  · have hc := digitValue_eq_some hvalue
    rw [← Bool.not_eq_true]
    simp only [isLineTerminator, Bool.or_eq_true, beq_iff_eq]
    rintro (((rfl | rfl) | rfl) | rfl) <;> simp at hc
  · decide
  · decide
  · decide

theorem embeddedIPv4_tail {t : JsString} {v : Nat} (hsmall : ∀ c ∈ t, isUpper c = false)
    (h : TailText t v) : embeddedIPv4 t = some v := by
  obtain ⟨before, last, rfl, hbefore, hdot, hquiet, haton⟩ := h
  have hcolon : unit ':' ∉ last := fun hmem => (haton.unit_of_mem hmem).spec.2.1 rfl
  have hne : last ≠ [] := by
    rintro rfl
    have hparse := parseIPv4_complete haton
    rw [show parseIPv4 (asciiLower []) = none by decide] at hparse
    cases hparse
  have hparse : parseIPv4 last = some v := by
    rw [← asciiLower_text fun c hc => hsmall c (List.mem_append_right _ hc)]
    exact parseIPv4_complete haton
  have hline : ∀ c ∈ before ++ last, isLineTerminator c = false := by
    intro c hc
    rcases List.mem_append.1 hc with hmem | hmem
    · exact hquiet c hmem
    · exact (haton.unit_of_mem hmem).not_lineTerminator
  have hself : afterLastColon last = last := @afterLastColon_join [] _ hcolon
  have hend : ∀ {front}, afterLastColon (front ++ js ":" ++ last) = last := fun {front} => by
    rw [afterLastColon_behind, hself]
  have hwhole : afterLastColon (before ++ last) = last := by
    rcases hbefore with rfl | ⟨front, rfl⟩
    · exact hself
    · exact hend
  -- The tail, whichever of the two it is, ends with the same part.
  have htail : ∃ tail, matchEmbedded (js "::" ++ before ++ last) = some tail ∧ unit '.' ∈ tail ∧
      afterLastColon tail = last := by
    have hrest : (js "::" ++ before ++ last).drop 2 = before ++ last := rfl
    have htake : (js "::" ++ before ++ last).take 2 = js "::" := rfl
    have hall : restOfHost (before ++ last) = some (before ++ last) :=
      restOfHost_eq_some.2 ⟨rfl, List.append_ne_nil_of_right_ne_nil _ hne, hline⟩
    rw [matchEmbedded, if_pos htake, hrest]
    by_cases hmapped : (before ++ last).take 5 = js "ffff:"
    · have hsplit : before ++ last = js "ffff" ++ js ":" ++ (before ++ last).drop 5 := by
        conv_lhs => rw [← List.take_append_drop 5 (before ++ last), hmapped]
        rfl
      have hafter : afterLastColon ((before ++ last).drop 5) = last := by
        have hbehind := afterLastColon_behind (js "ffff") ((before ++ last).drop 5)
        rw [← hsplit, hwhole] at hbehind
        exact hbehind.symm
      have hdot' : unit '.' ∈ (before ++ last).drop 5 := by
        rw [hsplit] at hdot
        rcases List.mem_append.1 hdot with hmark | hmem
        · exact absurd hmark (by decide)
        · exact hmem
      have hdrop : restOfHost ((before ++ last).drop 5) = some ((before ++ last).drop 5) :=
        restOfHost_eq_some.2 ⟨rfl, List.ne_nil_of_mem hdot', fun c hc =>
          hline c (List.mem_of_mem_drop hc)⟩
      refine ⟨_, ?_, hdot', hafter⟩
      rw [if_pos hmapped, hdrop]
      rfl
    · exact ⟨_, by rw [if_neg hmapped, hall], hdot, hwhole⟩
  obtain ⟨tail, hmatch, hdot', hafter⟩ := htail
  rw [embeddedIPv4, hmatch]
  dsimp only
  rw [if_pos hdot', hafter, hparse]

/-- The text the guard looks at. -/
def guarded (lower : LowerCase) (s : JsString) : JsString := lower.toLowerCase (withoutBrackets s)

theorem isBlockedAddress_eq (lower : LowerCase) (s : JsString) :
    isBlockedAddress lower s = true ↔ isLinkLocalText (guarded lower s) = true ∨
      ∃ v, (if unit ':' ∈ guarded lower s then embeddedIPv4 (guarded lower s)
        else parseIPv4 (guarded lower s)) = some v ∧ LinkLocalV4 v := by
  rw [isBlockedAddress, ← guarded, Bool.or_eq_true]
  refine or_congr_right ?_
  have hrange : ∀ v, (LINK_LOCAL_V4_START ≤ v && v ≤ LINK_LOCAL_V4_END) = true ↔ LinkLocalV4 v := by
    intro v
    rw [Bool.and_eq_true, decide_eq_true_iff, decide_eq_true_iff, LinkLocalV4, LINK_LOCAL_V4_START,
      LINK_LOCAL_V4_END]
    omega
  split
  · rename_i hnone
    simp [hnone]
  · rename_i v hv
    simp [hv, hrange]

/-- A text that begins with a link-local group, that is a link-local IPv4 address or that ends in
one. -/
def ReadsLinkLocal (t : JsString) : Prop :=
  isLinkLocalText t = true ∨ ∃ v, LinkLocalV4 v ∧ (InetAton t v ∨ TailText t v ∨ PairText t v)

/-- What is refused, of any text. -/
theorem isBlockedAddress_iff (lower : LowerCase) (s : JsString) :
    isBlockedAddress lower s = true ↔ ReadsLinkLocal (guarded lower s) := by
  have hsmall : ∀ c ∈ guarded lower s, isUpper c = false := lower.small _
  have hcolons : ∀ text : JsString, unit ':' ∈ js "::" ++ text := fun text =>
    List.mem_append_left _ (by decide)
  rw [isBlockedAddress_eq, ReadsLinkLocal]
  refine or_congr_right ?_
  generalize guarded lower s = t at hsmall
  constructor
  · rintro ⟨v, hv, hlocal⟩
    split at hv
    · exact ⟨v, hlocal, .inr (embeddedIPv4_sound hv)⟩
    · exact ⟨v, hlocal, .inl (parseIPv4_sound hv)⟩
  · rintro ⟨v, hlocal, haton | htail | hpair⟩
    · have hno : unit ':' ∉ t := fun hmem => (haton.unit_of_mem hmem).spec.2.1 rfl
      refine ⟨v, ?_, hlocal⟩
      rw [if_neg hno, ← asciiLower_text hsmall]
      exact parseIPv4_complete haton
    · have hyes : unit ':' ∈ t := by
        obtain ⟨before, last, rfl, -⟩ := htail
        rw [List.append_assoc]
        exact hcolons _
      exact ⟨v, by rw [if_pos hyes, embeddedIPv4_tail hsmall htail], hlocal⟩
    · have hyes : unit ':' ∈ t := by
        obtain ⟨high, low, -, -, rfl | rfl, -⟩ := hpair
        · exact hcolons _
        · exact hcolons _
      exact ⟨v, by rw [if_pos hyes, embeddedIPv4_pair hpair hlocal], hlocal⟩

/-! ### Addresses and other texts -/

/-- The guard tells the link-local addresses from all others, and lets pass what is no address. -/
structure GuardExact (lower : LowerCase) (s : JsString) : Prop where
  ipv4 : ∀ v, InetAton s v → (isBlockedAddress lower s = true ↔ LinkLocalV4 v)
  ipv6 : ∀ a : IPv6, a.Canonical s → (isBlockedAddress lower s = true ↔ a.LinkLocal)
  other : ¬NumericAddress s → isBlockedAddress lower s = false

/-- The canonical text, with a dotted tail behind compressed zeros, of an address whose last groups
are a link-local IPv4 address and whose first ones do not embed it. -/
def GroupsInFront (s : JsString) : Prop :=
  ∃ a : IPv6, Bracketed a.dottedText s ∧ js "::" <+: a.dottedText ∧ a.groups.getD 6 0 = 0xa9fe ∧
    ¬a.LinkLocal

/-- No address, and yet its text without its brackets and capitals reads as a link-local one. -/
def Malformed (lower : LowerCase) (s : JsString) : Prop :=
  ¬NumericAddress s ∧ ReadsLinkLocal (guarded lower s)

theorem guarded_aton (lower : LowerCase) {s : JsString} {v : Nat} (h : InetAton s v) :
    guarded lower s = asciiLower s := by
  rw [guarded, withoutBrackets_text fun c hc => (h.unit_of_mem hc).spec.2.2]
  exact lower.ascii s fun c hc => (h.unit_of_mem hc).spec.1

theorem isLinkLocalText_colon {t : JsString} (h : isLinkLocalText t = true) : unit ':' ∈ t := by
  match t, h with
  | f :: e :: y :: z :: colon :: rest, h =>
    simp only [isLinkLocalText, Bool.and_eq_true, decide_eq_true_eq] at h
    rw [h.2]
    simp

/-- Every spelling of an IPv4 address is judged by its value. -/
theorem isBlockedAddress_ipv4 (lower : LowerCase) {s : JsString} {v : Nat} (h : InetAton s v) :
    isBlockedAddress lower s = true ↔ LinkLocalV4 v := by
  have hcolon : unit ':' ∉ asciiLower s := by
    rw [← guarded_aton LowerCase.plain h]
    intro hmem
    obtain ⟨c, hc, heq⟩ := List.mem_map.1 (guarded_aton LowerCase.plain h ▸ hmem)
    have hspec := (h.unit_of_mem hc).spec
    by_cases hupper : isUpper c = true
    · have hbound := isUpper_iff.1 hupper
      have hlower := lowerUnit_of_upper hupper
      have hnat : (lowerUnit c).toNat = (unit ':').toNat := congrArg UInt16.toNat heq
      rw [show (unit ':').toNat = 0x3A by decide] at hnat
      omega
    · rw [Bool.not_eq_true] at hupper
      exact hspec.2.1 ((lowerUnit_of_not hupper).symm.trans heq)
  rw [isBlockedAddress_eq, guarded_aton lower h, if_neg hcolon, parseIPv4_complete h]
  rw [or_iff_right fun htext => hcolon (isLinkLocalText_colon htext)]
  constructor
  · rintro ⟨w, hw, hlocal⟩
    rwa [Option.some.inj hw]
  · exact fun hlocal => ⟨v, rfl, hlocal⟩

theorem guarded_bracketed (lower : LowerCase) {s text : JsString} (hs : Bracketed text s)
    (h : ∀ c ∈ text, TextUnit c) : guarded lower s = text := by
  have hplain : lower.toLowerCase text = text := by
    rw [lower.ascii text fun c hc => (h c hc).spec.1]
    exact asciiLower_text fun c hc => (h c hc).spec.2.1
  rcases hs with rfl | rfl
  · rw [guarded, withoutBrackets_text fun c hc => ⟨(h c hc).spec.2.2.1, (h c hc).spec.2.2.2.1⟩, hplain]
  · rw [guarded, withoutBrackets_bracketed, hplain]

theorem colon_mem_compressed (g : UInt16) {gs : List UInt16} {behind : List JsString}
    (hrest : gs.map groupText ++ behind ≠ []) : unit ':' ∈ compressed (g :: gs) behind := by
  rcases compressed_cases g hrest with ⟨-, htext⟩ | ⟨-, more, htext⟩
  · rw [htext]
    exact List.mem_append_left _ (by decide)
  · rw [htext]
    exact List.mem_append_left _ (List.mem_append_right _ (by decide))

theorem isBlockedAddress_refuses (lower : LowerCase) {s text : JsString} (hs : Bracketed text s)
    (h : ∀ c ∈ text, TextUnit c) (hcolon : unit ':' ∈ text) :
    isBlockedAddress lower s = true ↔ Refuses text := by
  rw [isBlockedAddress_eq, guarded_bracketed lower hs h, if_pos hcolon, Refuses]

theorem isBlockedAddress_hexText (lower : LowerCase) {a : IPv6} {s : JsString}
    (hs : Bracketed a.hexText s) : isBlockedAddress lower s = true ↔ a.LinkLocal := by
  rw [← refuses_hexText a]
  refine isBlockedAddress_refuses lower hs (fun c hc => unit_of_mem_compressed
    (fun p hp => absurd hp List.not_mem_nil) hc) ?_
  obtain ⟨g₀, g₁, g₂, g₃, g₄, g₅, g₆, g₇, hgroups⟩ := a.exists_groups
  rw [IPv6.hexText, hgroups]
  exact colon_mem_compressed g₀ (by simp)

theorem isBlockedAddress_dottedText (lower : LowerCase) {a : IPv6} {s : JsString}
    (hs : Bracketed a.dottedText s) :
    isBlockedAddress lower s = true ↔
      a.LinkLocal ∨ (js "::" <+: a.dottedText ∧ a.groups.getD 6 0 = 0xa9fe) := by
  rw [← refuses_dottedText a]
  refine isBlockedAddress_refuses lower hs (fun c hc => unit_of_mem_compressed (fun p hp => ?_) hc) ?_
  · rw [List.mem_singleton.1 hp]
    exact field_dottedQuad _ _
  · obtain ⟨g₀, g₁, g₂, g₃, g₄, g₅, g₆, g₇, hgroups⟩ := a.exists_groups
    rw [IPv6.dottedText, hgroups]
    exact colon_mem_compressed g₀ (by simp)

/-- The guard is exact on every text but dotted tails behind groups that embed nothing, and texts
that are no address. -/
theorem isBlockedAddress_exact (lower : LowerCase) (s : JsString) :
    GuardExact lower s ↔ ¬(GroupsInFront s ∨ Malformed lower s) := by
  constructor
  · rintro h (⟨a, hs, hlead, hword, hremote⟩ | ⟨hother, hreads⟩)
    · have hblocked := (isBlockedAddress_dottedText lower hs).2 (.inr ⟨hlead, hword⟩)
      exact hremote ((h.ipv6 a (.inr hs)).1 hblocked)
    · have hblocked := (isBlockedAddress_iff lower s).2 hreads
      rw [h.other hother] at hblocked
      cases hblocked
  · intro h
    rw [not_or] at h
    refine ⟨fun v hv => isBlockedAddress_ipv4 lower hv, fun a ha => ?_, fun hother => ?_⟩
    · rcases ha with hs | hs
      · exact isBlockedAddress_hexText lower hs
      · rw [isBlockedAddress_dottedText lower hs]
        refine or_iff_left_of_imp fun hfront => ?_
        by_contra hremote
        exact h.1 ⟨a, hs, hfront.1, hfront.2, hremote⟩
    · rw [← Bool.not_eq_true, isBlockedAddress_iff]
      exact fun hreads => h.2 ⟨hother, hreads⟩

/-- `::1:169.254.1.1` embeds no IPv4 address, and is refused. -/
theorem groups_in_front_refused : ¬GuardExact LowerCase.plain (js "::1:169.254.1.1") := by
  intro h
  have htext : IPv6.dottedText ⟨[0, 0, 0, 0, 0, 1, 0xa9fe, 0x101], rfl⟩ = js "::1:169.254.1.1" := by
    decide +kernel
  have hblocked : isBlockedAddress LowerCase.plain (js "::1:169.254.1.1") = true := by decide +kernel
  rcases (h.ipv6 ⟨[0, 0, 0, 0, 0, 1, 0xa9fe, 0x101], rfl⟩ (.inr (.inl htext.symm))).1 hblocked with
    ⟨first, rest, hgroups, hfirst⟩ | ⟨v, ⟨mapped, high, low, hm, hgroups, -⟩, -⟩
  · obtain ⟨rfl, -⟩ := List.cons.inj hgroups
    exact absurd hfirst (by decide)
  · simp only [List.cons.injEq] at hgroups
    rw [← hgroups.2.2.2.2.2.1] at hm
    exact absurd hm (by decide)

end Dormouse.Host

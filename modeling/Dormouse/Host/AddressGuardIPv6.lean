import Mathlib.Data.List.TakeWhile
import Dormouse.Host.AddressGuardIPv4

/-!
# Dormouse.Host.AddressGuardIPv6

**IPv6 addresses as the guard reads them**: what it makes of a canonical text, with or without a
dotted tail.
-/

namespace Dormouse.Host

open JsString

/-! ### The texts of IPv6 -/

/-- The text of a group. -/
abbrev groupText (g : UInt16) : JsString := numeral 16 g.toNat

theorem spells_groupText (g : UInt16) : Spells 16 (groupText g) g.toNat :=
  spells_numeral (by decide) (by decide) _

theorem groupText_inj {g g' : UInt16} (h : groupText g = groupText g') : g = g' := by
  have hvalue := (spells_groupText g).parseInt
  rw [h, (spells_groupText g').parseInt] at hvalue
  exact (UInt16.toNat.inj hvalue).symm

/-- Small hexadecimal digits and the signs between them. -/
def TextUnit (c : UInt16) : Prop := (∃ d < 16, c = digit d) ∨ c = unit ':' ∨ c = unit '.'

theorem digit_spec {d : Nat} (h : d < 16) : digit d < 0x80 ∧ isUpper (digit d) = false ∧
    digit d ≠ unit '[' ∧ digit d ≠ unit ']' ∧ digit d ≠ unit ':' ∧ digit d ≠ unit '.' ∧
    isLineTerminator (digit d) = false ∧ isHexUnit (digit d) = true := by
  have hall : ∀ d : Fin 16, digit d < 0x80 ∧ isUpper (digit d) = false ∧ digit d ≠ unit '[' ∧
      digit d ≠ unit ']' ∧ digit d ≠ unit ':' ∧ digit d ≠ unit '.' ∧
      isLineTerminator (digit d) = false ∧ isHexUnit (digit d) = true := by decide
  exact hall ⟨d, h⟩

theorem TextUnit.spec {c : UInt16} (h : TextUnit c) : c < 0x80 ∧ isUpper c = false ∧
    c ≠ unit '[' ∧ c ≠ unit ']' ∧ isLineTerminator c = false := by
  rcases h with ⟨d, hd, rfl⟩ | rfl | rfl
  · obtain ⟨hascii, hlow, hopen, hclose, -, -, hline, -⟩ := digit_spec hd
    exact ⟨hascii, hlow, hopen, hclose, hline⟩
  · decide
  · decide

/-- A part of a text that is no sign. -/
def Plain (part : JsString) : Prop := part ≠ [] ∧ ∀ c ∈ part, ∃ d < 16, c = digit d

theorem plain_numeral {base : Nat} (hbase : 1 < base) (hmax : base ≤ 16) (n : Nat) :
    Plain (numeral base n) := by
  refine ⟨(spells_numeral hbase hmax n).ne_nil, fun c hc => ?_⟩
  obtain ⟨d, hd, rfl⟩ := mem_numeral hbase hmax hc
  exact ⟨d, hd.trans_le hmax, rfl⟩

theorem plain_groupText (g : UInt16) : Plain (groupText g) := plain_numeral (by decide) (by decide) _

theorem unit_of_mem_dottedQuad {high low c : UInt16} (hc : c ∈ dottedQuad high low) :
    TextUnit c ∧ c ≠ unit ':' := by
  rcases mem_join hc with hsep | ⟨p, hp, hmem⟩
  · rw [List.mem_singleton.1 hsep]
    exact ⟨.inr (.inr rfl), by decide⟩
  · have hplain : Plain p := by
      simp only [List.mem_cons, List.not_mem_nil, or_false] at hp
      rcases hp with rfl | rfl | rfl | rfl <;> exact plain_numeral (by decide) (by decide) _
    obtain ⟨d, hd, rfl⟩ := hplain.2 c hmem
    exact ⟨.inl ⟨d, hd, rfl⟩, (digit_spec hd).2.2.2.2.1⟩

/-- What stands between the colons of a text. -/
def Field (part : JsString) : Prop := part ≠ [] ∧ ∀ c ∈ part, TextUnit c ∧ c ≠ unit ':'

theorem Plain.field {part : JsString} (h : Plain part) : Field part := by
  refine ⟨h.1, fun c hc => ?_⟩
  obtain ⟨d, hd, rfl⟩ := h.2 c hc
  exact ⟨.inl ⟨d, hd, rfl⟩, (digit_spec hd).2.2.2.2.1⟩

theorem field_groupText (g : UInt16) : Field (groupText g) := (plain_groupText g).field

theorem join_pair_ne_nil (sep a b : JsString) (hb : b ≠ []) (parts : List JsString) :
    join sep (a :: b :: parts) ≠ [] := by
  intro hnil
  have hrest := (List.append_eq_nil_iff.1 hnil).2
  cases parts with
  | nil => exact hb hrest
  | cons c parts => exact hb (List.append_eq_nil_iff.1 (List.append_eq_nil_iff.1 hrest).1).1

theorem field_dottedQuad (high low : UInt16) : Field (dottedQuad high low) :=
  ⟨join_pair_ne_nil _ _ _ (plain_numeral (by decide) (by decide) _).1 _,
    fun _ hc => unit_of_mem_dottedQuad hc⟩

theorem unit_of_mem_joined {parts : List JsString} (hparts : ∀ p ∈ parts, Field p) {c : UInt16}
    (hc : c ∈ join (js ":") parts) : TextUnit c := by
  rcases mem_join hc with hsep | ⟨p, hp, hmem⟩
  · exact .inr (.inl (List.mem_singleton.1 hsep))
  · exact ((hparts p hp).2 c hmem).1

theorem unit_of_mem_compressed {gs : List UInt16} {behind : List JsString}
    (hbehind : ∀ p ∈ behind, Field p) {c : UInt16} (hc : c ∈ compressed gs behind) : TextUnit c := by
  have htexts : ∀ p ∈ gs.map groupText, Field p := by
    intro p hp
    obtain ⟨g, -, rfl⟩ := List.mem_map.1 hp
    exact field_groupText g
  have hall : ∀ ps, (∀ p ∈ ps, p ∈ gs.map groupText) → ∀ p ∈ ps ++ behind, Field p := by
    intro ps hps p hp
    rcases List.mem_append.1 hp with hmem | hmem
    · exact htexts p (hps p hmem)
    · exact hbehind p hmem
  unfold compressed at hc
  dsimp only at hc
  split at hc
  · exact unit_of_mem_joined (hall _ fun _ hp => hp) hc
  rcases List.mem_append.1 hc with hfirst | hlast
  · rcases List.mem_append.1 hfirst with hhead | hsep
    · exact unit_of_mem_joined (fun p hp => htexts p (List.mem_of_mem_take hp)) hhead
    · refine .inr (.inl ?_)
      have hcolons : ∀ c ∈ js "::", c = unit ':' := fun c hc =>
        of_decide_eq_true (List.all_eq_true.1 (by decide :
          (js "::").all (fun d => decide (d = unit ':')) = true) c hc)
      exact hcolons c hsep
  · exact unit_of_mem_joined (hall _ fun _ hp => List.mem_of_mem_drop hp) hlast

/-! ### Brackets and case -/

theorem withoutBrackets_text {text : JsString} (h : ∀ c ∈ text, c ≠ unit '[' ∧ c ≠ unit ']') :
    withoutBrackets text = text := by
  have hhead : text.head? ≠ some (unit '[') := fun heq => (h _ (List.mem_of_mem_head? heq)).1 rfl
  have hlast : text.getLast? ≠ some (unit ']') := fun heq => (h _ (List.mem_of_mem_getLast? heq)).2 rfl
  rw [withoutBrackets]
  rw [if_neg hhead, if_neg hlast]

theorem withoutBrackets_bracketed (text : JsString) :
    withoutBrackets (js "[" ++ text ++ js "]") = text := by
  have hlist : js "[" ++ text ++ js "]" = unit '[' :: (text ++ [unit ']']) := rfl
  have hhead : (unit '[' :: (text ++ [unit ']'])).head? = some (unit '[') := rfl
  rw [hlist, withoutBrackets]
  rw [if_pos hhead, List.tail_cons, if_pos List.getLast?_concat, List.dropLast_concat]

theorem asciiLower_text {text : JsString} (h : ∀ c ∈ text, isUpper c = false) :
    asciiLower text = text := by
  rw [asciiLower_eq]
  exact (List.map_congr_left fun c hc => lowerUnit_of_not (h c hc)).trans (List.map_id _)

/-! ### A link-local first group -/

theorem head_ne_colon {part : JsString} (h : Field part) (rest : JsString) :
    (part ++ rest).head? ≠ some (unit ':') := by
  cases part with
  | nil => exact absurd rfl h.1
  | cons c part =>
    intro heq
    exact (h.2 c List.mem_cons_self).2 (Option.some.inj heq)

/-- Text that begins with a group is told by the group. -/
theorem isLinkLocalText_group (g : UInt16) (more : JsString) :
    isLinkLocalText (groupText g ++ js ":" ++ more) = true ↔ g.toNat / 2 ^ 6 = 0xfe80 / 2 ^ 6 := by
  constructor
  · intro h
    -- The four digits in front of the colon are the whole group.
    have hshape : ∃ y z, groupText g = [unit 'f', unit 'e', y, z] ∧
        (y = unit '8' ∨ y = unit '9' ∨ y = unit 'a' ∨ y = unit 'b') := by
      have hcut : (groupText g ++ js ":" ++ more).takeWhile (· ≠ unit ':') = groupText g := by
        rw [List.append_assoc, List.takeWhile_append_of_pos fun c hc =>
          decide_eq_true ((field_groupText g).2 c hc).2]
        simp [js, codeUnits, unit]
      generalize groupText g ++ js ":" ++ more = text at h hcut
      match text, h with
      | f :: e :: y :: z :: colon :: tail, h =>
        simp only [isLinkLocalText, Bool.and_eq_true, Bool.or_eq_true, decide_eq_true_eq] at h
        obtain ⟨⟨⟨⟨rfl, rfl⟩, hy⟩, hz⟩, rfl⟩ := h
        have hz' : z ≠ unit ':' := by
          rintro rfl
          exact absurd hz (by decide)
        have hy' : y ≠ unit ':' := by
          rcases hy with ((rfl | rfl) | rfl) | rfl <;> decide
        refine ⟨y, z, ?_, ?_⟩
        · rw [← hcut]
          have hf : unit 'f' ≠ unit ':' := by decide
          have he : unit 'e' ≠ unit ':' := by decide
          simp [hf, he, hy', hz']
        · rcases hy with ((rfl | rfl) | rfl) | rfl
          · exact .inl rfl
          · exact .inr (.inl rfl)
          · exact .inr (.inr (.inl rfl))
          · exact .inr (.inr (.inr rfl))
    obtain ⟨y, z, htext, hy⟩ := hshape
    have hvalue := (spells_groupText g).parseInt
    obtain ⟨d, hd, hz⟩ := (spells_groupText g).digit (c := z) (by rw [htext]; simp)
    rw [htext] at hvalue
    have hf : digitValue (unit 'f') = some 15 := by decide
    have he : digitValue (unit 'e') = some 14 := by decide
    have hyv : ∃ k, 8 ≤ k ∧ k < 12 ∧ digitValue y = some k := by
      rcases hy with rfl | rfl | rfl | rfl
      · exact ⟨8, by decide⟩
      · exact ⟨9, by decide⟩
      · exact ⟨10, by decide⟩
      · exact ⟨11, by decide⟩
    obtain ⟨k, hlow, hhigh, hk⟩ := hyv
    simp only [parseInt, List.foldl_cons, List.foldl_nil, hf, he, hk, hz, Option.getD_some] at hvalue
    omega
  · intro h
    have hvalue : g.toNat = Nat.ofDigits 16 [g.toNat % 16, g.toNat / 16 % 16, 14, 15] := by
      simp only [Nat.ofDigits_cons, Nat.ofDigits_nil]
      omega
    have htext : groupText g = [digit 15, digit 14, digit (g.toNat / 16 % 16), digit (g.toNat % 16)] := by
      rw [groupText, hvalue, numeral_ofDigits (by decide) (by simp; omega) (List.cons_ne_nil _ _)
        (by simp), ← hvalue]
      rfl
    have hthird : ∀ k : Fin 16, 8 ≤ k.1 → k.1 < 12 → (digit k = unit '8' || digit k = unit '9' ||
        digit k = unit 'a' || digit k = unit 'b') = true := by decide
    have hy := hthird ⟨g.toNat / 16 % 16, by omega⟩ (by simp only; omega) (by simp only; omega)
    have hz := (digit_spec (d := g.toNat % 16) (by omega)).2.2.2.2.2.2.2
    rw [htext]
    show (_ && _ && _ && _ && _) = true
    rw [hz, hy]
    decide

/-! ### An embedded address -/

theorem restOfHost_text {text : JsString} (hne : text ≠ []) (h : ∀ c ∈ text, TextUnit c) :
    restOfHost text = some text := by
  refine if_pos ⟨hne, ?_⟩
  rw [Bool.not_eq_true']
  exact List.any_eq_false.2 fun c hc => by simp [(h c hc).spec.2.2.2.2]

theorem joined_ne_nil {sep : JsString} {parts : List JsString} (hne : parts ≠ [])
    (hparts : ∀ p ∈ parts, p ≠ []) : join sep parts ≠ [] := by
  cases parts with
  | nil => exact absurd rfl hne
  | cons p parts =>
    cases parts with
    | nil => exact hparts p List.mem_cons_self
    | cons q parts => exact join_pair_ne_nil sep p q (hparts q (by simp)) parts

/-- What is left behind a mark of IPv4-mapped addresses. -/
def behindMapped : List JsString → List JsString
  | first :: next :: rest => if first = js "ffff" then next :: rest else first :: next :: rest
  | parts => parts

theorem behindMapped_subset {parts : List JsString} : ∀ p ∈ behindMapped parts, p ∈ parts := by
  intro p hp
  unfold behindMapped at hp
  split at hp
  · split at hp
    · exact List.mem_cons_of_mem _ hp
    · exact hp
  · exact hp

theorem behindMapped_ne_nil {parts : List JsString} (h : parts ≠ []) : behindMapped parts ≠ [] := by
  unfold behindMapped
  split
  · split <;> exact List.cons_ne_nil _ _
  · exact h

theorem matchEmbedded_join {parts : List JsString} (hne : parts ≠ []) (hparts : ∀ p ∈ parts, Field p) :
    matchEmbedded (js "::" ++ join (js ":") parts) = some (join (js ":") (behindMapped parts)) := by
  have hunits : ∀ {c}, c ∈ join (js ":") parts → TextUnit c := unit_of_mem_joined hparts
  have hwhole : restOfHost (join (js ":") parts) = some (join (js ":") parts) :=
    restOfHost_text (joined_ne_nil hne fun p hp => (hparts p hp).1) fun _ hc => hunits hc
  have hdrop : (js "::" ++ join (js ":") parts).drop 2 = join (js ":") parts := rfl
  have htake : (js "::" ++ join (js ":") parts).take 2 = js "::" := rfl
  rw [matchEmbedded, if_pos htake, hdrop]
  -- The first part of the text, up to its colon.
  have hfirst : ∀ p rest, p ∈ parts →
      (p ++ js ":" ++ rest).takeWhile (· ≠ unit ':') = p := by
    intro p rest hp
    rw [List.append_assoc, List.takeWhile_append_of_pos fun c hc =>
      decide_eq_true ((hparts p hp).2 c hc).2]
    simp [js, codeUnits, unit]
  have hlead : ∀ text : JsString, text.take 5 = js "ffff:" →
      text.takeWhile (· ≠ unit ':') = js "ffff" ∧ unit ':' ∈ text := by
    intro text htake
    rw [← List.take_append_drop 5 text, htake]
    exact ⟨by rfl, List.mem_append_left _ (by decide)⟩
  match parts, hne with
  | [part], _ =>
    rw [if_neg fun htake => ?_, hwhole]
    · rfl
    · exact ((hparts part List.mem_cons_self).2 _ (hlead _ htake).2).2 rfl
  | part :: next :: rest, _ =>
    have hjoin : join (js ":") (part :: next :: rest) =
        part ++ js ":" ++ join (js ":") (next :: rest) := rfl
    by_cases hmapped : part = js "ffff"
    · have htail : restOfHost (join (js ":") (next :: rest)) = some (join (js ":") (next :: rest)) := by
        refine restOfHost_text (joined_ne_nil (List.cons_ne_nil _ _) fun p hp =>
          (hparts p (List.mem_cons_of_mem _ hp)).1) fun c hc => ?_
        exact unit_of_mem_joined (fun p hp => hparts p (List.mem_cons_of_mem _ hp)) hc
      have hfive : (js "ffff" ++ js ":" ++ join (js ":") (next :: rest)).take 5 = js "ffff:" := rfl
      have hbehind : (js "ffff" ++ js ":" ++ join (js ":") (next :: rest)).drop 5 =
          join (js ":") (next :: rest) := rfl
      rw [hjoin, hmapped, if_pos hfive, hbehind, htail, behindMapped, if_pos rfl]
      rfl
    · rw [if_neg fun htake => ?_, hwhole, behindMapped, if_neg hmapped]
      have hword := (hlead _ htake).1
      rw [hjoin, hfirst part _ List.mem_cons_self] at hword
      exact hmapped hword

/-- Hexadecimal groups alone. -/
theorem embeddedIPv4_groups {gs : List UInt16} (hne : gs ≠ []) {v : Nat} :
    embeddedIPv4 (js "::" ++ join (js ":") (gs.map groupText)) = some v ↔
      ∃ high low : UInt16, v = high.toNat * 65536 + low.toNat ∧
        ((gs = [high, low] ∧ high ≠ 0xffff) ∨ gs = [0xffff, high, low]) := by
  have hfields : ∀ p ∈ gs.map groupText, Field p := by
    intro p hp
    obtain ⟨g, -, rfl⟩ := List.mem_map.1 hp
    exact field_groupText g
  have hnodot : unit '.' ∉ join (js ":") (behindMapped (gs.map groupText)) := by
    intro hmem
    rcases mem_join hmem with hsep | ⟨p, hp, hdot⟩
    · exact absurd (List.mem_singleton.1 hsep) (by decide)
    · obtain ⟨g, -, rfl⟩ := List.mem_map.1 (behindMapped_subset p hp)
      obtain ⟨d, hd, heq⟩ := (plain_groupText g).2 _ hdot
      exact (digit_spec hd).2.2.2.2.2.1 heq.symm
  have hsplit : (join (js ":") (behindMapped (gs.map groupText))).splitOn (unit ':') =
      behindMapped (gs.map groupText) := by
    refine splitOn_join (fun p hp hcolon => ?_) (behindMapped_ne_nil fun hnil =>
      hne (List.map_eq_nil_iff.1 hnil))
    exact ((hfields p (behindMapped_subset p hp)).2 _ hcolon).2 rfl
  have hgroup : ∀ g, isHexGroup (groupText g) = true := by
    intro g
    have hlen : (groupText g).length ≤ 4 :=
      length_numeral (by decide) (by decide) g.toNat_lt
    have hpos : 1 ≤ (groupText g).length := List.length_pos_iff.2 (plain_groupText g).1
    have hall : (groupText g).all isHexUnit = true := by
      refine List.all_eq_true.2 fun c hc => ?_
      obtain ⟨d, hd, rfl⟩ := (plain_groupText g).2 c hc
      exact (digit_spec hd).2.2.2.2.2.2.2
    simp [isHexGroup, hlen, hpos, hall]
  have hvalue : ∀ g, parseInt 16 (groupText g) = g.toNat := fun g => (spells_groupText g).parseInt
  have hffff : groupText 0xffff = js "ffff" := by decide +kernel
  have hmapped : ∀ g, groupText g = js "ffff" ↔ g = 0xffff := fun g =>
    ⟨fun h => groupText_inj (h.trans hffff.symm), fun h => h ▸ hffff⟩
  rw [embeddedIPv4, matchEmbedded_join (fun hnil => hne (List.map_eq_nil_iff.1 hnil)) hfields]
  dsimp only
  rw [if_neg hnodot, hsplit]
  match gs, hne with
  | [g], _ => simp [behindMapped]
  | [g, g'], _ =>
    by_cases hg : g = 0xffff
    · simp [behindMapped, hmapped, hg]
    · simp [behindMapped, hmapped, hg, hgroup, hvalue, eq_comm]
  | [g, g', g''], _ =>
    by_cases hg : g = 0xffff
    · simp [behindMapped, hmapped, hg, hgroup, hvalue, eq_comm]
    · simp [behindMapped, hmapped, hg]
  | g :: g' :: g'' :: last :: rest, _ =>
    by_cases hg : g = 0xffff
    · simp [behindMapped, hmapped, hg]
    · simp [behindMapped, hmapped, hg]

theorem join_concat (sep : JsString) {parts : List JsString} (hne : parts ≠ []) (last : JsString) :
    join sep (parts ++ [last]) = join sep parts ++ sep ++ last := by
  induction parts with
  | nil => exact absurd rfl hne
  | cons p parts ih =>
    cases parts with
    | nil => rfl
    | cons q parts =>
      show p ++ sep ++ join sep (q :: parts ++ [last]) = p ++ sep ++ join sep (q :: parts) ++ sep ++ last
      rw [ih (List.cons_ne_nil _ _)]
      simp only [List.append_assoc]

theorem afterLastColon_join {parts : List JsString} {last : JsString} (h : unit ':' ∉ last) :
    afterLastColon (join (js ":") (parts ++ [last])) = last := by
  have hall : ∀ d ∈ last.reverse, decide (d ≠ unit ':') = true := fun d hd =>
    decide_eq_true fun heq => h (heq ▸ List.mem_reverse.1 hd)
  by_cases hparts : parts = []
  · subst hparts
    show (last.reverse.takeWhile _).reverse = last
    rw [List.takeWhile_eq_self_iff.2 hall, List.reverse_reverse]
  · have hcolon : (js ":").reverse = [unit ':'] := rfl
    rw [join_concat _ hparts, afterLastColon, List.reverse_append, List.reverse_append, hcolon,
      List.takeWhile_append_of_pos hall]
    simp

theorem inetAton_dottedQuad (high low : UInt16) :
    InetAton (dottedQuad high low) (high.toNat * 65536 + low.toNat) := by
  have hpart : ∀ n, AtonPart (numeral 10 n) n := by
    intro n
    by_cases hn : n = 0
    · subst hn
      exact .zero
    · exact .decimal (spells_numeral (by decide) (by decide) n)
        (head_numeral (by decide) (by decide) hn)
  have hhigh := high.toNat_lt
  have hlow := low.toNat_lt
  have hfour := InetAton.four (hpart (high.toNat / 256)) (hpart (high.toNat % 256))
    (hpart (low.toNat / 256)) (hpart (low.toNat % 256)) (by omega) (by omega) (by omega) (by omega)
  have hvalue : high.toNat / 256 * 2 ^ 24 + high.toNat % 256 * 2 ^ 16 + low.toNat / 256 * 2 ^ 8 +
      low.toNat % 256 = high.toNat * 65536 + low.toNat := by omega
  rw [hvalue] at hfour
  exact hfour

/-- A dotted tail decides, whatever groups stand in front of it. -/
theorem embeddedIPv4_dotted (gs : List UInt16) (high low : UInt16) :
    embeddedIPv4 (js "::" ++ join (js ":") (gs.map groupText ++ [dottedQuad high low])) =
      some (high.toNat * 65536 + low.toNat) := by
  have hfields : ∀ p ∈ gs.map groupText ++ [dottedQuad high low], Field p := by
    intro p hp
    rcases List.mem_append.1 hp with hmem | hmem
    · obtain ⟨g, -, rfl⟩ := List.mem_map.1 hmem
      exact field_groupText g
    · rw [List.mem_singleton.1 hmem]
      exact field_dottedQuad high low
  have hbehind : ∃ parts, behindMapped (gs.map groupText ++ [dottedQuad high low]) =
      parts ++ [dottedQuad high low] := by
    match gs with
    | [] => exact ⟨[], rfl⟩
    | [g] =>
      by_cases hg : groupText g = js "ffff"
      · exact ⟨[], by simp [behindMapped, hg]⟩
      · exact ⟨[groupText g], by simp [behindMapped, hg]⟩
    | g :: g' :: gs =>
      by_cases hg : groupText g = js "ffff"
      · exact ⟨groupText g' :: gs.map groupText, by simp [behindMapped, hg]⟩
      · exact ⟨groupText g :: groupText g' :: gs.map groupText, by simp [behindMapped, hg]⟩
  obtain ⟨parts, hparts⟩ := hbehind
  have hcolon : unit ':' ∉ dottedQuad high low := fun hmem => (unit_of_mem_dottedQuad hmem).2 rfl
  have hlast := @afterLastColon_join parts _ hcolon
  have hdot : unit '.' ∈ join (js ":") (parts ++ [dottedQuad high low]) := by
    have hquad : unit '.' ∈ dottedQuad high low :=
      List.mem_append_left _ (List.mem_append_right _ (by decide))
    rw [← hlast] at hquad
    rw [afterLastColon, List.mem_reverse] at hquad
    exact List.mem_reverse.1 ((List.takeWhile_subset _) hquad)
  have hlower : asciiLower (dottedQuad high low) = dottedQuad high low :=
    asciiLower_text fun c hc => (unit_of_mem_dottedQuad hc).1.spec.2.1
  have hparse := parseIPv4_complete (inetAton_dottedQuad high low)
  rw [embeddedIPv4, matchEmbedded_join (by simp) hfields, hparts]
  dsimp only
  rw [if_pos hdot, hlast, ← hlower, hparse]

/-! ### Canonical texts -/

theorem longestZeros_at_start {gs : List UInt16} (h : (longestZeros gs).1 = 0) :
    (longestZeros gs).2 = (gs.takeWhile (· = 0)).length := by
  cases gs with
  | nil => rfl
  | cons g gs =>
    simp only [longestZeros] at h ⊢
    split at h
    · rename_i hle
      rw [if_pos hle]
    · cases h

theorem drop_takeWhile (p : UInt16 → Bool) (gs : List UInt16) :
    gs.drop (gs.takeWhile p).length = gs.dropWhile p := by
  have happend : (gs.takeWhile p ++ gs.dropWhile p).drop (gs.takeWhile p).length =
      gs.dropWhile p := List.drop_left
  rwa [List.takeWhile_append_dropWhile] at happend

/-- A compressed text begins with the compressed run or with its first group. -/
theorem compressed_cases (g : UInt16) {gs : List UInt16} {behind : List JsString}
    (hrest : gs.map groupText ++ behind ≠ []) :
    (((longestZeros (g :: gs)).1 = 0 ∧ 2 ≤ (longestZeros (g :: gs)).2) ∧
      compressed (g :: gs) behind =
        js "::" ++ join (js ":") (((g :: gs).dropWhile (· = 0)).map groupText ++ behind)) ∨
    (¬((longestZeros (g :: gs)).1 = 0 ∧ 2 ≤ (longestZeros (g :: gs)).2) ∧
      ∃ more, compressed (g :: gs) behind = groupText g ++ js ":" ++ more) := by
  unfold compressed
  by_cases hshort : (longestZeros (g :: gs)).2 < 2
  · rw [if_pos hshort]
    refine .inr ⟨fun h => absurd h.2 (Nat.not_le.2 hshort), ?_⟩
    obtain ⟨next, rest, hcons⟩ := List.exists_cons_of_ne_nil hrest
    refine ⟨join (js ":") (next :: rest), ?_⟩
    rw [List.map_cons, List.cons_append, hcons]
    rfl
  rw [if_neg hshort]
  cases hstart : (longestZeros (g :: gs)).1 with
  | zero =>
    refine .inl ⟨⟨rfl, Nat.not_lt.1 hshort⟩, ?_⟩
    rw [Nat.zero_add, longestZeros_at_start hstart, ← List.map_drop, drop_takeWhile]
    rfl
  | succ start =>
    refine .inr ⟨fun h => absurd h.1 (Nat.succ_ne_zero start), ?_⟩
    rw [List.map_cons, List.take_succ_cons]
    generalize join (js ":") (List.drop _ _ ++ behind) = tail
    cases (gs.map groupText).take start with
    | nil =>
      refine ⟨js ":" ++ tail, ?_⟩
      show groupText g ++ js "::" ++ tail = _
      simp only [List.append_assoc]
      rfl
    | cons next rest =>
      refine ⟨join (js ":") (next :: rest) ++ js "::" ++ tail, ?_⟩
      show groupText g ++ js ":" ++ join (js ":") (next :: rest) ++ js "::" ++ tail = _
      simp only [List.append_assoc]

theorem isLinkLocalText_compressed (text : JsString) : isLinkLocalText (js "::" ++ text) = false := by
  have hcolon : decide (unit ':' = unit 'f') = false := by decide
  show isLinkLocalText (unit ':' :: unit ':' :: text) = false
  match text with
  | [] => rfl
  | [_] => rfl
  | [_, _] => rfl
  | _ :: _ :: _ :: _ =>
    simp only [isLinkLocalText, hcolon, Bool.false_and]

/-- Behind a group there is no embedded address. -/
theorem embeddedIPv4_group (g : UInt16) (more : JsString) :
    embeddedIPv4 (groupText g ++ js ":" ++ more) = none := by
  have htake : (groupText g ++ js ":" ++ more).take 2 ≠ js "::" := by
    intro heq
    refine head_ne_colon (field_groupText g) (js ":" ++ more) ?_
    rw [← List.append_assoc, ← List.take_append_drop 2 (groupText g ++ js ":" ++ more), heq]
    rfl
  rw [embeddedIPv4, matchEmbedded, if_neg htake]

theorem linkLocalV4_iff (high low : UInt16) :
    LinkLocalV4 (high.toNat * 65536 + low.toNat) ↔ high = 0xa9fe := by
  have hlow := low.toNat_lt
  have hword : (0xa9fe : UInt16).toNat = 169 * 256 + 254 := by decide
  rw [LinkLocalV4, ← UInt16.toNat_inj, hword]
  omega

/-- The guard takes a text for a link-local address. -/
def Refuses (text : JsString) : Prop :=
  isLinkLocalText text = true ∨ ∃ v, embeddedIPv4 text = some v ∧ LinkLocalV4 v

theorem refuses_group (g : UInt16) (more : JsString) :
    Refuses (groupText g ++ js ":" ++ more) ↔ g.toNat / 2 ^ 6 = 0xfe80 / 2 ^ 6 := by
  rw [Refuses, isLinkLocalText_group, embeddedIPv4_group]
  refine or_iff_left fun h => ?_
  obtain ⟨v, hv, -⟩ := h
  cases hv

/-- Leading zeros of the groups, and what stands behind them. -/
theorem replicate_dropWhile (gs : List UInt16) :
    gs = List.replicate (gs.takeWhile (· = 0)).length 0 ++ gs.dropWhile (· = 0) := by
  have hzeros : gs.takeWhile (· = 0) = List.replicate (gs.takeWhile (· = 0)).length 0 :=
    List.eq_replicate_of_mem fun g hg => by
      simpa using List.mem_takeWhile_imp (p := fun g : UInt16 => decide (g = 0)) hg
  rw [← hzeros, List.takeWhile_append_dropWhile]

/-- The groups of an address, one by one. -/
theorem IPv6.exists_groups (a : IPv6) :
    ∃ g₀ g₁ g₂ g₃ g₄ g₅ g₆ g₇ : UInt16, a.groups = [g₀, g₁, g₂, g₃, g₄, g₅, g₆, g₇] := by
  obtain ⟨groups, height⟩ := a
  match groups, height with
  | [g₀, g₁, g₂, g₃, g₄, g₅, g₆, g₇], _ => exact ⟨g₀, g₁, g₂, g₃, g₄, g₅, g₆, g₇, rfl⟩

/-- A link-local address is embedded, or its first group tells it. -/
theorem IPv6.linkLocal_iff {a : IPv6} {g : UInt16} {gs : List UInt16} (h : a.groups = g :: gs) :
    a.LinkLocal ↔ g.toNat / 2 ^ 6 = 0xfe80 / 2 ^ 6 ∨
      ∃ mapped low : UInt16, (mapped = 0 ∨ mapped = 0xffff) ∧
        g :: gs = [0, 0, 0, 0, 0, mapped, 0xa9fe, low] := by
  constructor
  · rintro (⟨first, rest, hgroups, hfirst⟩ | ⟨v, ⟨mapped, high, low, hm, hgroups, rfl⟩, hlocal⟩)
    · rw [h] at hgroups
      obtain ⟨rfl, -⟩ := List.cons.inj hgroups
      exact .inl hfirst
    · rw [h] at hgroups
      rw [(linkLocalV4_iff high low).1 hlocal] at hgroups
      exact .inr ⟨mapped, low, hm, hgroups⟩
  · rintro (hfirst | ⟨mapped, low, hm, hgroups⟩)
    · exact .inl ⟨g, gs, h, hfirst⟩
    · exact .inr ⟨_, ⟨mapped, 0xa9fe, low, hm, h.trans hgroups, rfl⟩, (linkLocalV4_iff _ low).2 rfl⟩

/-- The guard refuses the hexadecimal text of exactly the link-local addresses. -/
theorem refuses_hexText (a : IPv6) : Refuses a.hexText ↔ a.LinkLocal := by
  obtain ⟨g₀, g₁, g₂, g₃, g₄, g₅, g₆, g₇, hgroups⟩ := a.exists_groups
  rw [IPv6.linkLocal_iff hgroups, IPv6.hexText, hgroups]
  rcases @compressed_cases g₀ [g₁, g₂, g₃, g₄, g₅, g₆, g₇] []
    (by simp) with ⟨⟨hstart, hlen⟩, htext⟩ | ⟨hrun, more, htext⟩
  · -- The text begins with the compressed run.
    have hsplit := replicate_dropWhile [g₀, g₁, g₂, g₃, g₄, g₅, g₆, g₇]
    rw [longestZeros_at_start hstart] at hlen
    have hcount := congrArg List.length hsplit
    rw [List.length_append, List.length_replicate] at hcount
    rw [htext, List.append_nil, Refuses, isLinkLocalText_compressed]
    generalize ([g₀, g₁, g₂, g₃, g₄, g₅, g₆, g₇].takeWhile (· = 0)).length = zeros at hsplit hlen hcount
    generalize hrest : [g₀, g₁, g₂, g₃, g₄, g₅, g₆, g₇].dropWhile (· = 0) = rest at hsplit hcount ⊢
    have hcount' : 8 = zeros + rest.length := hcount
    obtain ⟨zeros, rfl⟩ : ∃ n, zeros = n + 1 := ⟨zeros - 1, by omega⟩
    have hfirst : g₀ = 0 := (List.cons.inj (hsplit.trans (by rw [List.replicate_succ, List.cons_append]))).1
    have hnone : ¬g₀.toNat / 2 ^ 6 = 0xfe80 / 2 ^ 6 := by
      rw [hfirst]
      decide
    rw [or_iff_right Bool.false_ne_true, or_iff_right hnone]
    constructor
    · rintro ⟨v, hv, hlocal⟩
      have hne : rest ≠ [] := by
        rintro rfl
        rw [show embeddedIPv4 (js "::" ++ join (js ":") (List.map groupText [])) = none by decide] at hv
        cases hv
      obtain ⟨high, low, rfl, ⟨rfl, -⟩ | rfl⟩ := (embeddedIPv4_groups hne).1 hv
      · obtain rfl : zeros = 5 := by simpa using hcount'.symm
        obtain rfl := (linkLocalV4_iff high low).1 hlocal
        exact ⟨0, low, .inl rfl, hsplit⟩
      · obtain rfl : zeros = 4 := by simpa using hcount'.symm
        obtain rfl := (linkLocalV4_iff high low).1 hlocal
        exact ⟨0xffff, low, .inr rfl, hsplit⟩
    · rintro ⟨mapped, low, hm, heq⟩
      have hlocal := (linkLocalV4_iff 0xa9fe low).2 rfl
      have hrest' := hrest
      rw [heq] at hrest'
      rcases hm with rfl | rfl
      · have hshape : rest = [0xa9fe, low] := by simpa using hrest'.symm
        exact ⟨_, (embeddedIPv4_groups (by simp [hshape])).2
          ⟨0xa9fe, low, rfl, .inl ⟨hshape, by decide⟩⟩, hlocal⟩
      · have hshape : rest = [0xffff, 0xa9fe, low] := by simpa using hrest'.symm
        exact ⟨_, (embeddedIPv4_groups (by simp [hshape])).2 ⟨0xa9fe, low, rfl, .inr hshape⟩, hlocal⟩
  · rw [htext, refuses_group]
    refine (or_iff_left fun h => hrun ?_).symm
    obtain ⟨mapped, low, hm, heq⟩ := h
    rw [heq]
    rcases hm with rfl | rfl
    · by_cases hlow : low = 0 <;> simp [longestZeros, hlow]
    · by_cases hlow : low = 0 <;> simp [longestZeros, hlow]

/-- The guard goes by the dotted tail of a text that begins with the compressed run, whatever groups
stand in front of the tail. -/
theorem refuses_dottedText (a : IPv6) :
    Refuses a.dottedText ↔
      a.LinkLocal ∨ (js "::" <+: a.dottedText ∧ a.groups.getD 6 0 = 0xa9fe) := by
  obtain ⟨g₀, g₁, g₂, g₃, g₄, g₅, g₆, g₇, hgroups⟩ := a.exists_groups
  have hdotted : a.dottedText = compressed [g₀, g₁, g₂, g₃, g₄, g₅] [dottedQuad g₆ g₇] := by
    rw [IPv6.dottedText, hgroups]
    rfl
  have hsixth : a.groups.getD 6 0 = g₆ := by
    rw [hgroups]
    rfl
  rw [IPv6.linkLocal_iff hgroups, hdotted, hsixth]
  rcases @compressed_cases g₀ [g₁, g₂, g₃, g₄, g₅] [dottedQuad g₆ g₇]
    (by simp) with ⟨⟨hstart, hlen⟩, htext⟩ | ⟨hrun, more, htext⟩
  · have hsplit := replicate_dropWhile [g₀, g₁, g₂, g₃, g₄, g₅]
    rw [longestZeros_at_start hstart] at hlen
    generalize ([g₀, g₁, g₂, g₃, g₄, g₅].takeWhile (· = 0)).length = zeros at hsplit hlen
    obtain ⟨zeros, rfl⟩ : ∃ n, zeros = n + 1 := ⟨zeros - 1, by omega⟩
    have hfirst : g₀ = 0 := (List.cons.inj (hsplit.trans (by rw [List.replicate_succ, List.cons_append]))).1
    have hnone : ¬g₀.toNat / 2 ^ 6 = 0xfe80 / 2 ^ 6 := by
      rw [hfirst]
      decide
    rw [htext, Refuses, isLinkLocalText_compressed, embeddedIPv4_dotted,
      or_iff_right Bool.false_ne_true, or_iff_right hnone]
    constructor
    · rintro ⟨v, hv, hlocal⟩
      rw [← Option.some.inj hv] at hlocal
      exact .inr ⟨List.prefix_append _ _, (linkLocalV4_iff g₆ g₇).1 hlocal⟩
    · rintro (⟨mapped, low, -, heq⟩ | ⟨-, hword⟩)
      · refine ⟨_, rfl, (linkLocalV4_iff g₆ g₇).2 ?_⟩
        simp only [List.cons.injEq] at heq
        exact heq.2.2.2.2.2.2.1
      · exact ⟨_, rfl, (linkLocalV4_iff g₆ g₇).2 hword⟩
  · rw [htext, refuses_group]
    have hembeds : ¬∃ mapped low : UInt16, (mapped = 0 ∨ mapped = 0xffff) ∧
        [g₀, g₁, g₂, g₃, g₄, g₅, g₆, g₇] = [0, 0, 0, 0, 0, mapped, 0xa9fe, low] := by
      rintro ⟨mapped, low, hm, heq⟩
      simp only [List.cons.injEq] at heq
      obtain ⟨rfl, rfl, rfl, rfl, rfl, rfl, -⟩ := heq
      rcases hm with rfl | rfl <;> exact hrun (by decide)
    have hprefix : ¬js "::" <+: groupText g₀ ++ js ":" ++ more := by
      rintro ⟨rest, heq⟩
      refine head_ne_colon (field_groupText g₀) (js ":" ++ more) ?_
      rw [← List.append_assoc, ← heq]
      rfl
    rw [or_iff_left hembeds, or_iff_left fun h => hprefix h.1]

/-! ### A canonical text is a text -/

/-- The longest run of zeros is one. -/
theorem longestZeros_split (gs : List UInt16) :
    gs = gs.take (longestZeros gs).1 ++ List.replicate (longestZeros gs).2 0 ++
      gs.drop ((longestZeros gs).1 + (longestZeros gs).2) := by
  induction gs with
  | nil => rfl
  | cons g gs ih =>
    by_cases hle : (longestZeros gs).2 ≤ ((g :: gs).takeWhile (· = 0)).length
    · have hrun : longestZeros (g :: gs) = (0, ((g :: gs).takeWhile (· = 0)).length) := if_pos hle
      rw [hrun, Nat.zero_add, drop_takeWhile]
      exact replicate_dropWhile (g :: gs)
    · have hrun : longestZeros (g :: gs) = ((longestZeros gs).1 + 1, (longestZeros gs).2) := if_neg hle
      have hdrop : (longestZeros gs).1 + 1 + (longestZeros gs).2 =
          (longestZeros gs).1 + (longestZeros gs).2 + 1 := by omega
      rw [hrun, hdrop, List.take_succ_cons, List.drop_succ_cons, List.cons_append, List.cons_append,
        ← ih]

theorem forall₂_groupText (gs : List UInt16) : List.Forall₂ GroupText (gs.map groupText) gs := by
  induction gs with
  | nil => exact .nil
  | cons g gs ih =>
    exact .cons ⟨length_numeral (by decide) (by decide) g.toNat_lt, spells_groupText g⟩ ih

/-- Compressed groups are a text of the address they and the groups behind them make. -/
theorem text_compressed {a : IPv6} {gs tail : List UInt16} {behind : List JsString}
    (hgroups : a.groups = gs ++ tail)
    (hbehind : ∀ front : List UInt16, GroupTexts (front.map groupText ++ behind) (front ++ tail)) :
    a.Text (compressed gs behind) := by
  unfold compressed
  dsimp only
  split
  · exact .full (hgroups ▸ hbehind gs)
  rename_i hrun
  rw [← List.map_take, ← List.map_drop]
  refine .short (forall₂_groupText _) (hbehind _) (Nat.le_of_lt (Nat.not_lt.1 hrun)) ?_
  rw [hgroups]
  conv_lhs => rw [longestZeros_split gs]
  rw [List.append_assoc]

theorem quadText_dottedQuad (high low : UInt16) : QuadText (dottedQuad high low) high low := by
  have hspells : ∀ n, Spells 10 (numeral 10 n) n := spells_numeral (by decide) (by decide)
  refine ⟨_, _, _, _, _, _, _, _, rfl, hspells _, hspells _, hspells _, hspells _,
    Nat.mod_lt _ (by decide), Nat.mod_lt _ (by decide), ?_, ?_⟩
  · exact (Nat.div_add_mod' high.toNat 256).symm
  · exact (Nat.div_add_mod' low.toNat 256).symm

/-- A canonical text is a numeric address. -/
theorem IPv6.Canonical.numeric {a : IPv6} {s : JsString} (h : a.Canonical s) : NumericAddress s := by
  rcases h with hs | hs
  · refine .inr ⟨a, a.hexText, text_compressed (List.append_nil _).symm fun front => ?_, hs⟩
    rw [List.append_nil, List.append_nil]
    exact .hex (forall₂_groupText front)
  obtain ⟨g₀, g₁, g₂, g₃, g₄, g₅, g₆, g₇, hgroups⟩ := a.exists_groups
  have htail : a.groups = a.groups.take 6 ++ [a.groups.getD 6 0, a.groups.getD 7 0] := by
    rw [hgroups]
    rfl
  exact .inr ⟨a, a.dottedText, text_compressed htail fun front =>
    .dotted (forall₂_groupText front) (quadText_dottedQuad _ _), hs⟩

end Dormouse.Host

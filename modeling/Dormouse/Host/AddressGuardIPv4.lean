import Dormouse.Host.AddressGuard
import Dormouse.Host.AddressText

/-!
# Dormouse.Host.AddressGuardIPv4

**IPv4 addresses as the guard reads them**: `parseIPv4` reads exactly what `inet_aton` reads, in
either case of the letters.
-/

namespace Dormouse.Host

open JsString

/-! ### Characters -/

theorem digitValue_eq_some {c : UInt16} {d : Nat} (h : digitValue c = some d) :
    (0x30 ≤ c.toNat ∧ c.toNat ≤ 0x39 ∧ d = c.toNat - 0x30) ∨
      (0x61 ≤ c.toNat ∧ c.toNat ≤ 0x66 ∧ d = c.toNat - 0x57) ∨
      (0x41 ≤ c.toNat ∧ c.toNat ≤ 0x46 ∧ d = c.toNat - 0x37) := by
  unfold digitValue at h
  split at h
  · rename_i hc
    exact .inl ⟨hc.1, hc.2, (Option.some.inj h).symm⟩
  split at h
  · rename_i hc
    exact .inr (.inl ⟨hc.1, hc.2, (Option.some.inj h).symm⟩)
  · split at h
    · rename_i hc
      exact .inr (.inr ⟨hc.1, hc.2, (Option.some.inj h).symm⟩)
    · cases h

theorem isDigit_iff_value {c : UInt16} : isDigit c = true ↔ ∃ d < 10, digitValue c = some d := by
  simp only [isDigit, Bool.and_eq_true, decide_eq_true_eq, UInt16.le_iff_toNat_le, UInt16.reduceToNat]
  constructor
  · intro hc
    exact ⟨c.toNat - 0x30, by omega, if_pos hc⟩
  · rintro ⟨d, hd, hvalue⟩
    rcases digitValue_eq_some hvalue with h | h | h <;> omega

theorem isOctalUnit_iff {c : UInt16} : isOctalUnit c = true ↔ ∃ d < 8, digitValue c = some d := by
  simp only [isOctalUnit, Bool.and_eq_true, decide_eq_true_eq, UInt16.le_iff_toNat_le,
    UInt16.reduceToNat]
  constructor
  · intro hc
    exact ⟨c.toNat - 0x30, by omega, if_pos ⟨hc.1, by omega⟩⟩
  · rintro ⟨d, hd, hvalue⟩
    rcases digitValue_eq_some hvalue with h | h | h <;> omega

/-- The lower-case hexadecimal digits. -/
theorem isHexUnit_iff {c : UInt16} :
    isHexUnit c = true ↔ (∃ d < 16, digitValue c = some d) ∧ isUpper c = false := by
  have hupper : isUpper c = false ↔ ¬(0x41 ≤ c.toNat ∧ c.toNat ≤ 0x5A) := by
    rw [← Bool.not_eq_true, isUpper_iff]
  simp only [isHexUnit, isDigit, Bool.or_eq_true, Bool.and_eq_true, decide_eq_true_eq,
    UInt16.le_iff_toNat_le, UInt16.reduceToNat, hupper]
  constructor
  · rintro (hc | hc)
    · exact ⟨⟨c.toNat - 0x30, by omega, if_pos hc⟩, by omega⟩
    · refine ⟨⟨c.toNat - 0x57, by omega, ?_⟩, by omega⟩
      rw [digitValue, if_neg (by omega), if_pos hc]
  · rintro ⟨⟨d, hd, hvalue⟩, hlow⟩
    rcases digitValue_eq_some hvalue with h | h | h <;> omega

/-- The case of a digit does not change its value. -/
theorem digitValue_lowerUnit {c : UInt16} {d : Nat} (h : digitValue c = some d) :
    digitValue (lowerUnit c) = some d := by
  by_cases hupper : isUpper c = true
  · have hbound := isUpper_iff.1 hupper
    have hlower := lowerUnit_of_upper hupper
    rcases digitValue_eq_some h with hc | hc | hc
    · omega
    · omega
    · rw [digitValue, if_neg (by omega), if_pos (by omega)]
      exact congrArg some (by omega)
  · rw [Bool.not_eq_true] at hupper
    rw [lowerUnit_of_not hupper, h]

theorem spells_asciiLower {base n : Nat} {text : JsString} (h : Spells base text n) :
    Spells base (asciiLower text) n := by
  obtain ⟨ds, hne, hdigits, hbound, hn⟩ := h
  refine ⟨ds, hne, ?_, hbound, hn⟩
  rw [asciiLower_eq, List.map_map, ← hdigits]
  refine List.map_congr_left fun c hc => ?_
  have hmem : digitValue c ∈ ds.map some := hdigits ▸ List.mem_map_of_mem hc
  obtain ⟨d, -, heq⟩ := List.mem_map.1 hmem
  rw [Function.comp_apply, digitValue_lowerUnit heq.symm, heq]

/-! ### IPv4 -/

theorem all_digits {p : UInt16 → Bool} {base n : Nat} {text : JsString} (h : Spells base text n)
    (hp : ∀ c, (∃ d < base, digitValue c = some d) → p c = true) : text.all p = true :=
  List.all_eq_true.2 fun c hc => hp c (h.digit hc)

/-- A part is what `inet_aton` makes of it. -/
theorem parseIPv4Part_sound {part : JsString} {n : Nat} (h : parseIPv4Part part = some n) :
    AtonPart part n := by
  unfold parseIPv4Part at h
  split at h
  · rename_i hhex
    obtain ⟨hlead, hne, hall⟩ := hhex
    cases h
    have hpart : part = unit '0' :: unit 'x' :: part.drop 2 := by
      conv_lhs => rw [← List.take_append_drop 2 part, hlead]
      rfl
    rw [hpart]
    exact .hex (.inl rfl) (spells_parseInt hne fun c hc =>
      (isHexUnit_iff.1 (List.all_eq_true.1 hall c hc)).1)
  split at h
  · rename_i hoctal
    obtain ⟨hlead, hne, hall⟩ := hoctal
    cases h
    have hpart : part = unit '0' :: part.tail := (List.cons_head?_tail hlead).symm
    have hspells : Spells 8 part.tail (parseInt 8 part.tail) :=
      spells_parseInt hne fun c hc => isOctalUnit_iff.1 (List.all_eq_true.1 hall c hc)
    have hvalue : parseInt 8 part = parseInt 8 part.tail := by
      conv_lhs => rw [hpart]
      rfl
    rw [hvalue]
    conv_lhs => rw [hpart]
    exact .octal hspells
  split at h
  · rename_i hdecimal
    cases h
    rcases hdecimal with rfl | ⟨hne, hhead, hall⟩
    · exact .zero
    · exact .decimal (spells_parseInt hne fun c hc =>
        isDigit_iff_value.1 (List.all_eq_true.1 hall c hc)) hhead
  · cases h

theorem parseIPv4Part_complete {part : JsString} {n : Nat} (h : AtonPart part n) :
    parseIPv4Part (asciiLower part) = some n := by
  cases h with
  | zero => decide
  | decimal hspells hhead =>
    have hlower := spells_asciiLower hspells
    have hhead' : (asciiLower part).head? ≠ some (unit '0') := by
      rcases part with _ | ⟨c, part⟩
      · exact fun h => by cases h
      intro heq
      have hc : lowerUnit c = unit '0' := Option.some.inj heq
      have hnat := congrArg UInt16.toNat hc
      have hzero : (unit '0').toNat = 0x30 := by decide
      by_cases hupper : isUpper c = true
      · have := isUpper_iff.1 hupper
        have := lowerUnit_of_upper hupper
        omega
      · rw [Bool.not_eq_true] at hupper
        rw [lowerUnit_of_not hupper] at hc
        exact hhead (by rw [List.head?_cons, hc])
    have hhex : (asciiLower part).take 2 ≠ js "0x" := by
      intro heq
      apply hhead'
      rw [← List.take_append_drop 2 (asciiLower part), heq]
      rfl
    rw [parseIPv4Part, if_neg fun h => hhex h.1, if_neg fun h => hhead' h.1, if_pos, hlower.parseInt]
    exact .inr ⟨hlower.ne_nil, hhead', all_digits hlower fun c => isDigit_iff_value.2⟩
  | @octal text n hspells =>
    have hlower := spells_asciiLower hspells
    have hall := all_digits hlower fun c => isOctalUnit_iff.2
    have hpart : asciiLower (unit '0' :: text) = unit '0' :: asciiLower text := rfl
    have hhex : (unit '0' :: asciiLower text).take 2 ≠ js "0x" := by
      cases htext : asciiLower text with
      | nil => decide
      | cons c rest =>
        intro heq
        have hc : c = unit 'x' := (List.cons.inj (List.cons.inj heq).2).1
        rw [htext, hc, List.all_cons] at hall
        exact absurd hall (by simp [show isOctalUnit (unit 'x') = false by decide])
    rw [hpart, parseIPv4Part, if_neg fun h => hhex h.1, if_pos ⟨rfl, hlower.ne_nil, hall⟩]
    exact congrArg some hlower.parseInt
  | @hex x text n hx hspells =>
    have hlower := spells_asciiLower hspells
    have hpart : asciiLower (unit '0' :: x :: text) = unit '0' :: unit 'x' :: asciiLower text := by
      rcases hx with rfl | rfl <;> rfl
    have hall : (asciiLower text).all isHexUnit = true := by
      refine List.all_eq_true.2 fun c hc => isHexUnit_iff.2 ⟨hlower.digit hc, ?_⟩
      obtain ⟨c', -, rfl⟩ := List.mem_map.1 hc
      exact isUpper_lowerUnit c'
    rw [hpart, parseIPv4Part, if_pos ⟨rfl, hlower.ne_nil, hall⟩]
    exact congrArg some hlower.parseInt

/-- What stands in a part. -/
theorem AtonPart.unit_of_mem {part : JsString} {n : Nat} (h : AtonPart part n) {c : UInt16}
    (hc : c ∈ part) : (∃ d < 16, digitValue c = some d) ∨ c = unit 'x' ∨ c = unit 'X' := by
  have hmono : ∀ {base text m}, base ≤ 16 → Spells base text m → c ∈ text →
      ∃ d < 16, digitValue c = some d := by
    intro base text m hbase hspells hmem
    obtain ⟨d, hd, hvalue⟩ := hspells.digit hmem
    exact ⟨d, hd.trans_le hbase, hvalue⟩
  cases h with
  | zero => exact .inl ⟨0, by decide, by rw [List.mem_singleton.1 hc]; decide⟩
  | decimal hspells => exact .inl (hmono (by decide) hspells hc)
  | octal hspells =>
    rcases List.mem_cons.1 hc with rfl | hmem
    · exact .inl ⟨0, by decide, by decide⟩
    · exact .inl (hmono (by decide) hspells hmem)
  | hex hx hspells =>
    rcases List.mem_cons.1 hc with rfl | hrest
    · exact .inl ⟨0, by decide, by decide⟩
    rcases List.mem_cons.1 hrest with rfl | hmem
    · exact .inr hx
    · exact .inl (hmono (by decide) hspells hmem)

theorem splitOn_join {c : UInt16} {parts : List JsString} (hparts : ∀ p ∈ parts, c ∉ p)
    (hne : parts ≠ []) : (join [c] parts).splitOn c = parts := by
  rw [join_eq_intercalate]
  exact List.splitOn_intercalate _ hparts hne

theorem join_splitOn (c : UInt16) (text : JsString) : join [c] (text.splitOn c) = text := by
  rw [join_eq_intercalate, List.intercalate_splitOn]

theorem map_join (f : UInt16 → UInt16) (sep : JsString) (parts : List JsString) :
    (join sep parts).map f = join (sep.map f) (parts.map (List.map f)) := by
  fun_induction join sep parts with
  | case1 => rfl
  | case2 s => rfl
  | case3 s ss hne ih =>
    cases ss with
    | nil => exact absurd rfl (hne)
    | cons t ss =>
      rw [List.map_append, List.map_append, ih]
      rfl

theorem mem_join {sep : JsString} {parts : List JsString} {c : UInt16} (h : c ∈ join sep parts) :
    c ∈ sep ∨ ∃ p ∈ parts, c ∈ p := by
  fun_induction join sep parts with
  | case1 => cases h
  | case2 s => exact .inr ⟨s, List.mem_singleton.2 rfl, h⟩
  | case3 s ss hne ih =>
    rcases List.mem_append.1 h with hfirst | hrest
    · rcases List.mem_append.1 hfirst with hs | hsep
      · exact .inr ⟨s, List.mem_cons_self, hs⟩
      · exact .inl hsep
    · rcases ih hrest with hsep | ⟨p, hp, hc⟩
      · exact .inl hsep
      · exact .inr ⟨p, List.mem_cons_of_mem _ hp, hc⟩

/-- Digits, the mark of hexadecimal and the dot. -/
def IPv4Unit (c : UInt16) : Prop :=
  (∃ d < 16, digitValue c = some d) ∨ c = unit 'x' ∨ c = unit 'X' ∨ c = unit '.'

theorem InetAton.unit_of_mem {s : JsString} {v : Nat} (h : InetAton s v) {c : UInt16} (hc : c ∈ s) :
    IPv4Unit c := by
  have hpart : ∀ {part n}, AtonPart part n → c ∈ part → IPv4Unit c := by
    intro part n hpart hmem
    rcases hpart.unit_of_mem hmem with hdigit | hx | hx
    · exact .inl hdigit
    · exact .inr (.inl hx)
    · exact .inr (.inr (.inl hx))
  have hdot : c ∈ js "." → IPv4Unit c := fun hmem => .inr (.inr (.inr (List.mem_singleton.1 hmem)))
  cases h with
  | one ha => exact hpart ha hc
  | two ha hb =>
    rcases mem_join hc with hsep | ⟨p, hp, hmem⟩
    · exact hdot hsep
    · simp only [List.mem_cons, List.not_mem_nil, or_false] at hp
      rcases hp with rfl | rfl
      · exact hpart ha hmem
      · exact hpart hb hmem
  | three ha hb hcc =>
    rcases mem_join hc with hsep | ⟨p, hp, hmem⟩
    · exact hdot hsep
    · simp only [List.mem_cons, List.not_mem_nil, or_false] at hp
      rcases hp with rfl | rfl | rfl
      · exact hpart ha hmem
      · exact hpart hb hmem
      · exact hpart hcc hmem
  | four ha hb hcc hd =>
    rcases mem_join hc with hsep | ⟨p, hp, hmem⟩
    · exact hdot hsep
    simp only [List.mem_cons, List.not_mem_nil, or_false] at hp
    rcases hp with rfl | rfl | rfl | rfl
    · exact hpart ha hmem
    · exact hpart hb hmem
    · exact hpart hcc hmem
    · exact hpart hd hmem

/-- A unit of a numeric IPv4 address is ASCII, and no colon and no bracket. -/
theorem IPv4Unit.spec {c : UInt16} (h : IPv4Unit c) :
    c < 0x80 ∧ c ≠ unit ':' ∧ c ≠ unit '[' ∧ c ≠ unit ']' := by
  have hcolon : (unit ':').toNat = 0x3A := by decide
  have hopen : (unit '[').toNat = 0x5B := by decide
  have hclose : (unit ']').toNat = 0x5D := by decide
  rcases h with ⟨d, -, hvalue⟩ | rfl | rfl | rfl
  · have hc := digitValue_eq_some hvalue
    have hascii : c.toNat < (0x80 : UInt16).toNat := by
      simp only [UInt16.reduceToNat]
      omega
    refine ⟨hascii, ?_, ?_, ?_⟩
    · rintro rfl
      omega
    · rintro rfl
      omega
    · rintro rfl
      omega
  · decide
  · decide
  · decide

/-- A unit of a part is no dot. -/
theorem AtonPart.dot_not_mem {part : JsString} {n : Nat} (h : AtonPart part n) : unit '.' ∉ part := by
  intro hmem
  have hnone : digitValue (unit '.') = none := by decide
  rcases h.unit_of_mem hmem with ⟨d, -, hvalue⟩ | hx | hx
  · rw [hnone] at hvalue
    cases hvalue
  · exact absurd hx (by decide)
  · exact absurd hx (by decide)

/-- The bytes of the parts before the last, in their places. The base is a variable: the kernel counts
large literals down one by one. -/
def placed (base : Nat) (bytes : List Nat) (last : Nat) : Nat :=
  bytes.zipIdx.foldl (fun value n => value + n.1 * base ^ (3 - n.2)) last

theorem placed_one (base m n : Nat) : placed base [m] n = m * base ^ 3 + n := by
  simp [placed, Nat.add_comm]

theorem placed_two (base l m n : Nat) :
    placed base [l, m] n = l * base ^ 3 + m * base ^ 2 + n := by
  simp only [placed, List.zipIdx_cons, List.zipIdx_nil, List.foldl_cons, List.foldl_nil]
  ring

theorem placed_three (base k l m n : Nat) :
    placed base [k, l, m] n = k * base ^ 3 + l * base ^ 2 + m * base ^ 1 + n := by
  simp only [placed, List.zipIdx_cons, List.zipIdx_nil, List.foldl_cons, List.foldl_nil]
  ring

/-- The parts of a text spell bytes and a last number that fits what they leave. -/
theorem parseIPv4_of_split {t : JsString} {parts : List JsString} {bytes : List Nat} {last : Nat}
    (hsplit : t.splitOn (unit '.') = parts) (hnums : parts.mapM parseIPv4Part = some (bytes ++ [last]))
    (hcount : parts.length = bytes.length + 1) (hfour : bytes.length < 4)
    (hbytes : ∀ n ∈ bytes, n < 2 ^ 8) (hlast : last < 256 ^ (4 - bytes.length)) :
    parseIPv4 t = if placed 256 bytes last < 2 ^ 32 then some (placed 256 bytes last) else none := by
  have hany : ¬(bytes.any (0xff < ·) = true) := by
    intro hany
    obtain ⟨n, hn, hbig⟩ := List.any_eq_true.1 hany
    have := hbytes n hn
    rw [decide_eq_true_eq] at hbig
    omega
  have hfits : ¬(256 ^ (5 - (bytes ++ [last]).length) - 1 < last) := by
    rw [List.length_append, List.length_singleton, show 5 - (bytes.length + 1) = 4 - bytes.length by omega]
    exact Nat.not_lt.2 (Nat.le_sub_one_of_lt hlast)
  have hinit : (bytes ++ [last]).dropLast = bytes := List.dropLast_concat
  have hend : (bytes ++ [last]).getLastD 0 = last := List.getLastD_concat
  rw [parseIPv4, hsplit, hnums]
  dsimp only
  rw [if_neg (by omega), hinit, hend, if_neg hany, if_neg hfits]
  rfl

theorem parseIPv4_complete {s : JsString} {v : Nat} (h : InetAton s v) :
    parseIPv4 (asciiLower s) = some v := by
  have hpart : ∀ {part n}, AtonPart part n →
      parseIPv4Part (asciiLower part) = some n ∧ unit '.' ∉ asciiLower part := by
    intro part n hpart
    refine ⟨parseIPv4Part_complete hpart, fun hmem => ?_⟩
    obtain ⟨c, hc, hdot⟩ := List.mem_map.1 hmem
    by_cases hupper : isUpper c = true
    · have hbound := isUpper_iff.1 hupper
      have hlower := lowerUnit_of_upper hupper
      have hnat := congrArg UInt16.toNat hdot
      rw [show (unit '.').toNat = 0x2E by decide] at hnat
      change (lowerUnit c).toNat = _ at hnat
      omega
    · rw [Bool.not_eq_true] at hupper
      change lowerUnit c = _ at hdot
      rw [lowerUnit_of_not hupper] at hdot
      exact hpart.dot_not_mem (hdot ▸ hc)
  have hsplit : ∀ parts : List JsString, (∀ p ∈ parts, unit '.' ∉ asciiLower p) → parts ≠ [] →
      (asciiLower (join (js ".") parts)).splitOn (unit '.') = parts.map asciiLower := by
    intro parts hparts hne
    have hlower : asciiLower (join (js ".") parts) = join [unit '.'] (parts.map asciiLower) :=
      map_join lowerUnit (js ".") parts
    rw [hlower]
    refine splitOn_join (fun p hp => ?_) (fun hnil => hne (List.map_eq_nil_iff.1 hnil))
    obtain ⟨q, hq, rfl⟩ := List.mem_map.1 hp
    exact hparts q hq
  have hpow : (256 : Nat) ^ 3 = 2 ^ 24 ∧ (256 : Nat) ^ 2 = 2 ^ 16 ∧ (256 : Nat) ^ 1 = 2 ^ 8 := by
    norm_num
  cases h with
  | one ha hn =>
    have hone := hsplit [s] (by simpa using (hpart ha).2) (List.cons_ne_nil _ _)
    rw [join] at hone
    have hparse := @parseIPv4_of_split _ _ [] v hone (by simp [(hpart ha).1]) rfl (by decide)
      (fun n hn => absurd hn List.not_mem_nil) (by simpa using hn)
    rw [hparse]
    exact if_pos hn
  | two ha hb hm hn =>
    rename_i a b m n
    have htwo := hsplit [a, b] (by simpa using ⟨(hpart ha).2, (hpart hb).2⟩) (List.cons_ne_nil _ _)
    have hparse := @parseIPv4_of_split _ _ [m] n htwo (by simp [(hpart ha).1, (hpart hb).1]) rfl
      (show 1 < 4 by decide) (by simpa using hm) (hpow.1 ▸ hn)
    rw [hparse, placed_one, hpow.1]
    exact if_pos (by omega)
  | three ha hb hc hl hm hn =>
    rename_i a b c l m n
    have hthree := hsplit [a, b, c]
      (by simpa using ⟨(hpart ha).2, (hpart hb).2, (hpart hc).2⟩) (List.cons_ne_nil _ _)
    have hparse := @parseIPv4_of_split _ _ [l, m] n hthree
      (by simp [(hpart ha).1, (hpart hb).1, (hpart hc).1]) rfl
      (show 2 < 4 by decide) (by simpa using ⟨hl, hm⟩) (hpow.2.1 ▸ hn)
    rw [hparse, placed_two, hpow.1, hpow.2.1]
    exact if_pos (by omega)
  | four ha hb hc hd hk hl hm hn =>
    rename_i a b c d k l m n
    have hfour := hsplit [a, b, c, d]
      (by simpa using ⟨(hpart ha).2, (hpart hb).2, (hpart hc).2, (hpart hd).2⟩)
      (List.cons_ne_nil _ _)
    have hparse := @parseIPv4_of_split _ _ [k, l, m] n hfour
      (by simp [(hpart ha).1, (hpart hb).1, (hpart hc).1, (hpart hd).1]) rfl
      (show 3 < 4 by decide) (by simpa using ⟨hk, hl, hm⟩) (hpow.2.2 ▸ hn)
    rw [hparse, placed_three, hpow.1, hpow.2.1, hpow.2.2]
    exact if_pos (by omega)

theorem forall₂_of_mapM {parts : List JsString} {nums : List Nat}
    (h : parts.mapM parseIPv4Part = some nums) : List.Forall₂ AtonPart parts nums := by
  induction parts generalizing nums with
  | nil =>
    cases h
    exact .nil
  | cons part parts ih =>
    rw [List.mapM_cons] at h
    obtain ⟨n, hn, hrest⟩ := Option.bind_eq_some_iff.1 h
    obtain ⟨ns, hns, heq⟩ := Option.bind_eq_some_iff.1 hrest
    cases heq
    exact .cons (parseIPv4Part_sound hn) (ih hns)

theorem parseIPv4_sound {t : JsString} {v : Nat} (h : parseIPv4 t = some v) : InetAton t v := by
  have ht : join (js ".") (t.splitOn (unit '.')) = t := join_splitOn _ t
  have hpow : (256 : Nat) ^ 3 = 2 ^ 24 ∧ (256 : Nat) ^ 2 = 2 ^ 16 ∧ (256 : Nat) ^ 1 = 2 ^ 8 := by
    norm_num
  rw [parseIPv4] at h
  generalize t.splitOn (unit '.') = parts at h ht
  dsimp only at h
  split at h
  · cases h
  rename_i hlen
  split at h
  · cases h
  rename_i nums hnums
  have hparts := forall₂_of_mapM hnums
  have hcount := hparts.length_eq
  split at h
  · cases h
  rename_i hbytes
  split at h
  · cases h
  rename_i hlast
  split at h
  swap
  · cases h
  rename_i hvalue
  -- What the bytes before the last come to.
  have hplaced : placed 256 nums.dropLast (nums.getLastD 0) = v := Option.some.inj h
  have hlt : ∀ n ∈ nums.dropLast, n < 2 ^ 8 := by
    have hall : ∀ n ∈ nums.dropLast, n ≤ 255 := by simpa using hbytes
    exact fun n hn => Nat.lt_succ_of_le (hall n hn)
  subst ht
  cases hparts with
  | nil => exact absurd (.inl rfl) hlen
  | cons ha hparts =>
  cases hparts with
  | nil =>
    have hv : _ = v := hplaced
    subst hv
    exact .one ha hvalue
  | cons hb hparts =>
  cases hparts with
  | nil =>
    rename_i m _ n
    rw [show placed 256 [m, n].dropLast ([m, n].getLastD 0) = placed 256 [m] n from rfl, placed_one,
      hpow.1] at hplaced
    have hn : n ≤ 256 ^ 3 - 1 := Nat.not_lt.1 hlast
    rw [hpow.1] at hn
    exact hplaced ▸ .two ha hb (hlt m List.mem_cons_self) (by omega)
  | cons hc hparts =>
  cases hparts with
  | nil =>
    rename_i l _ m _ n
    rw [show placed 256 [l, m, n].dropLast ([l, m, n].getLastD 0) = placed 256 [l, m] n from rfl,
      placed_two, hpow.1, hpow.2.1] at hplaced
    have hn : n ≤ 256 ^ 2 - 1 := Nat.not_lt.1 hlast
    rw [hpow.2.1] at hn
    exact hplaced ▸ .three ha hb hc (hlt l List.mem_cons_self)
      (hlt m (List.mem_cons_of_mem _ List.mem_cons_self)) (by omega)
  | cons hd hparts =>
  cases hparts with
  | nil =>
    rename_i k _ l _ m _ n
    rw [show placed 256 [k, l, m, n].dropLast ([k, l, m, n].getLastD 0) = placed 256 [k, l, m] n
      from rfl, placed_three, hpow.1, hpow.2.1, hpow.2.2] at hplaced
    have hn : n ≤ 256 ^ 1 - 1 := Nat.not_lt.1 hlast
    rw [hpow.2.2] at hn
    exact hplaced ▸ .four ha hb hc hd (hlt k List.mem_cons_self)
      (hlt l (List.mem_cons_of_mem _ List.mem_cons_self))
      (hlt m (List.mem_cons_of_mem _ (List.mem_cons_of_mem _ List.mem_cons_self))) (by omega)
  | cons he hparts =>
    refine absurd (.inr ?_) hlen
    simp only [List.length_cons]
    omega

end Dormouse.Host

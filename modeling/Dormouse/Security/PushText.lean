import Mathlib.Data.List.Chain
import Dormouse.Lib.Trimming
import Dormouse.Security.Ceremony

/-!
# Dormouse.Security.PushText

**Bounding a text once is enough**: `boundedPushText` leaves what it returned as it is, so the
worker that bounds a notification again shows what the Burrow sealed.

The steps do not undo each other: after the first three nothing of what they look for is left, a
cut keeps it that way, and trimming the cut makes it no longer.
-/

namespace Dormouse

namespace Security

open JsString (isWhitespace codePoints trim Trimmed)

/-! ### Blanks -/

/-- Every blank is a space, and no two stand together. -/
structure Spaced (s : JsString) : Prop where
  space : ∀ c ∈ s, isWhitespace c = true → c = unit ' '
  single : s.IsChain fun c d => isWhitespace c = true → isWhitespace d = false

theorem Spaced.within {s t : JsString} (h : Spaced t) (hwithin : s <:+: t) : Spaced s :=
  ⟨fun c hc => h.space c (hwithin.subset hc), List.IsChain.infix h.single hwithin⟩

theorem collapseWhitespace_cons {c : UInt16} (h : isWhitespace c = false) (rest : JsString) :
    collapseWhitespace (c :: rest) = c :: collapseWhitespace rest := by
  cases rest with
  | nil => simp [collapseWhitespace, h]
  | cons d rest => rw [collapseWhitespace, if_neg (by simp [h])]

theorem mem_collapseWhitespace {s : JsString} {c : UInt16} (h : c ∈ collapseWhitespace s) :
    c = unit ' ' ∨ (c ∈ s ∧ isWhitespace c = false) := by
  fun_induction collapseWhitespace s with
  | case1 => cases h
  | case2 d hd => exact .inl (List.mem_singleton.1 h)
  | case3 d hd =>
    obtain rfl := List.mem_singleton.1 h
    exact .inr ⟨h, by simpa using hd⟩
  | case4 d e rest hd he ih => exact (ih h).imp_right (.imp_left (List.mem_cons_of_mem d))
  | case5 d e rest hd he ih =>
    rcases List.mem_cons.1 h with heq | hrest
    · exact .inl heq
    · exact (ih hrest).imp_right (.imp_left (List.mem_cons_of_mem d))
  | case6 d e rest hd ih =>
    rcases List.mem_cons.1 h with rfl | hrest
    · exact .inr ⟨List.mem_cons_self, by simpa using hd⟩
    · exact (ih hrest).imp_right (.imp_left (List.mem_cons_of_mem d))

theorem spaced_collapseWhitespace (s : JsString) : Spaced (collapseWhitespace s) := by
  refine ⟨fun c hc hblank => (mem_collapseWhitespace hc).resolve_right fun h => ?_, ?_⟩
  · rw [h.2] at hblank
    cases hblank
  · fun_induction collapseWhitespace s with
    | case1 => exact .nil
    | case2 d hd => exact .singleton _
    | case3 d hd => exact .singleton _
    | case4 d e rest hd he ih => exact ih
    | case5 d e rest hd he ih =>
      have he : isWhitespace e = false := by simpa using he
      refine .cons ih fun f hf _ => ?_
      rw [collapseWhitespace_cons he] at hf
      cases hf
      exact he
    | case6 d e rest hd ih => exact .cons ih fun f _ hblank => absurd hblank hd

theorem Spaced.collapse_eq {s : JsString} (h : Spaced s) : collapseWhitespace s = s := by
  fun_induction collapseWhitespace s with
  | case1 => rfl
  | case2 d hd => rw [h.space d List.mem_cons_self hd]
  | case3 d hd => rfl
  | case4 d e rest hd he ih =>
    have hnot := (List.isChain_cons.1 h.single).1 e rfl hd
    rw [he] at hnot
    cases hnot
  | case5 d e rest hd he ih =>
    rw [ih (h.within (List.suffix_cons d _).isInfix), h.space d List.mem_cons_self hd]
  | case6 d e rest hd ih => rw [ih (h.within (List.suffix_cons d _).isInfix)]

/-! ### Bounded texts -/

/-- What `boundedPushText` has nothing to do with. -/
structure Bounded (limit : Nat) (s : JsString) : Prop where
  no_control : ∀ c ∈ s, isControlUnit c = false
  no_format : ∀ c ∈ s, isFormatUnit c = false
  spaced : Spaced s
  trimmed : s.Trimmed
  short : (codePoints s).length ≤ limit

theorem boundedPushText_of_bounded {limit : Nat} {s : JsString} (h : Bounded limit s)
    (hne : s ≠ []) (fallback : JsString) : boundedPushText s limit fallback = s := by
  have hmap : (s.map fun c => if isControlUnit c then unit ' ' else c) = s := by
    refine (List.map_congr_left fun c hc => ?_).trans (List.map_id s)
    rw [h.no_control c hc]
    rfl
  have hfilter : (s.filter fun c => !isFormatUnit c) = s := by
    refine List.filter_eq_self.2 fun c hc => ?_
    rw [h.no_format c hc]
    rfl
  unfold boundedPushText
  dsimp only
  rw [hmap, hfilter, h.spaced.collapse_eq, h.trimmed.trim_eq, List.take_of_length_le h.short,
    JsString.flatten_codePoints, h.trimmed.trim_eq, if_neg hne]

theorem boundedPushText_cases (value : JsString) (limit : Nat) (fallback : JsString) :
    boundedPushText value limit fallback = fallback ∨
      (boundedPushText value limit fallback ≠ [] ∧
        Bounded limit (boundedPushText value limit fallback)) := by
  let plain := value.map fun c => if isControlUnit c then unit ' ' else c
  let visible := plain.filter fun c => !isFormatUnit c
  let cleaned := trim (collapseWhitespace visible)
  let cut := ((codePoints cleaned).take limit).flatten
  have hdef : boundedPushText value limit fallback = if trim cut = [] then fallback else trim cut :=
    rfl
  have hcut : cut <+: cleaned := JsString.take_codePoints_prefix limit cleaned
  have htrim : trim cut <+: cut := by
    rw [trim, JsString.trimStart_of_head
      (JsString.head_of_le hcut (JsString.trimmed_trim _).head)]
    exact JsString.trimEnd_le cut
  have hwithin : trim cut <:+: collapseWhitespace visible :=
    (htrim.trans hcut).isInfix.trans (JsString.trim_infix _)
  have hmem : ∀ c ∈ trim cut, c = unit ' ' ∨ c ∈ visible := fun c hc =>
    (mem_collapseWhitespace (hwithin.subset hc)).imp_right And.left
  rw [hdef]
  split
  · exact .inl rfl
  rename_i hne
  refine .inr ⟨hne, ?_, ?_, (spaced_collapseWhitespace visible).within hwithin,
    JsString.trimmed_trim cut, ?_⟩
  · intro c hc
    rcases hmem c hc with rfl | hvisible
    · decide
    · obtain ⟨d, -, rfl⟩ := List.mem_map.1 (List.mem_filter.1 hvisible).1
      cases hcontrol : isControlUnit d with
      | true => exact (by decide : isControlUnit (unit ' ') = false)
      | false => exact hcontrol
  · intro c hc
    rcases hmem c hc with rfl | hvisible
    · decide
    · simpa using (List.mem_filter.1 hvisible).2
  · exact (JsString.length_codePoints_prefix htrim).trans
      (JsString.length_codePoints_take limit cleaned)

/-- **Bounding twice is bounding once**, when the fallback stands. -/
theorem boundedPushText_idem (value : JsString) {limit : Nat} {fallback : JsString}
    (h : boundedPushText fallback limit fallback = fallback) :
    boundedPushText (boundedPushText value limit fallback) limit fallback =
      boundedPushText value limit fallback := by
  rcases boundedPushText_cases value limit fallback with heq | ⟨hne, hbounded⟩
  · rw [heq, h]
  · exact boundedPushText_of_bounded hbounded hne fallback

/-- A bounded text is the fallback, or has no more code points than the limit. -/
theorem length_boundedPushText (value : JsString) {limit : Nat} {fallback : JsString}
    (h : (codePoints fallback).length ≤ limit) :
    (codePoints (boundedPushText value limit fallback)).length ≤ limit := by
  rcases boundedPushText_cases value limit fallback with heq | ⟨-, hbounded⟩
  · rwa [heq]
  · exact hbounded.short

end Security

end Dormouse

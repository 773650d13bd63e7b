import Mathlib.Data.List.TakeWhile
import Dormouse.Terminal.Protocol

/-!
# Dormouse.Terminal.Disposition

Once the bytes of an OSC decide whether it is consumed, no byte behind them changes that,
and the decision is the one its whole content gets.
-/

namespace Dormouse.Terminal

/-! ### More bytes -/

theorem osc1337DispositionAt_append {s : JsString} {d : OscDisposition}
    (h : osc1337DispositionAt s = some d) (more : JsString) :
    osc1337DispositionAt (s ++ more) = some d := by
  unfold osc1337DispositionAt at h ⊢
  split at h
  · next hforward =>
      obtain ⟨command, hmem, hpre⟩ := List.any_eq_true.1 hforward
      have hany : (OSC1337_FORWARDED.any fun command => command.isPrefixOf (s ++ more)) = true := by
        refine List.any_eq_true.2 ⟨command, hmem, ?_⟩
        rw [List.isPrefixOf_iff_prefix] at hpre ⊢
        exact hpre.trans (List.prefix_append s more)
      rw [if_pos hany]
      exact h
  · next hforward =>
      split at h
      · cases h
      next hpartial =>
        have hshort : ∀ command ∈ OSC1337_FORWARDED, s.length < command.length → ¬s <+: command := by
          intro command hmem hlt hpre
          refine hpartial (List.any_eq_true.2 ⟨command, hmem, ?_⟩)
          rw [Bool.and_eq_true, List.isPrefixOf_iff_prefix]
          exact ⟨decide_eq_true hlt, hpre⟩
        have hforward' : ¬(OSC1337_FORWARDED.any fun command =>
            command.isPrefixOf (s ++ more)) = true := by
          intro hany
          obtain ⟨command, hmem, hpre⟩ := List.any_eq_true.1 hany
          rw [List.isPrefixOf_iff_prefix] at hpre
          by_cases hlt : s.length < command.length
          · exact hshort command hmem hlt (List.prefix_of_prefix_length_le
              (List.prefix_append s more) hpre (Nat.le_of_lt hlt))
          · refine hforward (List.any_eq_true.2 ⟨command, hmem, ?_⟩)
            rw [List.isPrefixOf_iff_prefix]
            exact List.prefix_of_prefix_length_le hpre (List.prefix_append s more) (Nat.not_lt.1 hlt)
        have hpartial' : ¬(OSC1337_FORWARDED.any fun command =>
            (decide ((s ++ more).length < command.length) && (s ++ more).isPrefixOf command)) = true := by
          intro hany
          obtain ⟨command, hmem, hboth⟩ := List.any_eq_true.1 hany
          rw [Bool.and_eq_true, List.isPrefixOf_iff_prefix, decide_eq_true_iff,
            List.length_append] at hboth
          exact hshort command hmem (by omega) ((List.prefix_append s more).trans hboth.2)
        rw [if_neg hforward', if_neg hpartial']
        exact h

/-- The digits of an identifier that is complete, and what lies behind them. -/
theorem id_append {x rest : JsString} {c : UInt16}
    (h : x.dropWhile JsString.isDigit = c :: rest) (more : JsString) :
    (x ++ more).takeWhile JsString.isDigit = x.takeWhile JsString.isDigit ∧
      (x ++ more).dropWhile JsString.isDigit = c :: (rest ++ more) := by
  have hsplit := List.takeWhile_append_dropWhile (p := JsString.isDigit) (l := x)
  rw [h] at hsplit
  have hlen : ¬(x.takeWhile JsString.isDigit).length = x.length := by
    intro hlen
    have := congrArg List.length hsplit
    rw [List.length_append, List.length_cons] at this
    omega
  rw [List.takeWhile_append, if_neg hlen, List.dropWhile_append, h]
  exact ⟨rfl, rfl⟩

theorem oscDispositionAt_append {x : JsString} {d : OscDisposition}
    (h : oscDispositionAt x = some d) (more : JsString) :
    oscDispositionAt (x ++ more) = some d := by
  unfold oscDispositionAt at h ⊢
  rcases hdrop : x.dropWhile JsString.isDigit with _ | ⟨c, rest⟩
  · rw [hdrop] at h
    cases h
  obtain ⟨htake', hdrop'⟩ := id_append hdrop more
  rw [hdrop] at h
  rw [htake', hdrop']
  simp only at h ⊢
  by_cases hend : x.takeWhile JsString.isDigit = [] ∨ c ≠ unit ';'
  · rw [if_pos hend] at h ⊢
    exact h
  rw [if_neg hend] at h ⊢
  split
  · next hid =>
      rw [if_pos hid] at h
      exact osc1337DispositionAt_append h more
  · next hid =>
      rw [if_neg hid] at h
      exact h

/-- The bytes that break off an OSC: they are in no identifier and no subcommand. -/
def breaksOff (c : UInt16) : Prop := c = ESC ∨ c = CAN ∨ c = SUB

theorem oscDispositionAt_break (x : JsString) {c : UInt16} (hc : breaksOff c) :
    oscDispositionAt (x ++ [c]) ≠ none := by
  have hdigit : JsString.isDigit c = false := by
    rcases hc with rfl | rfl | rfl <;> decide
  have hsemi : c ≠ unit ';' := by
    rcases hc with rfl | rfl | rfl <;> decide
  have hcommand : ∀ command ∈ OSC1337_FORWARDED, c ∉ command := by
    rcases hc with rfl | rfl | rfl <;> decide
  unfold oscDispositionAt
  cases hdrop : x.dropWhile JsString.isDigit with
  | nil =>
    have hall : x.dropWhile JsString.isDigit = [] := hdrop
    have hdrop' : (x ++ [c]).dropWhile JsString.isDigit = [c] := by
      rw [List.dropWhile_append, hall]
      simp [hdigit]
    rw [hdrop']
    simp [hsemi]
  | cons d rest =>
    obtain ⟨htake', hdrop'⟩ := id_append hdrop [c]
    rw [htake', hdrop']
    simp only
    split
    · simp
    split
    · unfold osc1337DispositionAt
      split
      · simp
      split
      · next hpartial =>
          obtain ⟨command, hmem, hboth⟩ := List.any_eq_true.1 hpartial
          rw [Bool.and_eq_true, List.isPrefixOf_iff_prefix] at hboth
          exact absurd (hboth.2.subset (by simp)) (hcommand command hmem)
      · simp
    · split <;> simp

/-- A byte that breaks off an OSC decides it. -/
theorem oscDispositionAt_break_append (x : JsString) {c : UInt16} (hc : breaksOff c)
    (more : JsString) : oscDispositionAt (x ++ c :: more) = oscDispositionAt (x ++ [c]) := by
  cases hd : oscDispositionAt (x ++ [c]) with
  | none => exact absurd hd (oscDispositionAt_break x hc)
  | some d =>
    have happ := oscDispositionAt_append hd more
    rwa [List.append_assoc] at happ

/-! ### The whole content -/

theorem js_append (s t : String) : js (s ++ t) = js s ++ js t := by
  simp [js, String.toList_append]

theorem isOsc_id {content : JsString} {id : String} (hdigits : (js id).all JsString.isDigit = true)
    (h : isOsc content id = true) :
    content.takeWhile JsString.isDigit = js id ∧
      (content.dropWhile JsString.isDigit = [] ∨
        ∃ after, content.dropWhile JsString.isDigit = unit ';' :: after) := by
  have hsemi : JsString.isDigit (unit ';') = false := by decide
  have hall : ∀ c ∈ js id, JsString.isDigit c = true := List.all_eq_true.1 hdigits
  rw [isOsc, Bool.or_eq_true, beq_iff_eq] at h
  rcases h with rfl | h
  · exact ⟨List.takeWhile_eq_self_iff.2 hall, Or.inl (List.dropWhile_eq_nil_iff.2 hall)⟩
  · rw [startsWith, List.isPrefixOf_iff_prefix, js_append] at h
    obtain ⟨after, rfl⟩ := h
    have hcontent : js id ++ js ";" ++ after = js id ++ unit ';' :: after := List.append_assoc _ _ _
    rw [hcontent, List.takeWhile_append_of_pos hall, List.dropWhile_append_of_pos hall]
    simp [hsemi]

/-- An identifier the parser claims is not the renderer's. -/
theorem not_forward_of_isOsc {content : JsString} {id : String}
    (hid : js id ∈ OSC_CONSUMED_IDS) (h : isOsc content id = true) :
    oscDispositionAt content ≠ some .forward := by
  have hdigits : ∀ id ∈ OSC_CONSUMED_IDS, id.all JsString.isDigit = true := by decide
  have hne : ∀ id ∈ OSC_CONSUMED_IDS, id ≠ [] ∧ id ≠ js "1337" := by decide
  obtain ⟨htake, hdrop⟩ := isOsc_id (hdigits _ hid) h
  unfold oscDispositionAt
  rw [htake]
  rcases hdrop with hdrop | ⟨after, hdrop⟩
  · rw [hdrop]
    simp
  · rw [hdrop]
    simp [(hne _ hid).1, (hne _ hid).2, hid]

/-- What is the renderer's by its start is not parsed. -/
theorem parseOsc_of_forward (host : ParserHost) (σ : Osc99Pending) {content : JsString}
    (h : oscDispositionAt content = some .forward) : parseOsc host σ content = .null := by
  have hnot : ∀ id : String, js id ∈ OSC_CONSUMED_IDS → isOsc content id = false := by
    intro id hid
    by_contra hosc
    exact not_forward_of_isOsc hid (by simpa using hosc) h
  have h7 := hnot "7" (by decide)
  have h9 := hnot "9" (by decide)
  have h133 := hnot "133" (by decide)
  have h633 := hnot "633" (by decide)
  have h0 := hnot "0" (by decide)
  have h2 := hnot "2" (by decide)
  have h99 := hnot "99" (by decide)
  have h777 := hnot "777" (by decide)
  have hquery : parseColorQuery host content = none := by
    have h10 : content ≠ js "10;?" := by
      rintro rfl
      revert h
      decide
    have h11 : content ≠ js "11;?" := by
      rintro rfl
      revert h
      decide
    have h12 : content ≠ js "12;?" := by
      rintro rfl
      revert h
      decide
    simp only [parseColorQuery, h10, h11, h12, if_false]
  have hunsupported : isKnownUnsupportedIterm2Osc content = false := by
    rw [isKnownUnsupportedIterm2Osc, hnot "50" (by decide), hnot "52" (by decide)]
    rfl
  have h1337 : parseOsc1337 host σ content = .null := if_pos h
  simp [parseOsc, h7, h9, h133, h633, h0, h2, h99, h777, hquery, hunsupported, h1337]

end Dormouse.Terminal

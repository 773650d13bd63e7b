import Mathlib.Data.List.Induction

/-!
# Dormouse.Lib.History

**Histories**: lists of events that only grow at their end. `Preceded J h` says that
every event of `h` is justified, in the sense of `J`, by the events before it; one rule
extends it by an event, and the rest is read off it.
-/

namespace Dormouse

variable {ε κ : Type*} {J : List ε → ε → Prop} {h : List ε}

/-- Every event of `h` is justified by the events before it. -/
def Preceded (J : List ε → ε → Prop) (h : List ε) : Prop :=
  ∀ before e after, h = before ++ e :: after → J before e

namespace Preceded

theorem nil : Preceded J [] := fun before e after heq => by
  have := congrArg List.length heq
  simp at this

/-- The rule for one more event. -/
theorem concat {e : ε} (hh : Preceded J h) (he : J h e) : Preceded J (h ++ [e]) := by
  intro before e' after heq
  rcases List.eq_nil_or_concat after with rfl | ⟨after', x, rfl⟩
  · obtain ⟨rfl, hlast⟩ := List.append_inj' heq rfl
    rw [List.cons.injEq] at hlast
    exact hlast.1 ▸ he
  · rw [List.concat_eq_append, ← List.cons_append, ← List.append_assoc] at heq
    obtain ⟨hinit, -⟩ := List.append_inj' heq rfl
    exact hh before e' after' hinit

/-- The rule for several events. -/
theorem append {events : List ε} (hh : Preceded J h)
    (he : ∀ done e rest, events = done ++ e :: rest → J (h ++ done) e) : Preceded J (h ++ events) := by
  induction events using List.reverseRecOn with
  | nil => exact (List.append_nil h).symm ▸ hh
  | append_singleton events e ih =>
    rw [← List.append_assoc]
    refine (ih fun done e' rest heq => he done e' (rest ++ [e]) ?_).concat (he events e [] rfl)
    rw [heq, List.append_assoc, List.cons_append]

theorem of_append {t : List ε} (hh : Preceded J (h ++ t)) : Preceded J h :=
  fun before e after heq => hh before e (after ++ t) (by rw [heq, List.append_assoc, List.cons_append])

/-- An event of the history, with what came before it. -/
theorem of_mem {e : ε} (hh : Preceded J h) (he : e ∈ h) :
    ∃ before after, h = before ++ e :: after ∧ J before e := by
  obtain ⟨before, after, heq⟩ := List.append_of_mem he
  exact ⟨before, after, heq, hh before e after heq⟩

/-- A justification that outlives the growth of the history holds of the whole of it. -/
theorem mono {e : ε} {P : List ε → Prop} (hh : Preceded J h) (he : e ∈ h)
    (hP : ∀ before, J before e → P before)
    (hgrow : ∀ before after, P before → P (before ++ after)) : P h := by
  obtain ⟨before, after, rfl, hJ⟩ := hh.of_mem he
  exact hgrow before _ (hP before hJ)

/-- Events of one key that exclude each other are one event. -/
theorem inj (key : ε → Option κ) {k : κ} (hh : Preceded J h)
    (hkey : ∀ before e, J before e → key e = some k → ∀ e' ∈ before, key e' ≠ some k)
    {e e' : ε} (he : e ∈ h) (he' : e' ∈ h) (hk : key e = some k) (hk' : key e' = some k) :
    e = e' := by
  obtain ⟨before, after, heq, hJ⟩ := hh.of_mem he
  rw [heq, List.mem_append, List.mem_cons] at he'
  rcases he' with hbefore | rfl | hafter
  · exact absurd hk' (hkey before e hJ hk e' hbefore)
  · rfl
  · -- `e'` comes later: then `e` is among the events before it.
    obtain ⟨mid, tail, rfl⟩ := List.append_of_mem hafter
    have hJ' := hh (before ++ e :: mid) e' tail (by rw [heq]; simp)
    exact absurd hk (hkey _ e' hJ' hk' e (by simp))

/-- The keys of events that exclude each other are pairwise distinct. -/
theorem nodup (key : ε → Option κ) (hh : Preceded J h)
    (hkey : ∀ before e k, J before e → key e = some k → ∀ e' ∈ before, key e' ≠ some k) :
    (h.filterMap key).Nodup := by
  induction h using List.reverseRecOn with
  | nil => exact List.nodup_nil
  | append_singleton h e ih =>
    rw [List.filterMap_append, List.nodup_append]
    refine ⟨ih hh.of_append, ?_, ?_⟩
    · cases hk : key e with
      | none => simp [hk]
      | some k => simp [hk]
    · intro k hk k' hk' heq
      obtain ⟨e', he', hke'⟩ := List.mem_filterMap.1 hk
      obtain ⟨e'', he'', hke''⟩ := List.mem_filterMap.1 hk'
      rw [List.mem_singleton.1 he''] at hke''
      exact hkey h e k' (hh h e [] rfl) hke'' e' he' (heq ▸ hke')

end Preceded

end Dormouse

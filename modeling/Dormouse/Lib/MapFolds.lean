import Mathlib.Data.List.Induction
import Dormouse.Lib.InsertionMap

/-!
# Dormouse.Lib.MapFolds

**Maps that a loop fills**: what an `InsertionMap` holds of a key after a pass over a list that sets
an entry for each element, for some of them, or tallies them by key.
-/

namespace Dormouse.InsertionMap

variable {κ ν α : Type} [DecidableEq κ]

/-! ### Setting -/

theorem get_foldl_setIf_of_ne {key : α → κ} {value : α → ν} {p : α → Prop} [DecidablePred p] {k : κ}
    {items : List α} (h : ∀ x ∈ items, p x → key x ≠ k) (m : InsertionMap κ ν) :
    (items.foldl (fun m x => if p x then m.set (key x) (value x) else m) m).get k = m.get k := by
  induction items generalizing m with
  | nil => rfl
  | cons x items ih =>
    rw [List.foldl_cons, ih fun y hy => h y (List.mem_cons_of_mem _ hy)]
    split
    · rename_i hx
      exact get_set_ne m _ (h x List.mem_cons_self hx)
    · rfl

/-- Elements of one key that agree leave what each of them says. -/
theorem get_foldl_setIf {key : α → κ} {value : α → ν} {p : α → Prop} [DecidablePred p]
    {items : List α} (hsame : ∀ x ∈ items, ∀ y ∈ items, key x = key y → (p x ↔ p y) ∧ value x = value y)
    (m : InsertionMap κ ν) {x : α} (hx : x ∈ items) :
    (items.foldl (fun m x => if p x then m.set (key x) (value x) else m) m).get (key x) =
      if p x then some (value x) else m.get (key x) := by
  induction items generalizing m x with
  | nil => cases hx
  | cons y items ih =>
    have hrest : ∀ a ∈ items, ∀ b ∈ items, key a = key b → (p a ↔ p b) ∧ value a = value b :=
      fun a ha b hb => hsame a (List.mem_cons_of_mem _ ha) b (List.mem_cons_of_mem _ hb)
    rw [List.foldl_cons]
    by_cases hlater : ∃ z ∈ items, key z = key x
    · -- A later element of the key decides, and says the same.
      obtain ⟨z, hz, hkey⟩ := hlater
      obtain ⟨hp, hvalue⟩ := hsame z (List.mem_cons_of_mem _ hz) x hx hkey
      rw [← hkey, ih hrest _ hz, hvalue]
      by_cases hpx : p x
      · rw [if_pos hpx, if_pos (hp.2 hpx)]
      rw [if_neg hpx, if_neg fun hpz => hpx (hp.1 hpz)]
      split
      · rename_i hpy
        refine get_set_ne m _ fun hyz => ?_
        exact hpx (hp.1 ((hsame y List.mem_cons_self z (List.mem_cons_of_mem _ hz) hyz).1.1 hpy))
      · rfl
    · have hxy : x = y := by
        rcases List.mem_cons.1 hx with heq | hmem
        · exact heq
        · exact absurd ⟨x, hmem, rfl⟩ hlater
      rw [get_foldl_setIf_of_ne fun z hz _ hkey => hlater ⟨z, hz, hkey⟩, hxy]
      split
      · exact get_set_self m _ _
      · rfl

/-- Elements of different keys, each set. -/
theorem get_foldl_set {key : α → κ} {value : α → ν} {items : List α}
    (hkeys : ∀ x ∈ items, ∀ y ∈ items, key x = key y → x = y) (m : InsertionMap κ ν) {x : α}
    (hx : x ∈ items) :
    (items.foldl (fun m x => m.set (key x) (value x)) m).get (key x) = some (value x) := by
  have hset := @get_foldl_setIf κ ν α _ key value (fun _ => True) _ items
    (fun a ha b hb hkey => ⟨Iff.rfl, congrArg value (hkeys a ha b hb hkey)⟩) m x hx
  simpa using hset

/-- Copying the entries of another map whose keys qualify. -/
theorem get_foldl_entriesIf {μ : Type} (source : InsertionMap κ μ) (p : κ → Prop) [DecidablePred p]
    (f : κ → μ → ν) (m : InsertionMap κ ν) (k : κ) :
    (source.entries.foldl (fun out e => if p e.1 then out.set e.1 (f e.1 e.2) else out) m).get k =
      if p k then ((source.get k).map (f k)).or (m.get k) else m.get k := by
  cases hget : source.get k with
  | none =>
    have hother : ∀ e ∈ source.entries, p e.1 → e.1 ≠ k := fun e he _ hk =>
      get_eq_none.1 hget (hk ▸ List.mem_map_of_mem he)
    rw [get_foldl_setIf_of_ne hother]
    simp
  | some v =>
    have hmem := get_eq_some.1 hget
    have hsame : ∀ x ∈ source.entries, ∀ y ∈ source.entries, x.1 = y.1 →
        (p x.1 ↔ p y.1) ∧ f x.1 x.2 = f y.1 y.2 := by
      intro x hx y hy hxy
      rw [List.inj_on_of_nodup_map source.nodup hx hy hxy]
      exact ⟨Iff.rfl, rfl⟩
    rw [get_foldl_setIf hsame m hmem]
    simp

/-- Copying all the entries of another map. -/
theorem get_foldl_entries {μ : Type} (source : InsertionMap κ μ) (f : κ → μ → ν)
    (m : InsertionMap κ ν) (k : κ) :
    (source.entries.foldl (fun out e => out.set e.1 (f e.1 e.2)) m).get k =
      ((source.get k).map (f k)).or (m.get k) := by
  simpa using get_foldl_entriesIf source (fun _ => True) f m k

/-- Elements of different keys, each set to what it makes of its entry. -/
theorem get_foldl_update {key : α → κ} (f : α → Option ν → ν) {items : List α}
    (hkeys : (items.map key).Nodup) (m : InsertionMap κ ν) {x : α} (hx : x ∈ items) :
    (items.foldl (fun m x => m.set (key x) (f x (m.get (key x)))) m).get (key x) =
      some (f x (m.get (key x))) := by
  induction items generalizing m with
  | nil => cases hx
  | cons y items ih =>
    rw [List.map_cons, List.nodup_cons] at hkeys
    rw [List.foldl_cons]
    rcases List.mem_cons.1 hx with rfl | hmem
    · have hkeep : ∀ (items : List α) (m : InsertionMap κ ν), key x ∉ items.map key →
          (items.foldl (fun m x => m.set (key x) (f x (m.get (key x)))) m).get (key x) =
            m.get (key x) := by
        intro items
        induction items with
        | nil => exact fun m _ => rfl
        | cons z items ih =>
          intro m hnot
          rw [List.map_cons, List.mem_cons, not_or] at hnot
          rw [List.foldl_cons, ih _ hnot.2, get_set_ne m _ (Ne.symm hnot.1)]
      rw [hkeep items _ hkeys.1, get_set_self]
    · have hne : key y ≠ key x := fun heq => hkeys.1 (heq ▸ List.mem_map_of_mem hmem)
      rw [ih hkeys.2 _ hmem, get_set_ne m _ hne]

/-! ### Tallies -/

/-- What a pass makes of the elements of one key, in their order. -/
theorem get_foldl_tally {key : α → Option κ} {f : Option ν → α → ν}
    {step : InsertionMap κ ν → α → InsertionMap κ ν}
    (hnone : ∀ m x, key x = none → step m x = m)
    (hsome : ∀ m x k, key x = some k → step m x = m.set k (f (m.get k) x)) (items : List α) (k : κ) :
    (items.foldl step empty).get k =
      (items.filter fun x => key x = some k).foldl (fun acc x => some (f acc x)) none := by
  induction items using List.reverseRecOn with
  | nil => rfl
  | append_singleton items x ih =>
    rw [List.foldl_append, List.foldl_cons, List.foldl_nil, List.filter_append, List.foldl_append,
      ← ih]
    cases hkey : key x with
    | none => simp [hkey, hnone]
    | some k' =>
      rw [hsome _ _ _ hkey]
      by_cases hk : k' = k
      · subst hk
        simp [hkey]
      · simp [hkey, hk, get_set_ne]

/-- Appending each element gathers those of a key. -/
theorem get_foldl_group {key : α → Option κ} {step : InsertionMap κ (List α) → α → InsertionMap κ (List α)}
    (hnone : ∀ m x, key x = none → step m x = m)
    (hsome : ∀ m x k, key x = some k → step m x = m.set k ((m.get k).getD [] ++ [x]))
    (items : List α) (k : κ) :
    (items.foldl step empty).get k =
      if items.filter (fun x => key x = some k) = [] then none
      else some (items.filter fun x => key x = some k) := by
  rw [get_foldl_tally (f := fun acc x => acc.getD [] ++ [x]) hnone hsome]
  generalize items.filter (fun x => key x = some k) = group
  induction group using List.reverseRecOn with
  | nil => rfl
  | append_singleton group x ih =>
    rw [List.foldl_append, ih]
    by_cases hnil : group = [] <;> simp [hnil]

/-- Counting gives how many elements there are of a key. -/
theorem get_foldl_count {key : α → Option κ} {step : InsertionMap κ Nat → α → InsertionMap κ Nat}
    (hnone : ∀ m x, key x = none → step m x = m)
    (hsome : ∀ m x k, key x = some k → step m x = m.set k ((m.get k).getD 0 + 1))
    (items : List α) (k : κ) :
    ((items.foldl step empty).get k).getD 0 = items.countP fun x => key x = some k := by
  rw [get_foldl_tally (f := fun acc _ => acc.getD 0 + 1) hnone hsome, List.countP_eq_length_filter]
  generalize items.filter (fun x => key x = some k) = group
  induction group using List.reverseRecOn with
  | nil => rfl
  | append_singleton group x ih =>
    rw [List.foldl_append, List.foldl_cons, List.foldl_nil, Option.getD_some, ih,
      List.length_append, List.length_singleton]

end Dormouse.InsertionMap

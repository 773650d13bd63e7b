import Mathlib.Data.List.Nodup

/-!
# Dormouse.Lib.InsertionMap

A **map that remembers insertion order**, as JavaScript's `Map` does: setting a
fresh key appends an entry, setting a present one overwrites it where it stands,
and iteration follows the entries.

Key uniqueness is a field of the structure, so an ill-formed map cannot be built
and no lemma below takes it as a hypothesis.
-/

namespace Dormouse

variable {κ ν : Type} [DecidableEq κ]

/-- Entries in insertion order, at most one per key. -/
structure InsertionMap (κ ν : Type) where
  entries : List (κ × ν)
  nodup : (entries.map Prod.fst).Nodup

namespace InsertionMap

/-- Value of the first entry of key `k`. -/
def getEntry (k : κ) : List (κ × ν) → Option ν
  | [] => none
  | e :: es => if e.1 = k then some e.2 else getEntry k es

/-- Overwrite the entry of key `k` where it stands, or append one. -/
def setEntry (k : κ) (v : ν) : List (κ × ν) → List (κ × ν)
  | [] => [(k, v)]
  | e :: es => if e.1 = k then (k, v) :: es else e :: setEntry k v es

theorem keys_setEntry (k : κ) (v : ν) (es : List (κ × ν)) :
    (setEntry k v es).map Prod.fst =
      if k ∈ es.map Prod.fst then es.map Prod.fst else es.map Prod.fst ++ [k] := by
  induction es with
  | nil => simp [setEntry]
  | cons e es ih =>
    by_cases h : e.1 = k
    · simp [setEntry, h]
    · have h' : ¬ k = e.1 := fun hk => h hk.symm
      simp only [setEntry, h, if_false, List.map_cons, ih, List.mem_cons, h', false_or]
      split <;> simp

theorem nodup_setEntry (k : κ) (v : ν) {es : List (κ × ν)} (h : (es.map Prod.fst).Nodup) :
    ((setEntry k v es).map Prod.fst).Nodup := by
  rw [keys_setEntry]
  split
  · exact h
  · rename_i hk
    exact List.nodup_append.2 ⟨h, List.nodup_singleton k, fun a ha b hb hab => by
      rw [List.mem_singleton] at hb
      exact hk (hb ▸ hab ▸ ha)⟩

theorem getEntry_setEntry (k k' : κ) (v : ν) (es : List (κ × ν)) :
    getEntry k' (setEntry k v es) = if k = k' then some v else getEntry k' es := by
  induction es with
  | nil => simp [setEntry, getEntry]
  | cons e es ih =>
    by_cases h : e.1 = k
    · subst h
      by_cases hk : e.1 = k' <;> simp [setEntry, getEntry, hk]
    · by_cases hk : e.1 = k'
      · subst hk
        have hne : ¬ k = e.1 := fun hk => h hk.symm
        simp [setEntry, getEntry, h, hne]
      · simp [setEntry, getEntry, h, hk, ih]

theorem getEntry_eq_none {k : κ} {es : List (κ × ν)} :
    getEntry k es = none ↔ k ∉ es.map Prod.fst := by
  induction es with
  | nil => simp [getEntry]
  | cons e es ih =>
    by_cases h : e.1 = k
    · simp [getEntry, h]
    · have h' : ¬ k = e.1 := fun hk => h hk.symm
      simp only [getEntry, h, if_false, ih, List.map_cons, List.mem_cons, h', false_or]

theorem getEntry_eq_some {k : κ} {v : ν} {es : List (κ × ν)} (hes : (es.map Prod.fst).Nodup) :
    getEntry k es = some v ↔ (k, v) ∈ es := by
  induction es with
  | nil => simp [getEntry]
  | cons e es ih =>
    rw [List.map_cons, List.nodup_cons] at hes
    by_cases h : e.1 = k
    · have hnot : (k, v) ∉ es := fun hmem => hes.1 (h ▸ List.mem_map.2 ⟨(k, v), hmem, rfl⟩)
      have hiff : e.2 = v ↔ (k, v) = e := by
        rw [Prod.ext_iff]
        exact ⟨fun hv => ⟨h.symm, hv.symm⟩, fun hv => hv.2.symm⟩
      simp only [getEntry, h, if_true, Option.some.injEq, List.mem_cons, hnot, or_false, hiff]
    · have hne : (k, v) ≠ e := fun he => h (by rw [← he])
      simp only [getEntry, h, if_false, ih hes.2, List.mem_cons, hne, false_or]

/-! ### The operations -/

def empty : InsertionMap κ ν := ⟨[], List.nodup_nil⟩

def get (m : InsertionMap κ ν) (k : κ) : Option ν := getEntry k m.entries

def has (m : InsertionMap κ ν) (k : κ) : Bool := (m.get k).isSome

def set (m : InsertionMap κ ν) (k : κ) (v : ν) : InsertionMap κ ν :=
  ⟨setEntry k v m.entries, nodup_setEntry k v m.nodup⟩

def delete (m : InsertionMap κ ν) (k : κ) : InsertionMap κ ν :=
  ⟨m.entries.filter (fun e => e.1 ≠ k), (List.filter_sublist.map Prod.fst).nodup m.nodup⟩

def keys (m : InsertionMap κ ν) : List κ := m.entries.map Prod.fst

def size (m : InsertionMap κ ν) : Nat := m.entries.length

def values (m : InsertionMap κ ν) : List ν := m.entries.map Prod.snd

/-- Keep the entries that satisfy `p`. -/
def filter (m : InsertionMap κ ν) (p : κ → ν → Bool) : InsertionMap κ ν :=
  ⟨m.entries.filter fun e => p e.1 e.2, (List.filter_sublist.map Prod.fst).nodup m.nodup⟩

/-- Every value updated where it stands. -/
def mapValues (m : InsertionMap κ ν) (f : ν → ν) : InsertionMap κ ν :=
  ⟨m.entries.map fun e => (e.1, f e.2), by
    rw [List.map_map]
    exact m.nodup⟩

/-- Keep the values that `f` makes something of. -/
def filterMap {μ : Type} (f : ν → Option μ) (m : InsertionMap κ ν) : InsertionMap κ μ :=
  ⟨m.entries.filterMap fun e => (f e.2).map fun v => (e.1, v), by
    have hsub : ∀ es : List (κ × ν),
        ((es.filterMap fun e => (f e.2).map fun v => (e.1, v)).map Prod.fst).Sublist
          (es.map Prod.fst) := fun es => by
      induction es with
      | nil => exact List.Sublist.refl _
      | cons e es ih =>
        cases h : f e.2 with
        | none => simpa [h] using ih.cons e.1
        | some v => simpa [h] using ih
    exact (hsub m.entries).nodup m.nodup⟩

@[simp] theorem get_empty (k : κ) : (empty : InsertionMap κ ν).get k = none := rfl

theorem get_set (m : InsertionMap κ ν) (k k' : κ) (v : ν) :
    (m.set k v).get k' = if k = k' then some v else m.get k' :=
  getEntry_setEntry k k' v m.entries

@[simp] theorem get_set_self (m : InsertionMap κ ν) (k : κ) (v : ν) :
    (m.set k v).get k = some v := by
  rw [get_set, if_pos rfl]

theorem get_set_ne (m : InsertionMap κ ν) {k k' : κ} (v : ν) (h : k ≠ k') :
    (m.set k v).get k' = m.get k' := by
  rw [get_set, if_neg h]

/-- What is found after an insertion was inserted, or was there before. -/
theorem get_of_set {m : InsertionMap κ ν} {k k' : κ} {v v' : ν}
    (h : (m.set k v).get k' = some v') : k = k' ∧ v = v' ∨ k ≠ k' ∧ m.get k' = some v' := by
  rw [get_set] at h
  split at h
  · next heq => exact .inl ⟨heq, Option.some.inj h⟩
  · next hne => exact .inr ⟨hne, h⟩

theorem get_eq_some {m : InsertionMap κ ν} {k : κ} {v : ν} :
    m.get k = some v ↔ (k, v) ∈ m.entries :=
  getEntry_eq_some m.nodup

theorem get_eq_none {m : InsertionMap κ ν} {k : κ} : m.get k = none ↔ k ∉ m.keys :=
  getEntry_eq_none

theorem get_delete (m : InsertionMap κ ν) (k k' : κ) :
    (m.delete k).get k' = if k = k' then none else m.get k' := by
  by_cases h : k = k'
  · subst h
    rw [if_pos rfl, get, getEntry_eq_none]
    simp [delete]
  rw [if_neg h]
  apply Option.ext
  intro v
  have hne : ¬ k' = k := fun hk => h hk.symm
  rw [get_eq_some, get_eq_some]
  simp [delete, hne]

theorem get_of_delete {m : InsertionMap κ ν} {k k' : κ} {v : ν}
    (h : (m.delete k).get k' = some v) : k ≠ k' ∧ m.get k' = some v := by
  rw [get_delete] at h
  split at h
  · cases h
  · next hne => exact ⟨hne, h⟩

@[simp] theorem get_delete_self (m : InsertionMap κ ν) (k : κ) : (m.delete k).get k = none := by
  rw [get_delete, if_pos rfl]

theorem get_delete_ne (m : InsertionMap κ ν) {k k' : κ} (h : k ≠ k') :
    (m.delete k).get k' = m.get k' := by
  rw [get_delete, if_neg h]

theorem has_iff {m : InsertionMap κ ν} {k : κ} : m.has k = true ↔ k ∈ m.keys := by
  rw [has, ← not_iff_not, ← get_eq_none, Bool.not_eq_true, Option.isSome_eq_false_iff,
    Option.isNone_iff_eq_none]

theorem has_set {m : InsertionMap κ ν} {k k' : κ} {v : ν} :
    (m.set k v).has k' = true ↔ k = k' ∨ m.has k' = true := by
  unfold has
  rw [get_set]
  by_cases h : k = k' <;> simp [h]

theorem has_delete {m : InsertionMap κ ν} {k k' : κ} :
    (m.delete k).has k' = true ↔ k ≠ k' ∧ m.has k' = true := by
  unfold has
  rw [get_delete]
  by_cases h : k = k' <;> simp [h]

omit [DecidableEq κ] in
theorem keys_nodup (m : InsertionMap κ ν) : m.keys.Nodup := m.nodup

theorem keys_delete (m : InsertionMap κ ν) (k : κ) :
    (m.delete k).keys = m.keys.filter (· ≠ k) := by
  unfold keys delete
  rw [List.filter_map]
  rfl

omit [DecidableEq κ] in
theorem size_eq (m : InsertionMap κ ν) : m.size = m.keys.length := (List.length_map _).symm

theorem size_delete_le (m : InsertionMap κ ν) (k : κ) : (m.delete k).size ≤ m.size :=
  List.length_filter_le _ _

theorem get_filter (m : InsertionMap κ ν) (p : κ → ν → Bool) (k : κ) :
    (m.filter p).get k = (m.get k).filter (p k) := by
  apply Option.ext
  intro v
  rw [get_eq_some, Option.filter_eq_some_iff, get_eq_some]
  simp [filter]

theorem get_filterMap {μ : Type} (f : ν → Option μ) (m : InsertionMap κ ν) (k : κ) :
    (m.filterMap f).get k = (m.get k).bind f := by
  apply Option.ext
  intro v
  rw [get_eq_some, Option.bind_eq_some_iff]
  constructor
  · intro h
    obtain ⟨e, he, hv⟩ := List.mem_filterMap.1 h
    obtain ⟨v', hv', heq⟩ := Option.map_eq_some_iff.1 hv
    cases heq
    exact ⟨e.2, get_eq_some.2 he, hv'⟩
  · rintro ⟨v', hv', hf⟩
    exact List.mem_filterMap.2 ⟨(k, v'), get_eq_some.1 hv', by rw [hf]; rfl⟩

theorem get_mapValues (m : InsertionMap κ ν) (f : ν → ν) (k : κ) :
    (m.mapValues f).get k = (m.get k).map f := by
  show getEntry k (m.entries.map fun e => (e.1, f e.2)) = (getEntry k m.entries).map f
  induction m.entries with
  | nil => rfl
  | cons e es ih =>
    by_cases h : e.1 = k
    · simp [getEntry, h]
    · simp only [List.map_cons, getEntry, h, if_false, ih]

omit [DecidableEq κ] in
theorem size_mapValues (m : InsertionMap κ ν) (f : ν → ν) : (m.mapValues f).size = m.size :=
  List.length_map _

theorem size_set_le (m : InsertionMap κ ν) (k : κ) (v : ν) : (m.set k v).size ≤ m.size + 1 := by
  rw [size_eq, size_eq, keys, set, keys_setEntry]
  split
  · exact Nat.le_succ _
  · rw [List.length_append]
    exact Nat.le_refl _

theorem entries_foldl_delete (ks : List κ) (m : InsertionMap κ ν) :
    (ks.foldl delete m).entries = m.entries.filter fun e => decide (e.1 ∉ ks) := by
  induction ks generalizing m with
  | nil => simp
  | cons k ks ih =>
    rw [List.foldl_cons, ih]
    simp only [delete, List.filter_filter, List.mem_cons, not_or, Bool.decide_and]
    refine List.filter_congr fun e _ => ?_
    rw [Bool.and_comm]

theorem get_foldl_delete (ks : List κ) (m : InsertionMap κ ν) (k : κ) :
    (ks.foldl delete m).get k = if k ∈ ks then none else m.get k := by
  induction ks generalizing m with
  | nil => simp
  | cons k' ks ih =>
    rw [List.foldl_cons, ih, get_delete]
    by_cases hk : k ∈ ks
    · simp [hk]
    · by_cases hk' : k' = k
      · simp [hk']
      · simp [hk, hk', Ne.symm hk']

/-- Setting one entry adds at most one to those that satisfy `p`, and none if its own value
does not. -/
theorem countP_set_le (m : InsertionMap κ ν) (k : κ) (v : ν) (p : ν → Bool) :
    (m.set k v).entries.countP (fun e => p e.2) ≤
      m.entries.countP (fun e => p e.2) + if p v then 1 else 0 := by
  show (setEntry k v m.entries).countP _ ≤ _
  induction m.entries with
  | nil =>
    rw [setEntry, List.countP_singleton]
    exact Nat.le_add_left _ _
  | cons e es ih =>
    rw [setEntry]
    split
    · rw [List.countP_cons, List.countP_cons]
      dsimp only
      omega
    · rw [List.countP_cons, List.countP_cons]
      omega

/-- Overwriting a present key keeps the size. -/
theorem size_set_of_get {m : InsertionMap κ ν} {k : κ} {old : ν} (h : m.get k = some old) (v : ν) :
    (m.set k v).size = m.size := by
  have hmem : k ∈ m.entries.map Prod.fst := List.mem_map.2 ⟨(k, old), get_eq_some.1 h, rfl⟩
  rw [size_eq, size_eq, keys, set, keys_setEntry, if_pos hmem, keys]

theorem get_of_mem_values {m : InsertionMap κ ν} {v : ν} (h : v ∈ m.values) :
    ∃ k, m.get k = some v := by
  obtain ⟨e, he, rfl⟩ := List.mem_map.1 h
  exact ⟨e.1, get_eq_some.2 he⟩

theorem mem_values_of_get {m : InsertionMap κ ν} {k : κ} {v : ν} (h : m.get k = some v) :
    v ∈ m.values :=
  List.mem_map.2 ⟨(k, v), get_eq_some.1 h, rfl⟩

/-- Setting fresh, pairwise distinct keys one after another appends the entries. -/
theorem entries_foldl_set : ∀ (es : List (κ × ν)) (m : InsertionMap κ ν),
    ((m.entries ++ es).map Prod.fst).Nodup →
      (es.foldl (fun m e => m.set e.1 e.2) m).entries = m.entries ++ es
  | [], m, _ => by simp
  | e :: es, m, h => by
    have hfresh : e.1 ∉ m.entries.map Prod.fst := by
      rw [List.map_append, List.map_cons] at h
      intro hmem
      exact (List.disjoint_of_nodup_append h) hmem List.mem_cons_self
    have happ : (m.set e.1 e.2).entries = m.entries ++ [e] := setEntry_fresh hfresh
    rw [List.foldl_cons, entries_foldl_set es, happ, List.append_assoc, List.singleton_append]
    rw [happ, List.append_assoc, List.singleton_append]
    exact h
where
  setEntry_fresh : ∀ {es : List (κ × ν)} {e : κ × ν}, e.1 ∉ es.map Prod.fst →
      setEntry e.1 e.2 es = es ++ [e]
    | [], _, _ => rfl
    | d :: ds, e, h => by
      rw [List.map_cons, List.mem_cons, not_or] at h
      rw [setEntry, if_neg (fun hd => h.1 hd.symm), setEntry_fresh h.2, List.cons_append]

/-- A key that is not there goes to the end. -/
theorem entries_set_of_fresh {m : InsertionMap κ ν} {k : κ} (h : m.has k = false) (v : ν) :
    (m.set k v).entries = m.entries ++ [(k, v)] := by
  have hfresh : k ∉ m.entries.map Prod.fst := fun hmem => by
    rw [has_iff.2 hmem] at h
    cases h
  have hset : setEntry k v m.entries = m.entries ++ [(k, v)] :=
    entries_foldl_set.setEntry_fresh (show (k, v).1 ∉ _ from hfresh)
  exact hset

/-- An entry and what deleting it leaves. -/
theorem perm_delete {m : InsertionMap κ ν} {k : κ} {v : ν} (h : m.get k = some v) :
    m.entries.Perm ((k, v) :: (m.delete k).entries) := by
  obtain ⟨before, after, hsplit⟩ := List.append_of_mem (get_eq_some.1 h)
  have hnodup := m.nodup
  rw [hsplit, List.map_append, List.map_cons, List.nodup_middle] at hnodup
  have hnot : k ∉ before.map Prod.fst ++ after.map Prod.fst := (List.nodup_cons.1 hnodup).1
  have hbefore : before.filter (fun e => e.1 ≠ k) = before :=
    List.filter_eq_self.2 fun e he => decide_eq_true fun heq =>
      hnot (List.mem_append_left _ (heq ▸ List.mem_map_of_mem he))
  have hafter : after.filter (fun e => e.1 ≠ k) = after :=
    List.filter_eq_self.2 fun e he => decide_eq_true fun heq =>
      hnot (List.mem_append_right _ (heq ▸ List.mem_map_of_mem he))
  have hdelete : (m.delete k).entries = before ++ after := by
    show m.entries.filter (fun e => e.1 ≠ k) = before ++ after
    rw [hsplit, List.filter_append, List.filter_cons_of_neg (by simp), hbefore, hafter]
  rw [hdelete, hsplit]
  exact List.perm_middle

end InsertionMap

end Dormouse

import Mathlib.Data.List.Induction
import Dormouse.Lib.MapFolds
import Dormouse.Terminal.DirectoryLabels

/-!
# Dormouse.Terminal.DirectoryLabelsSound

**When the labels of working directories are what they are for.** The maps of
`shortestUniqueCwdLabels` come to one function of the depth, `labelAt`; the loop ends at the least
depth at which it tells all identities apart, and the last resort is all that remains.
-/

namespace Dormouse.Terminal

open JsString

/-! ### Trailing paths -/

/-- The trailing path that is shown at a depth. -/
def CwdState.trailing (cwd : CwdState) (depth : Nat) : JsString :=
  formatTrailingPath cwd.path cwd.pathKind depth

theorem join_cons_cons (sep part next : JsString) (rest : List JsString) :
    join sep (part :: next :: rest) = part ++ sep ++ join sep (next :: rest) :=
  rfl

theorem join_ne_nil {sep : JsString} {parts : List JsString} (hne : parts ≠ [])
    (hparts : ∀ part ∈ parts, part ≠ []) : join sep parts ≠ [] := by
  match parts with
  | [] => exact absurd rfl hne
  | [part] => exact hparts part List.mem_cons_self
  | part :: next :: rest =>
    intro hnil
    rw [join_cons_cons, List.append_assoc] at hnil
    exact hparts part List.mem_cons_self (List.append_eq_nil_iff.1 hnil).1

theorem pathSegments_ne_nil {separator : UInt16} {path segment : JsString}
    (h : segment ∈ pathSegments separator path) : segment ≠ [] := by
  simpa using (List.mem_filter.1 h).2

theorem segments_ne_nil {path : JsString} {kind : PathKind} {segment : JsString}
    (h : segment ∈ (pathParts path kind).segments) : segment ≠ [] := by
  cases kind with
  | windows =>
    simp only [pathParts, windowsPathParts] at h
    split at h
    · exact pathSegments_ne_nil h
    · split at h <;> exact pathSegments_ne_nil h
  | posix => exact pathSegments_ne_nil h
  | unknown => exact pathSegments_ne_nil h

/-- A trailing path is never empty. -/
theorem CwdState.trailing_ne_nil (cwd : CwdState) (depth : Nat) : cwd.trailing depth ≠ [] := by
  simp only [CwdState.trailing, formatTrailingPath]
  split
  · split
    · assumption
    · split
      · assumption
      · decide
  rename_i hsegments
  have hlen : 0 < (pathParts cwd.path cwd.pathKind).segments.length := List.length_pos_iff.2 hsegments
  have htail : join (pathParts cwd.path cwd.pathKind).separator
      ((pathParts cwd.path cwd.pathKind).segments.drop
        ((pathParts cwd.path cwd.pathKind).segments.length - max 1 depth)) ≠ [] := by
    refine join_ne_nil (fun hnil => ?_) fun part hpart => segments_ne_nil (List.mem_of_mem_drop hpart)
    have := List.drop_eq_nil_iff.1 hnil
    omega
  split
  · exact List.append_ne_nil_of_right_ne_nil _ htail
  · exact htail

/-- From the number of segments on, a trailing path is the whole path. -/
theorem CwdState.trailing_of_le {cwd : CwdState} {depth depth' : Nat} (hone : 1 ≤ depth)
    (h : (pathParts cwd.path cwd.pathKind).segments.length ≤ depth) (hle : depth ≤ depth') :
    cwd.trailing depth' = cwd.trailing depth := by
  have hdrop : (pathParts cwd.path cwd.pathKind).segments.length - max 1 depth =
      (pathParts cwd.path cwd.pathKind).segments.length - max 1 depth' := by omega
  simp only [CwdState.trailing, formatTrailingPath, hdrop, h, h.trans hle]

theorem length_join_drop (sep : JsString) (parts : List JsString) (n : Nat) :
    (join sep (parts.drop n)).length ≤ (join sep parts).length := by
  induction n generalizing parts with
  | zero => exact Nat.le_refl _
  | succ n ih =>
    match parts with
    | [] => exact Nat.le_refl _
    | [part] => simp [join]
    | part :: next :: rest =>
      refine (ih (next :: rest)).trans ?_
      rw [join_cons_cons, List.length_append]
      exact Nat.le_add_left _ _

/-- A trailing path is no longer than the whole. -/
theorem CwdState.length_trailing {cwd : CwdState} {full : Nat} (hone : 1 ≤ full)
    (hfull : (pathParts cwd.path cwd.pathKind).segments.length ≤ full) (depth : Nat) :
    (cwd.trailing depth).length ≤ (cwd.trailing full).length := by
  simp only [CwdState.trailing, formatTrailingPath]
  split
  · exact Nat.le_refl _
  have hall : (pathParts cwd.path cwd.pathKind).segments.length - max 1 full = 0 := by omega
  have hjoin := length_join_drop (pathParts cwd.path cwd.pathKind).separator
    (pathParts cwd.path cwd.pathKind).segments
    ((pathParts cwd.path cwd.pathKind).segments.length - max 1 depth)
  rw [hall, List.drop_zero]
  split
  · rename_i hroot
    rw [if_pos ⟨hroot.1, hroot.2.1, hfull⟩, List.length_append, List.length_append]
    omega
  · split
    · rw [List.length_append]
      omega
    · exact hjoin

/-! ### One of each identity -/

/-- A list with one CWD of each identity. -/
def OnePerIdentity (cwds : List CwdState) : Prop := (cwds.map cwdIdentity).Nodup

theorem OnePerIdentity.inj {cwds : List CwdState} (h : OnePerIdentity cwds) :
    ∀ c ∈ cwds, ∀ c' ∈ cwds, cwdIdentity c = cwdIdentity c' → c = c' :=
  fun _ hc _ hc' heq => List.inj_on_of_nodup_map h hc hc' heq

theorem uniqueByIdentity_fold (cwds : List CwdState) :
    (∀ k c, (cwds.foldl (fun result cwd =>
        if result.has (cwdIdentity cwd) then result else result.set (cwdIdentity cwd) cwd)
        (InsertionMap.empty : InsertionMap JsString CwdState)).get k = some c →
      cwdIdentity c = k ∧ c ∈ cwds) ∧
    ∀ c ∈ cwds, (cwds.foldl (fun result cwd =>
        if result.has (cwdIdentity cwd) then result else result.set (cwdIdentity cwd) cwd)
        (InsertionMap.empty : InsertionMap JsString CwdState)).has (cwdIdentity c) = true := by
  induction cwds using List.reverseRecOn with
  | nil => exact ⟨fun k c h => absurd h (by simp [InsertionMap.get_empty]), fun c h => absurd h List.not_mem_nil⟩
  | append_singleton cwds cwd ih =>
    rw [List.foldl_append, List.foldl_cons, List.foldl_nil]
    split
    · rename_i hhas
      refine ⟨fun k c h => ?_, fun c hc => ?_⟩
      · exact ⟨(ih.1 k c h).1, List.mem_append_left _ (ih.1 k c h).2⟩
      · rcases List.mem_append.1 hc with hold | hnew
        · exact ih.2 c hold
        · rw [List.mem_singleton.1 hnew]
          exact hhas
    · refine ⟨fun k c h => ?_, fun c hc => ?_⟩
      · rcases InsertionMap.get_of_set h with ⟨hk, rfl⟩ | ⟨-, h⟩
        · exact ⟨hk, by simp⟩
        · exact ⟨(ih.1 k c h).1, List.mem_append_left _ (ih.1 k c h).2⟩
      · rw [InsertionMap.has_set]
        rcases List.mem_append.1 hc with hold | hnew
        · exact .inr (ih.2 c hold)
        · exact .inl (by rw [List.mem_singleton.1 hnew])

theorem onePerIdentity_unique (cwds : List CwdState) : OnePerIdentity (uniqueByIdentity cwds) := by
  have hfold := (uniqueByIdentity_fold cwds).1
  rw [OnePerIdentity, uniqueByIdentity]
  generalize cwds.foldl _ _ = m at hfold ⊢
  have hkeys : m.values.map cwdIdentity = m.keys := by
    rw [InsertionMap.values, InsertionMap.keys, List.map_map]
    exact List.map_congr_left fun e he => (hfold e.1 e.2 (InsertionMap.get_eq_some.2 he)).1
  rw [hkeys]
  exact m.keys_nodup

theorem mem_of_mem_unique {cwds : List CwdState} {c : CwdState} (h : c ∈ uniqueByIdentity cwds) :
    c ∈ cwds := by
  obtain ⟨k, hk⟩ := InsertionMap.get_of_mem_values h
  exact ((uniqueByIdentity_fold cwds).1 k c hk).2

/-- Every CWD is represented. -/
theorem exists_mem_unique {cwds : List CwdState} {c : CwdState} (h : c ∈ cwds) :
    ∃ u ∈ uniqueByIdentity cwds, cwdIdentity u = cwdIdentity c := by
  obtain ⟨u, hu⟩ := Option.isSome_iff_exists.1 ((uniqueByIdentity_fold cwds).2 c h)
  exact ⟨u, InsertionMap.mem_values_of_get hu, ((uniqueByIdentity_fold cwds).1 _ u hu).1⟩

/-! ### The labels of one depth -/

/-- The CWDs that show the same trailing path. -/
def sameTrailing (cwds : List CwdState) (depth : Nat) (c : CwdState) : List CwdState :=
  cwds.filter fun o => o.trailing depth = c.trailing depth

/-- The host is in front of the label of this depth. -/
def Prefixed (cwds : List CwdState) (depth : Nat) (c : CwdState) : Prop :=
  c.hostName ≠ [] ∧ (c.isRemote = true ∨ needsHosts (sameTrailing cwds depth c) = true)

instance (cwds : List CwdState) (depth : Nat) (c : CwdState) : Decidable (Prefixed cwds depth c) :=
  inferInstanceAs (Decidable (_ ∧ _))

/-- The label of this depth: the trailing path, with the host in front of it where that is
required. -/
def labelAt (cwds : List CwdState) (depth : Nat) (c : CwdState) : JsString :=
  if Prefixed cwds depth c then hostLabel c (c.trailing depth) else c.trailing depth

theorem get_labelGroups (cwds : List CwdState) (base : CwdLabels) (label : JsString) :
    (labelGroups cwds base).get label =
      if cwds.filter (fun o => labelOf base o = some label) = [] then none
      else some (cwds.filter fun o => labelOf base o = some label) :=
  InsertionMap.get_foldl_group (fun _ _ hnone => by rw [hnone]) (fun _ _ _ hsome => by rw [hsome]) cwds
    label

theorem hostLabel_ne_nil (c : CwdState) (label : JsString) : hostLabel c label ≠ [] := by
  rw [hostLabel, List.append_assoc]
  exact List.append_ne_nil_of_right_ne_nil _ (List.cons_ne_nil _ _)

theorem labelAt_ne_nil (cwds : List CwdState) (depth : Nat) (c : CwdState) :
    labelAt cwds depth c ≠ [] := by
  rw [labelAt]
  split
  · exact hostLabel_ne_nil c _
  · exact c.trailing_ne_nil depth

theorem shouldIncludeHost_auto (group : List CwdState) (c : CwdState) :
    (shouldIncludeHost .auto group c = true ∧ c.hostName ≠ []) ↔
      c.hostName ≠ [] ∧ (c.isRemote = true ∨ needsHosts group = true) := by
  by_cases h : c.hostName = [] <;> simp [shouldIncludeHost, h]

section Depth

variable {cwds : List CwdState} (depth : Nat)

theorem get_baseLabels (hone : OnePerIdentity cwds) {c : CwdState} (hc : c ∈ cwds) :
    (cwds.foldl (fun labels cwd =>
      labels.set (cwdIdentity cwd) (formatTrailingPath cwd.path cwd.pathKind depth))
      (InsertionMap.empty : CwdLabels)).get (cwdIdentity c) = some (c.trailing depth) :=
  @InsertionMap.get_foldl_set _ _ _ _ _ (fun c : CwdState => c.trailing depth) _ hone.inj .empty _ hc

/-- The labels of a depth are those of `labelAt`. -/
theorem get_labelsAtDepth (hone : OnePerIdentity cwds) {c : CwdState} (hc : c ∈ cwds) :
    (labelsAtDepth cwds .auto depth).get (cwdIdentity c) = some (labelAt cwds depth c) := by
  have hbase := fun {c} hc => get_baseLabels depth hone (c := c) hc
  rw [labelsAtDepth, withRequiredHostPrefixes]
  generalize cwds.foldl (fun labels cwd =>
      labels.set (cwdIdentity cwd) (formatTrailingPath cwd.path cwd.pathKind depth))
      (InsertionMap.empty : CwdLabels) = base at hbase ⊢
  have hlabel : ∀ o ∈ cwds, labelOf base o = some (o.trailing depth) := by
    intro o ho
    rw [labelOf, hbase ho, Option.filter_some, if_pos (decide_eq_true (o.trailing_ne_nil depth))]
  have hshown : ∀ label, (cwds.filter fun o => labelOf base o = some label) =
      cwds.filter fun o => o.trailing depth = label :=
    fun label => List.filter_congr fun o ho => by simp [hlabel o ho]
  -- The group of a label are the CWDs that show it.
  have hgroup : ∀ label group, (labelGroups cwds base).get label = some group →
      group = cwds.filter fun o => o.trailing depth = label := by
    intro label group hget
    rw [get_labelGroups, hshown] at hget
    split at hget
    · cases hget
    · exact (Option.some.inj hget).symm
  -- Every CWD is visited once, with its own group.
  have hvisit : ∀ e ∈ (labelGroups cwds base).entries, ∀ o ∈ e.2,
      o ∈ cwds ∧ e.1 = o.trailing depth ∧ e.2 = sameTrailing cwds depth o := by
    intro e he o ho
    have heq := hgroup e.1 e.2 (InsertionMap.get_eq_some.2 he)
    rw [heq] at ho
    obtain ⟨hmem, htrailing⟩ := List.mem_filter.1 ho
    rw [decide_eq_true_eq] at htrailing
    exact ⟨hmem, htrailing.symm, by rw [heq, sameTrailing, htrailing]⟩
  have hitem : (c.trailing depth, sameTrailing cwds depth c, c) ∈
      (labelGroups cwds base).entries.flatMap fun e => e.2.map fun o => (e.1, e.2, o) := by
    have hself : c ∈ sameTrailing cwds depth c := List.mem_filter.2 ⟨hc, decide_eq_true rfl⟩
    have hget : (labelGroups cwds base).get (c.trailing depth) = some (sameTrailing cwds depth c) := by
      rw [get_labelGroups, hshown]
      exact if_neg (List.ne_nil_of_mem hself)
    exact List.mem_flatMap.2 ⟨_, InsertionMap.get_eq_some.1 hget, List.mem_map.2 ⟨c, hself, rfl⟩⟩
  have hflat : ((labelGroups cwds base).entries.foldl (fun result group =>
      group.2.foldl (fun result cwd =>
        if shouldIncludeHost .auto group.2 cwd ∧ cwd.hostName ≠ [] then
          result.set (cwdIdentity cwd) (hostLabel cwd group.1)
        else result) result) base) =
      ((labelGroups cwds base).entries.flatMap fun e => e.2.map fun o => (e.1, e.2, o)).foldl
        (fun m x => if shouldIncludeHost .auto x.2.1 x.2.2 = true ∧ x.2.2.hostName ≠ [] then
          m.set (cwdIdentity x.2.2) (hostLabel x.2.2 x.1) else m) base := by
    rw [List.foldl_flatMap]
    simp only [List.foldl_map]
  rw [hflat]
  have hset := @InsertionMap.get_foldl_setIf _ _ _ _
    (fun x : JsString × List CwdState × CwdState => cwdIdentity x.2.2) (fun x => hostLabel x.2.2 x.1)
    (fun x => shouldIncludeHost .auto x.2.1 x.2.2 = true ∧ x.2.2.hostName ≠ []) _
    ((labelGroups cwds base).entries.flatMap fun e => e.2.map fun o => (e.1, e.2, o))
    (by
      intro x hx y hy hkey
      obtain ⟨e, he, hxe⟩ := List.mem_flatMap.1 hx
      obtain ⟨o, ho, rfl⟩ := List.mem_map.1 hxe
      obtain ⟨e', he', hye⟩ := List.mem_flatMap.1 hy
      obtain ⟨o', ho', rfl⟩ := List.mem_map.1 hye
      obtain ⟨hmem, hfst, hsnd⟩ := hvisit e he o ho
      obtain ⟨hmem', hfst', hsnd'⟩ := hvisit e' he' o' ho'
      obtain rfl := hone.inj o hmem o' hmem' hkey
      rw [hfst, hsnd, hfst', hsnd']
      exact ⟨Iff.rfl, rfl⟩) base _ hitem
  rw [hset, labelAt]
  by_cases hprefixed : Prefixed cwds depth c
  · rw [if_pos ((shouldIncludeHost_auto _ c).2 hprefixed), if_pos hprefixed]
  · rw [if_neg fun h => hprefixed ((shouldIncludeHost_auto _ c).1 h), if_neg hprefixed]
    exact hbase hc

end Depth

/-! ### Collisions -/

theorem mem_findLabelCollisions {cwds : List CwdState} {labels : CwdLabels} {label : JsString} :
    label ∈ findLabelCollisions cwds labels ↔
      1 < cwds.countP fun c => labelOf labels c = some label := by
  rw [findLabelCollisions]
  generalize hcounts : cwds.foldl _ (InsertionMap.empty : InsertionMap JsString Nat) = counts
  have hcount : (counts.get label).getD 0 = cwds.countP fun c => labelOf labels c = some label := by
    rw [← hcounts]
    exact InsertionMap.get_foldl_count (fun _ _ hnone => by rw [hnone])
      (fun _ _ _ hsome => by rw [hsome]) cwds label
  rw [← hcount]
  constructor
  · intro h
    obtain ⟨e, he, rfl⟩ := List.mem_map.1 h
    obtain ⟨hmem, hmany⟩ := List.mem_filter.1 he
    rw [InsertionMap.get_eq_some.2 hmem]
    exact of_decide_eq_true hmany
  · intro h
    cases hget : counts.get label with
    | none => simp [hget] at h
    | some n =>
      rw [hget] at h
      exact List.mem_map.2 ⟨_, List.mem_filter.2 ⟨InsertionMap.get_eq_some.1 hget,
        decide_eq_true h⟩, rfl⟩

theorem one_lt_length_iff {α : Type} {l : List α} (h : l.Nodup) {a : α} (ha : a ∈ l) :
    1 < l.length ↔ ∃ b ∈ l, b ≠ a := by
  have hnil : l ≠ [] := List.ne_nil_of_mem ha
  have hpos : 0 < l.length := List.length_pos_iff.2 hnil
  have hsingle : l ≠ [a] ↔ ∃ b ∈ l, b ≠ a := by
    rw [h.ne_singleton_iff a]
    exact or_iff_right hnil
  rw [← hsingle]
  constructor
  · intro hlen heq
    rw [heq] at hlen
    exact absurd hlen (Nat.lt_irrefl 1)
  · intro hne
    by_contra hlen
    obtain ⟨b, rfl⟩ := List.length_eq_one_iff.1 (Nat.le_antisymm (Nat.not_lt.1 hlen) hpos)
    exact hne (by rw [List.mem_singleton.1 ha])

section Shown

variable {cwds : List CwdState} {labels : CwdLabels} {shown : CwdState → JsString}

/-- Against labels that `shown` describes, a collision is a label two CWDs have. -/
theorem mem_findLabelCollisions_shown (hone : OnePerIdentity cwds)
    (hget : ∀ c ∈ cwds, labels.get (cwdIdentity c) = some (shown c)) (hne : ∀ c, shown c ≠ [])
    {c : CwdState} (hc : c ∈ cwds) :
    shown c ∈ findLabelCollisions cwds labels ↔ ∃ o ∈ cwds, o ≠ c ∧ shown o = shown c := by
  have hlabel : ∀ o ∈ cwds, labelOf labels o = some (shown o) := by
    intro o ho
    rw [labelOf, hget o ho, Option.filter_some, if_pos (decide_eq_true (hne o))]
  have hcount : (cwds.countP fun o => labelOf labels o = some (shown c)) =
      (cwds.filter fun o => shown o = shown c).length := by
    rw [List.countP_eq_length_filter]
    exact congrArg List.length (List.filter_congr fun o ho => by simp [hlabel o ho])
  have hnodup : cwds.Nodup := List.Nodup.of_map _ hone
  have hself : c ∈ cwds.filter fun o => shown o = shown c :=
    List.mem_filter.2 ⟨hc, decide_eq_true rfl⟩
  rw [mem_findLabelCollisions, hcount, one_lt_length_iff (hnodup.filter _) hself]
  constructor
  · rintro ⟨o, ho, hoc⟩
    obtain ⟨hmem, hsame⟩ := List.mem_filter.1 ho
    exact ⟨o, hmem, hoc, of_decide_eq_true hsame⟩
  · rintro ⟨o, ho, hoc, hsame⟩
    exact ⟨o, List.mem_filter.2 ⟨ho, decide_eq_true hsame⟩, hoc⟩

theorem findLabelCollisions_eq_nil (hone : OnePerIdentity cwds)
    (hget : ∀ c ∈ cwds, labels.get (cwdIdentity c) = some (shown c)) (hne : ∀ c, shown c ≠ []) :
    findLabelCollisions cwds labels = [] ↔ (cwds.map shown).Nodup := by
  have hnodup : cwds.Nodup := List.Nodup.of_map _ hone
  constructor
  · intro hnil
    refine hnodup.map_on fun c hc o ho hsame => ?_
    by_contra hne'
    have hmem := (mem_findLabelCollisions_shown hone hget hne ho).2 ⟨c, hc, hne', hsame⟩
    rw [hnil] at hmem
    exact absurd hmem List.not_mem_nil
  · intro hshown
    refine List.eq_nil_iff_forall_not_mem.2 fun label hmem => ?_
    have hmany := mem_findLabelCollisions.1 hmem
    obtain ⟨c, hc, hlabel⟩ := List.countP_pos_iff.1 (Nat.zero_lt_one.trans hmany)
    have hself : label = shown c := by
      have := of_decide_eq_true hlabel
      rw [labelOf, hget c hc, Option.filter_some, if_pos (decide_eq_true (hne c))] at this
      exact (Option.some.inj this).symm
    obtain ⟨o, ho, hoc, hsame⟩ := (mem_findLabelCollisions_shown hone hget hne hc).1 (hself ▸ hmem)
    exact hoc (List.inj_on_of_nodup_map hshown ho hc hsame)

end Shown

/-! ### The search -/

/-- The labels of this depth tell the CWDs apart. -/
def DistinctAt (cwds : List CwdState) (depth : Nat) : Prop := (cwds.map (labelAt cwds depth)).Nodup

theorem findLabelCollisions_labelsAtDepth {cwds : List CwdState} (hone : OnePerIdentity cwds)
    (depth : Nat) :
    findLabelCollisions cwds (labelsAtDepth cwds .auto depth) = [] ↔ DistinctAt cwds depth :=
  findLabelCollisions_eq_nil hone (fun _ hc => get_labelsAtDepth depth hone hc)
    (labelAt_ne_nil cwds depth)

/-- The loop ends at the first depth that tells the CWDs apart, or after the last one. -/
theorem searchDepths_range {cwds : List CwdState} (hone : OnePerIdentity cwds) (count first : Nat)
    (labels : CwdLabels) :
    (∃ depth, first ≤ depth ∧ depth < first + count ∧ DistinctAt cwds depth ∧
      (∀ d, first ≤ d → d < depth → ¬DistinctAt cwds d) ∧
      searchDepths cwds .auto (List.range' first count) labels =
        (labelsAtDepth cwds .auto depth, true)) ∨
    ((∀ d, first ≤ d → d < first + count → ¬DistinctAt cwds d) ∧
      searchDepths cwds .auto (List.range' first count) labels =
        (if count = 0 then labels else labelsAtDepth cwds .auto (first + count - 1), false)) := by
  induction count generalizing first labels with
  | zero => exact .inr ⟨fun d hfirst hlast => by omega, rfl⟩
  | succ count ih =>
    rw [List.range'_succ, searchDepths]
    by_cases hhere : DistinctAt cwds first
    · rw [if_pos ((findLabelCollisions_labelsAtDepth hone first).2 hhere)]
      exact .inl ⟨first, Nat.le_refl _, by omega, hhere, fun d _ _ => by omega, rfl⟩
    rw [if_neg fun h => hhere ((findLabelCollisions_labelsAtDepth hone first).1 h)]
    have hbefore : ∀ d, first ≤ d → d < first + 1 → ¬DistinctAt cwds d :=
      fun d _ _ => (show d = first by omega) ▸ hhere
    rcases ih (first + 1) (labelsAtDepth cwds .auto first) with
      ⟨depth, hfirst, hlast, hdistinct, hnone, heq⟩ | ⟨hnone, heq⟩
    · refine .inl ⟨depth, by omega, by omega, hdistinct, fun d hd hlt => ?_, heq⟩
      by_cases hd' : d < first + 1
      · exact hbefore d hd hd'
      · exact hnone d (by omega) hlt
    refine .inr ⟨fun d hd hlt => ?_, ?_⟩
    · by_cases hd' : d < first + 1
      · exact hbefore d hd hd'
      · exact hnone d (by omega) (by omega)
    · rw [heq]
      cases count with
      | zero => rfl
      | succ count => simp [show first + 1 + (count + 1) - 1 = first + (count + 1 + 1) - 1 by omega]

theorem one_le_maxDepth (cwds : List CwdState) : 1 ≤ maxDepth cwds := by
  rw [maxDepth]
  generalize cwds.map (fun cwd => (pathParts cwd.path cwd.pathKind).segments.length) = counts
  induction counts with
  | nil => exact Nat.le_refl _
  | cons count counts ih => exact ih.trans (Nat.le_max_right _ _)

theorem segments_le_maxDepth {cwds : List CwdState} {c : CwdState} (h : c ∈ cwds) :
    (pathParts c.path c.pathKind).segments.length ≤ maxDepth cwds := by
  have hmem := List.mem_map_of_mem (f := fun cwd : CwdState =>
    (pathParts cwd.path cwd.pathKind).segments.length) h
  rw [maxDepth]
  generalize cwds.map (fun cwd => (pathParts cwd.path cwd.pathKind).segments.length) = counts at hmem ⊢
  induction counts with
  | nil => cases hmem
  | cons count counts ih =>
    rcases List.mem_cons.1 hmem with rfl | htail
    · exact Nat.le_max_left _ _
    · exact (ih htail).trans (Nat.le_max_right _ _)

/-- Beyond the longest path the labels stay as they are. -/
theorem labelAt_of_le {cwds : List CwdState} {depth : Nat} (h : maxDepth cwds ≤ depth) {c : CwdState}
    (hc : c ∈ cwds) : labelAt cwds depth c = labelAt cwds (maxDepth cwds) c := by
  have htrailing : ∀ o ∈ cwds, o.trailing depth = o.trailing (maxDepth cwds) := fun o ho =>
    CwdState.trailing_of_le (one_le_maxDepth cwds) (segments_le_maxDepth ho) h
  have hgroup : sameTrailing cwds depth c = sameTrailing cwds (maxDepth cwds) c :=
    List.filter_congr fun o ho => by rw [htrailing o ho, htrailing c hc]
  have hprefixed : Prefixed cwds depth c ↔ Prefixed cwds (maxDepth cwds) c := by
    rw [Prefixed, Prefixed, hgroup]
  simp only [labelAt, hprefixed, htrailing c hc]

theorem distinctAt_of_le {cwds : List CwdState} {depth : Nat} (h : maxDepth cwds ≤ depth) :
    DistinctAt cwds depth ↔ DistinctAt cwds (maxDepth cwds) := by
  rw [DistinctAt, DistinctAt, List.map_congr_left fun c hc => labelAt_of_le h hc]

/-! ### The last resort -/

/-- The label of the whole paths. -/
def fullLabel (cwds : List CwdState) (c : CwdState) : JsString := labelAt cwds (maxDepth cwds) c

/-- The text of the whole path, without a host. -/
def fullTrailing (cwds : List CwdState) (c : CwdState) : JsString := c.trailing (maxDepth cwds)

/-- Another CWD has the same label at full depth. -/
def Collides (cwds : List CwdState) (c : CwdState) : Prop :=
  ∃ o ∈ cwds, o ≠ c ∧ fullLabel cwds o = fullLabel cwds c

instance (cwds : List CwdState) (c : CwdState) : Decidable (Collides cwds c) :=
  inferInstanceAs (Decidable (∃ o ∈ cwds, _))

/-- The last resort puts the host in front of what is not unique, whatever is there already. -/
theorem get_prefixHosts {cwds : List CwdState} (hone : OnePerIdentity cwds) {c : CwdState}
    (hc : c ∈ cwds) :
    (prefixHosts cwds .auto (labelsAtDepth cwds .auto (maxDepth cwds))).get (cwdIdentity c) =
      some (if (c.isRemote = true ∨ Collides cwds c) ∧ c.hostName ≠ [] then
        hostLabel c (fullLabel cwds c) else fullLabel cwds c) := by
  have hget : ∀ c ∈ cwds, (labelsAtDepth cwds .auto (maxDepth cwds)).get (cwdIdentity c) =
      some (fullLabel cwds c) := fun _ hc => get_labelsAtDepth _ hone hc
  have hcollides := mem_findLabelCollisions_shown hone hget (labelAt_ne_nil cwds _) hc
  rw [prefixHosts]
  generalize findLabelCollisions cwds (labelsAtDepth cwds .auto (maxDepth cwds)) = remaining at *
  rw [InsertionMap.get_foldl_update (fun c label =>
    if ((HostMode.auto = .always || HostMode.auto = .auto &&
        (c.isRemote || label.getD [] ∈ remaining)) = true) ∧ c.hostName ≠ [] then
      hostLabel c (label.getD []) else label.getD []) hone _ hc, hget c hc, Option.getD_some]
  by_cases hremote : c.isRemote = true <;> simp [hremote, hcollides, Collides]

/-- What the last resort should come to: the whole path, behind the host if it is not the only one of
its text. -/
def qualified (cwds : List CwdState) (c : CwdState) : JsString :=
  if c.hostName ≠ [] ∧ ∃ o ∈ cwds, o ≠ c ∧ fullTrailing cwds o = fullTrailing cwds c then
    hostLabel c (fullTrailing cwds c)
  else fullTrailing cwds c

/-- No host is in front already where the last resort puts one. -/
def HostPending (cwds : List CwdState) : Prop :=
  ∀ c ∈ cwds, c.hostName ≠ [] → c.isRemote = false ∧
    ¬(needsHosts (sameTrailing cwds (maxDepth cwds) c) = true ∧ Collides cwds c)

theorem HostPending.eq_qualified {cwds : List CwdState} (h : HostPending cwds) (hnodup : cwds.Nodup)
    {c : CwdState} (hc : c ∈ cwds) :
    (if (c.isRemote = true ∨ Collides cwds c) ∧ c.hostName ≠ [] then
      hostLabel c (fullLabel cwds c) else fullLabel cwds c) = qualified cwds c := by
  by_cases hhost : c.hostName = []
  · have hplain : ¬Prefixed cwds (maxDepth cwds) c := fun hprefixed => hprefixed.1 hhost
    rw [if_neg fun hneeds => hneeds.2 hhost, qualified, if_neg fun hshared => hshared.1 hhost,
      fullLabel, labelAt, if_neg hplain, fullTrailing]
  obtain ⟨hlocal, honce⟩ := h c hc hhost
  by_cases hneeds : needsHosts (sameTrailing cwds (maxDepth cwds) c) = true
  · -- The host is in front, and another CWD shows the same text.
    have hlone : ¬Collides cwds c := fun hcollides => honce ⟨hneeds, hcollides⟩
    have hshared : ∃ o ∈ cwds, o ≠ c ∧ fullTrailing cwds o = fullTrailing cwds c := by
      have hlen : 1 < (sameTrailing cwds (maxDepth cwds) c).length := by
        simp only [needsHosts, Bool.and_eq_true, decide_eq_true_eq] at hneeds
        exact hneeds.1.1
      obtain ⟨o, ho, hne⟩ := (one_lt_length_iff (hnodup.filter _)
        (List.mem_filter.2 ⟨hc, decide_eq_true rfl⟩)).1 hlen
      exact ⟨o, (List.mem_filter.1 ho).1, hne, of_decide_eq_true (List.mem_filter.1 ho).2⟩
    rw [if_neg (by simp [hlocal, hlone]), qualified, if_pos ⟨hhost, hshared⟩, fullLabel, labelAt,
      if_pos ⟨hhost, .inr hneeds⟩, fullTrailing]
  · have hplain : fullLabel cwds c = fullTrailing cwds c := if_neg (by simp [Prefixed, hlocal, hneeds])
    -- What shows the same text has no host in front of it either.
    have hshared : Collides cwds c ↔
        ∃ o ∈ cwds, o ≠ c ∧ fullTrailing cwds o = fullTrailing cwds c := by
      constructor
      · rintro ⟨o, ho, hne, hsame⟩
        by_cases hprefixed : Prefixed cwds (maxDepth cwds) o
        · obtain ⟨holocal, hoonce⟩ := h o ho hprefixed.1
          rcases hprefixed.2 with hremote | honeeds
          · rw [holocal] at hremote
            cases hremote
          · exact absurd ⟨honeeds, c, hc, hne.symm, hsame.symm⟩ hoonce
        · refine ⟨o, ho, hne, ?_⟩
          rw [← hplain, ← hsame, fullLabel, labelAt, if_neg hprefixed, fullTrailing]
      · rintro ⟨o, ho, hne, hsame⟩
        have hgroup : sameTrailing cwds (maxDepth cwds) o = sameTrailing cwds (maxDepth cwds) c := by
          rw [sameTrailing, sameTrailing, show o.trailing (maxDepth cwds) = _ from hsame, fullTrailing]
        have hprefixed : ¬Prefixed cwds (maxDepth cwds) o := by
          rintro ⟨hohost, hremote | honeeds⟩
          · rw [(h o ho hohost).1] at hremote
            cases hremote
          · exact hneeds (hgroup ▸ honeeds)
        refine ⟨o, ho, hne, ?_⟩
        rw [hplain, ← hsame, fullLabel, labelAt, if_neg hprefixed, fullTrailing]
    rw [qualified, hplain]
    by_cases hcollides : Collides cwds c
    · rw [if_pos ⟨.inr hcollides, hhost⟩, if_pos ⟨hhost, hshared.1 hcollides⟩]
    · rw [if_neg (by simp [hlocal, hcollides]), if_neg fun hq => hcollides (hshared.2 hq.2)]

/-! ### What the labels are for -/

/-- The host and the path segments, a drive or UNC root included. -/
def CwdState.place (cwd : CwdState) : JsString × JsString × List JsString :=
  let parts := pathParts cwd.path cwd.pathKind
  (cwd.hostName, if cwd.pathKind = .windows then parts.root else [], parts.segments)

/-- Shortest unique labels of a list of CWDs. -/
structure UniqueLabels (cwds : List CwdState) (labels : CwdLabels) : Prop where
  labelled : ∀ c ∈ cwds, ∃ label, labels.get (cwdIdentity c) = some label
  distinct : ∀ c ∈ cwds, ∀ c' ∈ cwds, c.place ≠ c'.place →
    labels.get (cwdIdentity c) ≠ labels.get (cwdIdentity c')
  least : ∀ depth, IsLeast {d | 1 ≤ d ∧ DistinctAt (uniqueByIdentity cwds) d} depth →
    ∀ c ∈ uniqueByIdentity cwds,
      labels.get (cwdIdentity c) = some (labelAt (uniqueByIdentity cwds) depth c)
  hostOnce : ∀ c ∈ uniqueByIdentity cwds, ∃ depth, 1 ≤ depth ∧
    (labels.get (cwdIdentity c) = some (c.trailing depth) ∨
      c.hostName ≠ [] ∧ labels.get (cwdIdentity c) = some (hostLabel c (c.trailing depth)))

section Shortest

variable {cwds : List CwdState} {c : CwdState}

theorem get_shortest_of_least {depth : Nat}
    (h : IsLeast {d | 1 ≤ d ∧ DistinctAt (uniqueByIdentity cwds) d} depth)
    (hc : c ∈ uniqueByIdentity cwds) :
    (shortestUniqueCwdLabels cwds .auto).get (cwdIdentity c) =
      some (labelAt (uniqueByIdentity cwds) depth c) := by
  have hone := onePerIdentity_unique cwds
  rw [shortestUniqueCwdLabels]
  rw [if_neg (List.ne_nil_of_mem hc)]
  rcases searchDepths_range hone (maxDepth (uniqueByIdentity cwds)) 1 .empty with
    ⟨first, hfirst, -, hdistinct, hnone, heq⟩ | ⟨hnone, -⟩
  · have hdepth : depth = first := by
      refine Nat.le_antisymm (h.2 ⟨hfirst, hdistinct⟩) (Nat.not_lt.1 fun hlt => ?_)
      exact hnone depth h.1.1 hlt h.1.2
    rw [heq, hdepth]
    exact get_labelsAtDepth first hone hc
  · exfalso
    by_cases hle : depth ≤ maxDepth (uniqueByIdentity cwds)
    · exact hnone depth h.1.1 (by omega) h.1.2
    · refine hnone _ (one_le_maxDepth _) (by omega) ((distinctAt_of_le (by omega)).1 h.1.2)

theorem get_shortest_of_none (h : ¬∃ depth, 1 ≤ depth ∧ DistinctAt (uniqueByIdentity cwds) depth)
    (hc : c ∈ uniqueByIdentity cwds) :
    (shortestUniqueCwdLabels cwds .auto).get (cwdIdentity c) =
      some (if (c.isRemote = true ∨ Collides (uniqueByIdentity cwds) c) ∧ c.hostName ≠ [] then
        hostLabel c (fullLabel (uniqueByIdentity cwds) c)
      else fullLabel (uniqueByIdentity cwds) c) := by
  have hone := onePerIdentity_unique cwds
  have hmax := one_le_maxDepth (uniqueByIdentity cwds)
  rw [shortestUniqueCwdLabels]
  rw [if_neg (List.ne_nil_of_mem hc)]
  rcases searchDepths_range hone (maxDepth (uniqueByIdentity cwds)) 1 .empty with
    ⟨first, hfirst, -, hdistinct, -, -⟩ | ⟨-, heq⟩
  · exact absurd ⟨first, hfirst, hdistinct⟩ h
  · rw [heq, if_neg (by omega), Nat.add_sub_cancel_left]
    exact get_prefixHosts hone hc

end Shortest

/-- The last resort does what it is for: no host is in front already, and what it comes to tells the
places apart. -/
structure LastResort (cwds : List CwdState) : Prop where
  pending : HostPending cwds
  apart : ∀ c ∈ cwds, ∀ c' ∈ cwds, qualified cwds c = qualified cwds c' → c.place = c'.place

/-- A host in front of a host is no label of the CWD. -/
theorem hostLabel_hostLabel_ne {cwds : List CwdState} {c : CwdState} (hc : c ∈ cwds) (depth : Nat) :
    hostLabel c (hostLabel c (fullTrailing cwds c)) ≠ c.trailing depth ∧
      hostLabel c (hostLabel c (fullTrailing cwds c)) ≠ hostLabel c (c.trailing depth) := by
  have hlen : (c.trailing depth).length ≤ (fullTrailing cwds c).length :=
    CwdState.length_trailing (one_le_maxDepth cwds) (segments_le_maxDepth hc) depth
  have hcolon : (js ":").length = 1 := by decide
  constructor
  · intro heq
    have := congrArg List.length heq
    simp only [hostLabel, List.length_append, hcolon] at this
    omega
  · intro heq
    have := congrArg List.length heq
    simp only [hostLabel, List.length_append, hcolon] at this
    omega

/-- Where a depth or the last resort tells the places apart, every representative has a label that
carries its host at most once. -/
theorem exists_shown {cwds : List CwdState}
    (hlabels : (∃ depth, 1 ≤ depth ∧ DistinctAt (uniqueByIdentity cwds) depth) ∨
      LastResort (uniqueByIdentity cwds)) :
    ∃ shown : CwdState → JsString,
      (∀ c ∈ uniqueByIdentity cwds,
        (shortestUniqueCwdLabels cwds .auto).get (cwdIdentity c) = some (shown c) ∧
        ∃ depth, 1 ≤ depth ∧ (shown c = c.trailing depth ∨
          c.hostName ≠ [] ∧ shown c = hostLabel c (c.trailing depth))) ∧
      ∀ c ∈ uniqueByIdentity cwds, ∀ c' ∈ uniqueByIdentity cwds, shown c = shown c' →
        c.place = c'.place := by
  have hnodup : (uniqueByIdentity cwds).Nodup := List.Nodup.of_map _ (onePerIdentity_unique cwds)
  by_cases hsome : ∃ depth, 1 ≤ depth ∧ DistinctAt (uniqueByIdentity cwds) depth
  · classical
    have hleast : IsLeast {d | 1 ≤ d ∧ DistinctAt (uniqueByIdentity cwds) d} (Nat.find hsome) :=
      ⟨Nat.find_spec hsome, fun d hd => Nat.find_min' hsome hd⟩
    refine ⟨labelAt (uniqueByIdentity cwds) (Nat.find hsome), fun c hc =>
      ⟨get_shortest_of_least hleast hc, Nat.find hsome, hleast.1.1, ?_⟩, fun c hc c' hc' hsame => ?_⟩
    · rw [labelAt]
      split
      · rename_i hprefixed
        exact .inr ⟨hprefixed.1, rfl⟩
      · exact .inl rfl
    · rw [List.inj_on_of_nodup_map hleast.1.2 hc hc' hsame]
  · obtain ⟨hpending, hapart⟩ := hlabels.resolve_left hsome
    refine ⟨qualified (uniqueByIdentity cwds), fun c hc => ⟨?_, maxDepth (uniqueByIdentity cwds),
      one_le_maxDepth _, ?_⟩, hapart⟩
    · rw [get_shortest_of_none hsome hc, hpending.eq_qualified hnodup hc]
    · rw [qualified]
      split
      · rename_i hhost
        exact .inr ⟨hhost.1, rfl⟩
      · exact .inl rfl

/-- A local directory, with or without the scheme its report named. -/
def localCwd (path : JsString) (fileScheme : Bool) : CwdState :=
  ⟨none, path, none, fileScheme, .posix, false, .osc7, 0⟩

def remoteCwd (host path : JsString) : CwdState :=
  ⟨none, path, some host, true, .posix, true, .osc7, 0⟩

end Dormouse.Terminal

import Mathlib.Tactic.Linarith
import Mathlib.Tactic.Ring
import Dormouse.Lath.Animator
import Dormouse.Lib.MapFolds

/-!
# Dormouse.Lath.AnimatorSound

**What the animator shows over a run of calls**: no leaf is live and dying at once, a retarget that
does not snap moves nothing at the instant it happens, a settled animator stays at its targets, and
a dying leaf stays dying while the retargets list it.

No order of the times is assumed: a call samples and rebases at the one instant it is handed.
-/

namespace Dormouse.Lath

namespace Animator

variable {o : AnimatorOptions} {a : Animator} {calls : List Call} {id : LeafId} {now : ℚ}

/-! ### What a call leaves in the two maps -/

theorem get_anims_retarget (o : AnimatorOptions) (a : Animator) (targets : InsertionMap LeafId Rect)
    (now : ℚ) (enters : InsertionMap LeafId EnterFrom) (opts : RetargetOpts) (id : LeafId) :
    (a.retarget o targets now enters opts).anims.get id =
      if a.dying.has id then none
      else (targets.get id).map (segmentTo o a (framesAt o a now) now enters opts id) := by
  have hfold := InsertionMap.get_foldl_entriesIf targets (fun id => ¬ a.dying.has id = true)
    (segmentTo o a (framesAt o a now) now enters opts) .empty id
  rw [retarget, hfold]
  by_cases hdying : a.dying.has id = true <;> simp [hdying]

theorem get_dying_retarget (o : AnimatorOptions) (a : Animator) (targets : InsertionMap LeafId Rect)
    (now : ℚ) (enters : InsertionMap LeafId EnterFrom) (opts : RetargetOpts) (id : LeafId) :
    (a.retarget o targets now enters opts).dying.get id =
      if targets.has id then a.dying.get id else none := by
  rw [retarget, InsertionMap.get_filter]
  cases a.dying.get id <;> simp [Option.filter]

/-- A mark touches one live leaf, whose exit starts from what is shown of it. -/
theorem markDying_cases (o : AnimatorOptions) (a : Animator) (id : LeafId) (now : ℚ) (shrink : Bool) :
    a.markDying o id now shrink = a ∨
      ∃ seg, a.dying.has id = false ∧ a.anims.get id = some seg ∧
        a.markDying o id now shrink =
          ⟨a.anims.delete id, a.dying.set id
            ⟨⟨(sample o seg now).rect, (sample o seg now).opacity,
              max (sample o seg now).layer LATH_LAYER_DYING⟩,
              exitFrame shrink (sample o seg now), now⟩⟩ := by
  rw [markDying]
  cases hdying : a.dying.has id with
  | true => exact Or.inl (by simp)
  | false =>
    cases hget : a.anims.get id with
    | none => exact Or.inl (by simp)
    | some seg => exact Or.inr ⟨seg, rfl, rfl, by simp⟩

/-- A mark leaves a dying leaf as it is. -/
theorem get_dying_markDying {seg : Segment} (h : a.dying.get id = some seg) (marked : LeafId)
    (shrink : Bool) : (a.markDying o marked now shrink).dying.get id = some seg := by
  obtain heq | ⟨_, hfresh, _, heq⟩ := markDying_cases o a marked now shrink
  · rw [heq, h]
  · have hne : marked ≠ id := by
      rintro rfl
      simp [InsertionMap.has, h] at hfresh
    rw [heq, InsertionMap.get_set_ne _ _ hne, h]

@[simp] theorem run_nil : run o [] = createAnimator := rfl

@[simp] theorem run_append (o : AnimatorOptions) (calls more : List Call) :
    run o (calls ++ more) = more.foldl (call o) (run o calls) := by
  rw [run, List.foldl_append, run]

/-! ### Live or dying -/

/-- No leaf is in both maps. -/
def Apart (a : Animator) : Prop := ∀ id, a.dying.has id = true → a.anims.has id = false

theorem Apart.call (h : Apart a) (c : Call) : Apart (a.call o c) := by
  intro id hid
  cases c with
  | retarget targets now enters opts =>
    rw [Animator.call, InsertionMap.has, get_dying_retarget] at hid
    have hdying : a.dying.has id = true := by
      split at hid
      · exact hid
      · simp at hid
    rw [Animator.call, InsertionMap.has, get_anims_retarget, if_pos hdying, Option.isSome_none]
  | markDying marked now shrink =>
    rw [Animator.call] at hid ⊢
    obtain heq | ⟨seg, hfresh, hlive, heq⟩ := markDying_cases o a marked now shrink
    · rw [heq] at hid ⊢
      exact h id hid
    rw [heq] at hid ⊢
    by_cases hid' : id = marked
    · rw [hid', InsertionMap.has, InsertionMap.get_delete_self, Option.isSome_none]
    · rw [InsertionMap.has_set] at hid
      have hold := h id (hid.resolve_left fun heq => hid' heq.symm)
      rw [InsertionMap.has, InsertionMap.get_delete_ne _ fun heq => hid' heq.symm]
      exact hold

theorem apart_run (o : AnimatorOptions) (calls : List Call) : Apart (run o calls) := by
  induction calls using List.reverseRecOn with
  | nil => intro id hid; simp [createAnimator, InsertionMap.has] at hid
  | append_singleton calls c ih =>
    rw [run_append]
    exact ih.call c

/-! ### Frames -/

theorem get_framesAt (o : AnimatorOptions) (a : Animator) (now : ℚ) (id : LeafId) :
    (framesAt o a now).get id =
      ((a.dying.get id).or (a.anims.get id)).map fun seg => sample o seg now := by
  rw [framesAt, InsertionMap.get_foldl_entries a.dying fun _ seg => sample o seg now,
    InsertionMap.get_foldl_entries a.anims fun _ seg => sample o seg now]
  cases a.dying.get id <;> simp

/-- Two frames of one picture, up to `ε` in each coordinate and in the opacity. -/
def Near (ε : ℚ) (f g : Frame) : Prop :=
  rectsClose f.rect g.rect ε = true ∧ |f.opacity - g.opacity| ≤ ε

theorem Near.refl {ε : ℚ} (hε : 0 ≤ ε) (f : Frame) : Near ε f f := by
  simp [Near, rectsClose, hε]

theorem Near.of_framesClose {f g : Frame} (h : framesClose f g = true) : Near SETTLE_EPS f g := by
  simp only [framesClose, Bool.and_eq_true, decide_eq_true_eq] at h
  exact ⟨h.1.1, h.1.2.le⟩

theorem progress_start (hduration : 0 < o.durationMs) (now : ℚ) : progress o now now = 0 := by
  simp [progress, not_le.2 hduration]

/-- Past its end a segment has come all the way. -/
theorem progress_end {start : ℚ} (h : start + o.durationMs ≤ now) : progress o start now = 1 := by
  rw [progress]
  by_cases hduration : o.durationMs ≤ 0
  · simp [hduration]
  have hpos := not_le.1 hduration
  have hraw : 1 ≤ (now - start) / o.durationMs := by
    rw [le_div_iff₀ hpos]
    linarith
  rw [if_neg hduration, if_neg (by linarith)]
  by_cases hover : (now - start) / o.durationMs > 1
  · exact if_pos hover
  · rw [if_neg hover]
    linarith

theorem lerpFrame_zero (src dst : Frame) (settled : Bool) :
    (lerpFrame src dst 0 settled).rect = src.rect ∧
      (lerpFrame src dst 0 settled).opacity = src.opacity := by
  simp [lerpFrame, lerp]

theorem lerpFrame_one (src dst : Frame) : lerpFrame src dst 1 true = dst := by
  simp [lerpFrame, lerp]

/-- Past its end a segment shows its target. -/
theorem sample_end (hone : o.easing 1 = 1) {seg : Segment} (h : seg.start + o.durationMs ≤ now) :
    sample o seg now = seg.dst := by
  rw [sample, progress_end h, hone]
  exact lerpFrame_one seg.src seg.dst

/-! ### Continuity -/

/-- A segment made at `now` shows, at `now`, where it starts from. -/
theorem sample_segmentTo (hduration : 0 < o.durationMs) (hzero : o.easing 0 = 0)
    (hone : o.easing 1 = 1) {current : InsertionMap LeafId Frame}
    {enters : InsertionMap LeafId EnterFrom} {opts : RetargetOpts} {toRect : Rect} {shown : Frame}
    (hsnap : opts.snap = false) (hlive : a.anims.has id = true) (hshown : current.get id = some shown) :
    Near SETTLE_EPS shown (sample o (segmentTo o a current now enters opts id toRect) now) := by
  by_cases hclose : framesClose shown (targetFrame opts id toRect) = true
  · -- A close retarget starts settled, and so jumps, by less than the settle epsilon.
    have hseg : segmentTo o a current now enters opts id toRect =
        ⟨shown, targetFrame opts id toRect, now - o.durationMs⟩ := by
      simp [segmentTo, hsnap, hlive, hshown, hclose]
    rw [hseg, sample_end hone (by simp)]
    exact Near.of_framesClose hclose
  have hseg : segmentTo o a current now enters opts id toRect =
      ⟨shown, targetFrame opts id toRect, now⟩ := by
    simp [segmentTo, hsnap, hlive, hshown, hclose]
  have hsample := lerpFrame_zero shown (targetFrame opts id toRect) (decide ((0 : ℚ) ≥ 1))
  rw [hseg, sample, progress_start hduration, hzero, Near, hsample.1, hsample.2]
  exact Near.refl (by norm_num [SETTLE_EPS]) shown

/-- A retarget that does not snap moves no leaf it lists at the instant it happens. -/
theorem framesAt_retarget (hduration : 0 < o.durationMs) (hzero : o.easing 0 = 0)
    (hone : o.easing 1 = 1) {targets : InsertionMap LeafId Rect} {now : ℚ}
    {enters : InsertionMap LeafId EnterFrom} {opts : RetargetOpts} (hsnap : opts.snap = false)
    (hlisted : targets.has id = true) {shown : Frame} (hshown : (framesAt o a now).get id = some shown) :
    ∃ after, (framesAt o (a.retarget o targets now enters opts) now).get id = some after ∧
      Near SETTLE_EPS shown after := by
  have hframes := hshown
  rw [get_framesAt] at hframes
  rw [get_framesAt, get_dying_retarget, if_pos hlisted, get_anims_retarget]
  cases hdying : a.dying.get id with
  | some seg =>
    -- A dying leaf keeps its segment.
    rw [hdying, Option.some_or, Option.map_some, Option.some.injEq] at hframes
    refine ⟨sample o seg now, by rw [Option.some_or, Option.map_some], ?_⟩
    exact hframes ▸ Near.refl (by norm_num [SETTLE_EPS]) _
  | none =>
    obtain ⟨rect, hrect⟩ := Option.isSome_iff_exists.1 hlisted
    have hlive : a.anims.has id = true := by
      rw [InsertionMap.has]
      cases hanims : a.anims.get id with
      | none => simp [hdying, hanims] at hframes
      | some seg => rfl
    refine ⟨sample o (segmentTo o a (framesAt o a now) now enters opts id rect) now,
      by simp [InsertionMap.has, hdying, hrect], ?_⟩
    exact sample_segmentTo hduration hzero hone hsnap hlive hshown

/-! ### Targets -/

/-- Whether a call is a mark. -/
def Call.IsMark : Call → Prop
  | .retarget _ _ _ _ => False
  | .markDying _ _ _ => True

/-- Whether a call leaves a dying leaf tracked: a retarget does when it lists it. -/
def Call.Keeps (id : LeafId) : Call → Prop
  | .retarget targets _ _ _ => targets.has id = true
  | .markDying _ _ _ => True

/-- The last retarget of the run lists `id`, to be shown as `f`. -/
def LiveTarget (calls : List Call) (id : LeafId) (f : Frame) : Prop :=
  ∃ earlier targets now enters opts later rect,
    calls = earlier ++ .retarget targets now enters opts :: later ∧ (∀ c ∈ later, c.IsMark) ∧
      targets.get id = some rect ∧ f = targetFrame opts id rect

/-- A mark of the run found `id` live and shown as `seen`, to leave it as `f`; every retarget since
lists it. -/
def ExitTarget (o : AnimatorOptions) (calls : List Call) (id : LeafId) (f : Frame) : Prop :=
  ∃ earlier now shrink later seen,
    calls = earlier ++ .markDying id now shrink :: later ∧ (run o earlier).anims.has id = true ∧
      (framesAt o (run o earlier) now).get id = some seen ∧ (∀ c ∈ later, c.Keeps id) ∧
      f = exitFrame shrink seen

theorem LiveTarget.mark {f : Frame} (h : LiveTarget calls id f) {c : Call} (hc : c.IsMark) :
    LiveTarget (calls ++ [c]) id f := by
  obtain ⟨earlier, targets, now, enters, opts, later, rect, heq, hlater, hget, hf⟩ := h
  refine ⟨earlier, targets, now, enters, opts, later ++ [c], rect, by simp [heq], ?_, hget, hf⟩
  intro d hd
  obtain hd | hd := List.mem_append.1 hd
  · exact hlater d hd
  · exact List.mem_singleton.1 hd ▸ hc

theorem ExitTarget.keep {f : Frame} (h : ExitTarget o calls id f) {c : Call} (hc : c.Keeps id) :
    ExitTarget o (calls ++ [c]) id f := by
  obtain ⟨earlier, now, shrink, later, seen, heq, hlive, hseen, hlater, hf⟩ := h
  refine ⟨earlier, now, shrink, later ++ [c], seen, by simp [heq], hlive, hseen, ?_, hf⟩
  intro d hd
  obtain hd | hd := List.mem_append.1 hd
  · exact hlater d hd
  · exact List.mem_singleton.1 hd ▸ hc

/-- Every segment ends where the run says its leaf is to end. -/
structure Aimed (o : AnimatorOptions) (calls : List Call) : Prop where
  live : ∀ id seg, (run o calls).anims.get id = some seg → LiveTarget calls id seg.dst
  leaving : ∀ id seg, (run o calls).dying.get id = some seg → ExitTarget o calls id seg.dst

theorem Aimed.retarget (h : Aimed o calls) (targets : InsertionMap LeafId Rect) (now : ℚ)
    (enters : InsertionMap LeafId EnterFrom) (opts : RetargetOpts) :
    Aimed o (calls ++ [.retarget targets now enters opts]) := by
  constructor
  · intro id seg hseg
    rw [run_append, List.foldl_cons, List.foldl_nil, call, get_anims_retarget] at hseg
    split at hseg
    · cases hseg
    · obtain ⟨rect, hrect, heq⟩ := Option.map_eq_some_iff.1 hseg
      exact ⟨calls, targets, now, enters, opts, [], rect, rfl, by simp, hrect, heq ▸ rfl⟩
  · intro id seg hseg
    rw [run_append, List.foldl_cons, List.foldl_nil, call, get_dying_retarget] at hseg
    split at hseg
    · rename_i hlisted
      exact (h.leaving id seg hseg).keep hlisted
    · cases hseg

theorem Aimed.markDying (h : Aimed o calls) (marked : LeafId) (now : ℚ) (shrink : Bool) :
    Aimed o (calls ++ [.markDying marked now shrink]) := by
  have hrun : run o (calls ++ [.markDying marked now shrink]) =
      (run o calls).markDying o marked now shrink := by simp [call]
  obtain heq | ⟨seg, hfresh, hlive, heq⟩ := markDying_cases o (run o calls) marked now shrink
  · -- Nothing to mark.
    constructor
    · intro id seg hseg
      rw [hrun, heq] at hseg
      exact (h.live id seg hseg).mark trivial
    · intro id seg hseg
      rw [hrun, heq] at hseg
      exact (h.leaving id seg hseg).keep trivial
  · constructor
    · intro id other hother
      rw [hrun, heq, InsertionMap.get_delete] at hother
      split at hother
      · cases hother
      · exact (h.live id other hother).mark trivial
    · intro id other hother
      rw [hrun, heq, InsertionMap.get_set] at hother
      split at hother
      · rename_i hid
        subst hid
        have hdying : (run o calls).dying.get marked = none := by
          simpa [InsertionMap.has] using hfresh
        refine ⟨calls, now, shrink, [], sample o seg now, rfl, ?_, ?_, by simp, ?_⟩
        · simp [InsertionMap.has, hlive]
        · simp [get_framesAt, hdying, hlive]
        · rw [← Option.some.inj hother]
      · exact (h.leaving id other hother).keep trivial

theorem aimed_run (o : AnimatorOptions) (calls : List Call) : Aimed o calls := by
  induction calls using List.reverseRecOn with
  | nil => constructor <;> intro id seg hseg <;> simp [createAnimator] at hseg
  | append_singleton calls c ih =>
    cases c with
    | retarget targets now enters opts => exact ih.retarget targets now enters opts
    | markDying id now shrink => exact ih.markDying id now shrink

/-- A settled animator shows every segment at its end, from then on. -/
theorem framesAt_of_settled (hone : o.easing 1 = 1) (hsettled : settledAt o a now = true) {at' : ℚ}
    (hlater : now ≤ at') (id : LeafId) :
    (framesAt o a at').get id = ((a.dying.get id).or (a.anims.get id)).map Segment.dst := by
  simp only [settledAt, Bool.and_eq_true, List.all_eq_true, Bool.not_eq_true',
    decide_eq_false_iff_not, not_lt] at hsettled
  have hend : ∀ seg, (a.dying.get id).or (a.anims.get id) = some seg →
      seg.start + o.durationMs ≤ now := by
    intro seg hseg
    obtain hdying | ⟨_, hlive⟩ := Option.or_eq_some_iff.1 hseg
    · exact hsettled.2 seg (InsertionMap.mem_values_of_get hdying)
    · exact hsettled.1 seg (InsertionMap.mem_values_of_get hlive)
  rw [get_framesAt]
  cases hseg : (a.dying.get id).or (a.anims.get id) with
  | none => rfl
  | some seg => simp [sample_end hone ((hend seg hseg).trans hlater)]

/-! ### Leaving -/

theorem get_dying_call {seg : Segment} (h : a.dying.get id = some seg) {c : Call} (hc : c.Keeps id) :
    (a.call o c).dying.get id = some seg := by
  cases c with
  | retarget targets now enters opts =>
    have hlisted : targets.has id = true := hc
    rw [call, get_dying_retarget, if_pos hlisted, h]
  | markDying marked now shrink => exact get_dying_markDying h marked shrink

/-- A dying leaf keeps its segment through calls that keep it. -/
theorem get_dying_calls {seg : Segment} (h : a.dying.get id = some seg) {more : List Call}
    (hmore : ∀ c ∈ more, c.Keeps id) : (more.foldl (call o) a).dying.get id = some seg := by
  induction more generalizing a with
  | nil => exact h
  | cons c more ih =>
    exact ih (get_dying_call h (hmore c List.mem_cons_self))
      fun d hd => hmore d (List.mem_cons_of_mem c hd)

/-! ### Every run -/

/-- The house easing is exact at its endpoints. -/
theorem LATH_EASING_exact : LATH_EASING 0 = 0 ∧ LATH_EASING 1 = 1 := by
  simp [LATH_EASING, cubicBezier]

/-- One leaf, where the tree puts it first and then `d` to the right. -/
def leafAt (d : ℚ) : InsertionMap LeafId Rect := InsertionMap.empty.set "a" ⟨d, 0, 10, 10⟩

end Animator

end Dormouse.Lath

import Mathlib.Algebra.GroupWithZero.Nat
import Mathlib.Data.List.Basic
import Mathlib.Algebra.BigOperators.Group.List.Basic

/-!
# Dormouse.Lib.Framing

**Length-prefixed framing** of a stream into messages: a header of fixed size that
declares a length, then as many items.

`Splits` relates a stream to the complete messages at its front and the incomplete
rest. It is deterministic, and a stream may be split piece by piece: what one piece
leaves over goes in front of the next.
-/

namespace Dormouse

/-- A header format: `encodeLen` writes a length of at most `max`, `lenOf` reads it
from the front of a stream. -/
structure Framing (β : Type*) where
  hdr : Nat
  max : Nat
  encodeLen : Nat → List β
  lenOf : List β → Nat
  hdr_pos : 0 < hdr
  length_encodeLen : ∀ n, (encodeLen n).length = hdr
  lenOf_encodeLen : ∀ n rest, n ≤ max → lenOf (encodeLen n ++ rest) = n
  lenOf_append : ∀ a b, hdr ≤ a.length → lenOf (a ++ b) = lenOf a

namespace Framing

variable {β : Type*} {F : Framing β}

/-- A message with its header. -/
def frame (F : Framing β) (m : List β) : List β := F.encodeLen m.length ++ m

/-- The front of the stream is not a complete message yet, and no length it declares
is over the limit. -/
def Incomplete (F : Framing β) (bs : List β) : Prop :=
  bs.length < F.hdr ∨ (F.lenOf bs ≤ F.max ∧ bs.length < F.hdr + F.lenOf bs)

/-- The front of the stream is a complete message. -/
structure Complete (F : Framing β) (bs : List β) : Prop where
  le_max : F.lenOf bs ≤ F.max
  length_le : F.hdr + F.lenOf bs ≤ bs.length

/-- The message at the front of a stream. -/
def head (F : Framing β) (bs : List β) : List β := (bs.drop F.hdr).take (F.lenOf bs)

/-- The stream behind the message at its front. -/
def tail (F : Framing β) (bs : List β) : List β := bs.drop (F.hdr + F.lenOf bs)

/-- The stream is the messages `ms` followed by the incomplete `rest`. -/
inductive Splits (F : Framing β) : List β → List (List β) → List β → Prop
  | stop {bs : List β} : F.Incomplete bs → Splits F bs [] bs
  | frame {bs rest : List β} {ms : List (List β)} :
      F.Complete bs → Splits F (F.tail bs) ms rest → Splits F bs (F.head bs :: ms) rest

theorem Complete.not_incomplete {bs : List β} (h : F.Complete bs) : ¬F.Incomplete bs := by
  rintro (hlt | ⟨-, hlt⟩)
  · have := h.length_le
    omega
  · exact absurd h.length_le (by omega)

theorem Complete.hdr_le {bs : List β} (h : F.Complete bs) : F.hdr ≤ bs.length := by
  have := h.length_le
  omega

/-- More input behind a complete message changes neither it nor what precedes the input. -/
theorem Complete.append {a : List β} (h : F.Complete a) (b : List β) :
    F.Complete (a ++ b) ∧ F.head (a ++ b) = F.head a ∧ F.tail (a ++ b) = F.tail a ++ b := by
  have hlen := F.lenOf_append a b h.hdr_le
  have hle := h.length_le
  refine ⟨⟨hlen ▸ h.le_max, ?_⟩, ?_, ?_⟩
  · rw [hlen, List.length_append]
    omega
  · rw [head, head, hlen, List.drop_append_of_le_length h.hdr_le, List.take_append_of_le_length]
    rw [List.length_drop]
    omega
  · rw [tail, tail, hlen, List.drop_append_of_le_length hle]

namespace Splits

/-- A stream splits in one way only. -/
theorem det {bs r r' : List β} {ms ms' : List (List β)} (h : F.Splits bs ms r)
    (h' : F.Splits bs ms' r') : ms = ms' ∧ r = r' := by
  induction h generalizing ms' with
  | stop hinc =>
    cases h' with
    | stop _ => exact ⟨rfl, rfl⟩
    | frame hc _ => exact absurd hinc hc.not_incomplete
  | frame hc _ ih =>
    cases h' with
    | stop hinc => exact absurd hinc hc.not_incomplete
    | frame _ hrest =>
      obtain ⟨rfl, rfl⟩ := ih hrest
      exact ⟨rfl, rfl⟩

theorem incomplete {bs r : List β} {ms : List (List β)} (h : F.Splits bs ms r) :
    F.Incomplete r := by
  induction h with
  | stop hinc => exact hinc
  | frame _ _ ih => exact ih

/-- Every prefix of a stream that splits, splits. -/
theorem of_append {a b r : List β} {ms : List (List β)} (h : F.Splits (a ++ b) ms r) :
    ∃ ms' r', F.Splits a ms' r' := by
  generalize hs : a ++ b = s at h
  induction h generalizing a with
  | stop hinc =>
    subst hs
    refine ⟨[], a, .stop ?_⟩
    rcases Nat.lt_or_ge a.length F.hdr with hlt | hge
    · exact .inl hlt
    · rw [Incomplete, F.lenOf_append a b hge, List.length_append] at hinc
      rcases hinc with hlt | ⟨hmax, hlt⟩
      · exact .inl (by omega)
      · exact .inr ⟨hmax, by omega⟩
  | frame hc _ ih =>
    subst hs
    rcases Nat.lt_or_ge a.length F.hdr with hlt | hge
    · exact ⟨[], a, .stop (.inl hlt)⟩
    have hlen := F.lenOf_append a b hge
    rcases Nat.lt_or_ge a.length (F.hdr + F.lenOf a) with hshort | hlong
    · exact ⟨[], a, .stop (.inr ⟨hlen ▸ hc.le_max, hshort⟩)⟩
    · have hca : F.Complete a := ⟨hlen ▸ hc.le_max, hlong⟩
      obtain ⟨ms', r', hrest⟩ := ih (hca.append b).2.2.symm
      exact ⟨_, r', .frame hca hrest⟩

/-- Once a front of the stream is split, the rest splits into the remaining messages. -/
theorem remaining {a b r r' : List β} {ms ms' : List (List β)} (h : F.Splits a ms r)
    (h' : F.Splits (a ++ b) ms' r') :
    ∃ ms₂, ms' = ms ++ ms₂ ∧ F.Splits (r ++ b) ms₂ r' := by
  induction h generalizing ms' with
  | stop _ => exact ⟨ms', rfl, h'⟩
  | frame hc _ ih =>
    obtain ⟨hc', hhead, htail⟩ := hc.append b
    cases h' with
    | stop hinc => exact absurd hinc hc'.not_incomplete
    | frame _ hrest =>
      obtain ⟨ms₂, rfl, hsplit⟩ := ih (htail ▸ hrest)
      exact ⟨ms₂, by rw [hhead, List.cons_append], hsplit⟩

/-- Every item of the stream is in a header, a message or the rest. -/
theorem length_eq {bs r : List β} {ms : List (List β)} (h : F.Splits bs ms r) :
    (ms.map fun m => F.hdr + m.length).sum + r.length = bs.length := by
  induction h with
  | stop _ => simp
  | frame hc _ ih =>
    have hle := hc.length_le
    rw [tail, List.length_drop] at ih
    rw [List.map_cons, List.sum_cons, head, List.length_take, List.length_drop]
    omega

end Splits

/-- The front of a framed message followed by anything. -/
theorem frame_append {m : List β} (hm : m.length ≤ F.max) (rest : List β) :
    F.Complete (F.frame m ++ rest) ∧ F.head (F.frame m ++ rest) = m ∧
      F.tail (F.frame m ++ rest) = rest := by
  have hlen : F.lenOf (F.frame m ++ rest) = m.length := by
    rw [frame, List.append_assoc, F.lenOf_encodeLen _ _ hm]
  have henc := F.length_encodeLen m.length
  refine ⟨⟨hlen ▸ hm, ?_⟩, ?_, ?_⟩
  · rw [hlen, frame, List.length_append, List.length_append, henc]
    omega
  · rw [head, hlen, frame, List.append_assoc, List.drop_left' henc, List.take_left' rfl]
  · rw [tail, hlen, frame, List.drop_left']
    rw [List.length_append, henc]

/-- **A framed sequence splits into exactly its messages.** -/
theorem splits_frames {ms : List (List β)} (h : ∀ m ∈ ms, m.length ≤ F.max) :
    F.Splits (ms.flatMap F.frame) ms [] := by
  induction ms with
  | nil => exact .stop (.inl F.hdr_pos)
  | cons m ms ih =>
    obtain ⟨hc, hhead, htail⟩ := F.frame_append (h m List.mem_cons_self) (ms.flatMap F.frame)
    rw [List.flatMap_cons]
    have hrest := ih fun m' hm' => h m' (List.mem_cons_of_mem m hm')
    have hsplit := Splits.frame hc (htail.symm ▸ hrest)
    rwa [hhead] at hsplit

end Framing

end Dormouse

import Dormouse.Noise.Stream

/-!
# Dormouse.Noise.StreamSound

**Reassembly equals concatenate-and-split.** The live window of the buffer is the
unconsumed rest of the stream; `push` appends a body to it and splits off the
messages it completes. Compaction, growth and release only move the window about,
no write leaves the buffer, and a failure is final.
-/

namespace Dormouse.Noise

open Framing

/-! ### The framing -/

theorem readUint32BE_writeUint32BE {n : Nat} (h : n < 2 ^ 32) (rest : Bytes) :
    readUint32BE (writeUint32BE n ++ rest) 0 = n := by
  simp only [readUint32BE, writeUint32BE, List.cons_append, List.nil_append, Nat.zero_add,
    List.getD_cons_zero, List.getD_cons_succ, UInt8.toNat_ofNat']
  omega

/-- Reading a length looks at four bytes only. -/
theorem readUint32BE_congr {a b : Bytes} {i j : Nat}
    (h : ∀ k < 4, a[i + k]? = b[j + k]?) : readUint32BE a i = readUint32BE b j := by
  have h0 := h 0 (by omega)
  have h1 := h 1 (by omega)
  have h2 := h 2 (by omega)
  have h3 := h 3 (by omega)
  rw [Nat.add_zero, Nat.add_zero] at h0
  simp only [readUint32BE, List.getD_eq_getElem?_getD, h0, h1, h2, h3]

/-- The 4-byte length prefix of the application stream. -/
def appFraming : Framing UInt8 where
  hdr := appLengthPrefixSize
  max := maxAppMessageLength
  encodeLen := writeUint32BE
  lenOf bs := readUint32BE bs 0
  hdr_pos := by decide
  length_encodeLen _ := rfl
  lenOf_encodeLen n rest h :=
    readUint32BE_writeUint32BE (by have := h; simp only [maxAppMessageLength] at this; omega) rest
  lenOf_append a b h := readUint32BE_congr fun k hk => by
    have hlen : 0 + k < a.length := by
      simp only [appLengthPrefixSize] at h
      omega
    rw [List.getElem?_append_left hlen]

/-- Bytes of a stream that the messages `ms` account for. -/
def consumed (ms : List Bytes) : Nat := (ms.map fun m => appLengthPrefixSize + m.length).sum

/-! ### Windows -/

theorem length_subarray {bytes : Bytes} (start : Nat) {end_ : Nat} (h : end_ ≤ bytes.length) :
    (subarray bytes start end_).length = end_ - start := by
  rw [subarray, List.length_take, List.length_drop]
  omega

theorem getElem?_subarray {bytes : Bytes} {start end_ k : Nat} (h : k < end_ - start) :
    (subarray bytes start end_)[k]? = bytes[start + k]? := by
  rw [subarray, List.getElem?_take_of_lt h, List.getElem?_drop]

/-- Dropping from a window moves its start. -/
theorem drop_subarray (bytes : Bytes) (start end_ k : Nat) :
    (subarray bytes start end_).drop k = subarray bytes (start + k) end_ := by
  rw [subarray, subarray, List.drop_take, List.drop_drop]
  congr 1
  omega

/-- Taking from a window cuts its end. -/
theorem take_subarray {bytes : Bytes} {start end_ k : Nat} (h : start + k ≤ end_) :
    (subarray bytes start end_).take k = subarray bytes start (start + k) := by
  rw [subarray, subarray, List.take_take]
  congr 1
  omega

theorem setBytes_eq {target src : Bytes} {offset : Nat}
    (h : offset + src.length ≤ target.length) : setBytes target src offset =
      some (target.take offset ++ src ++ target.drop (offset + src.length)) :=
  if_pos h

theorem length_written {target src : Bytes} {offset : Nat}
    (h : offset + src.length ≤ target.length) :
    (target.take offset ++ src ++ target.drop (offset + src.length)).length = target.length := by
  simp only [List.length_append, List.length_take, List.length_drop]
  omega

/-- Writing right behind a window extends it. -/
theorem subarray_written {target src : Bytes} {start offset : Nat} (hstart : start ≤ offset)
    (h : offset + src.length ≤ target.length) :
    subarray (target.take offset ++ src ++ target.drop (offset + src.length)) start
      (offset + src.length) = subarray target start offset ++ src := by
  have htake : (target.take offset).length = offset := by
    rw [List.length_take]
    omega
  rw [subarray, subarray, List.append_assoc, List.drop_append_of_le_length (by omega),
    List.drop_take, ← List.append_assoc, List.take_left']
  rw [List.length_append, List.length_take, List.length_drop]
  omega

namespace StreamReassembler

/-- Where the window lies in the buffer, and how large the buffer may be. -/
structure Bounds (r : StreamReassembler) : Prop where
  start_le : r.start ≤ r.end_
  end_le : r.end_ ≤ r.buffer.length
  capacity_le : r.buffer.length ≤ maxBufferCapacity

/-- What holds between two pushes: a live reassembler holds an incomplete front, a
failed one holds nothing. -/
structure Inv (r : StreamReassembler) : Prop extends Bounds r where
  live : r.failed = false → appFraming.Incomplete r.window
  released : r.failed = true → r.buffer = []

theorem Bounds.length_window {r : StreamReassembler} (h : r.Bounds) :
    r.window.length = r.queued :=
  length_subarray _ h.end_le

/-- An incomplete window is shorter than one maximal message and its prefix. -/
theorem Bounds.queued_lt {r : StreamReassembler} (h : r.Bounds)
    (hinc : appFraming.Incomplete r.window) :
    r.queued < appLengthPrefixSize + maxAppMessageLength := by
  have hlen := h.length_window
  rcases hinc with hlt | ⟨hmax, hlt⟩
  · have : r.window.length < appLengthPrefixSize := hlt
    omega
  · have : appFraming.lenOf r.window ≤ maxAppMessageLength := hmax
    have : r.window.length < appLengthPrefixSize + appFraming.lenOf r.window := hlt
    omega

theorem inv_fresh : fresh.Inv where
  start_le := Nat.le_refl 0
  end_le := Nat.le_refl 0
  capacity_le := Nat.zero_le _
  live _ := .inl (by decide)
  released _ := rfl

theorem inv_fail (r : StreamReassembler) : r.fail.Inv where
  start_le := Nat.le_refl 0
  end_le := Nat.le_refl 0
  capacity_le := Nat.zero_le _
  live h := absurd h (by simp [fail])
  released _ := rfl

/-! ### Appending -/

/-- After making room the window is unchanged and `n` more bytes fit behind it. -/
structure Roomy (r : StreamReassembler) (n : Nat) (r' : StreamReassembler) : Prop
    extends Bounds r' where
  window : r'.window = r.window
  failed : r'.failed = r.failed
  fits : r'.end_ + n ≤ r'.buffer.length

/-- Moving the window to the front of a buffer it fits in with `n` bytes to spare. -/
theorem moved_roomy {r : StreamReassembler} (target : Bytes) {n : Nat} (h : r.Bounds)
    (hfits : r.queued + n ≤ target.length) (hcap : target.length ≤ maxBufferCapacity) :
    ∃ buffer, setBytes target r.window 0 = some buffer ∧
      Roomy r n ⟨buffer, 0, r.queued, r.failed⟩ := by
  have hlen := h.length_window
  have hle : 0 + r.window.length ≤ target.length := by omega
  have hwritten := length_written hle
  refine ⟨_, setBytes_eq hle, ⟨Nat.zero_le _, ?_, ?_⟩, ?_, rfl, ?_⟩
  · simp only [hwritten]
    omega
  · simp only [hwritten]
    exact hcap
  · have hsub := subarray_written (Nat.le_refl 0) hle
    rw [Nat.zero_add] at hsub
    rw [StreamReassembler.window, ← hlen, Nat.zero_add]
    exact hsub.trans (by rw [subarray, Nat.sub_self, List.take_zero, List.nil_append])
  · simp only [hwritten]
    exact hfits

theorem makeRoom_spec {r : StreamReassembler} {n : Nat} (h : r.Bounds)
    (hqueued : r.queued < appLengthPrefixSize + maxAppMessageLength)
    (hn : n ≤ maxStreamBodyLength) : ∃ r', r.makeRoom n = some r' ∧ Roomy r n r' := by
  have hcap := h.capacity_le
  rw [makeRoom]
  split
  · simp only
    split
    · rename_i hneeded
      obtain ⟨buffer, hset, hroomy⟩ := moved_roomy _ h hneeded hcap
      exact ⟨_, by rw [hset]; rfl, hroomy⟩
    -- growth: clamped to the cap, and the cap leaves room for what is needed
    have hneeded : r.queued + n ≤ maxBufferCapacity := by
      rw [maxBufferCapacity]
      omega
    obtain ⟨buffer, hset, hroomy⟩ := moved_roomy (List.replicate
      (min maxBufferCapacity (max (r.queued + n)
        (max (r.buffer.length * 2) initialBufferCapacity))) (0 : UInt8)) (n := n) h
      (by rw [List.length_replicate]; omega) (by rw [List.length_replicate]; omega)
    exact ⟨_, by rw [hset]; rfl, hroomy⟩
  · rename_i hroom
    exact ⟨r, rfl, h, rfl, rfl, by omega⟩

/-- Appending puts the body behind the window; no write leaves the buffer. -/
theorem append_spec {r : StreamReassembler} {body : Bytes} (h : r.Bounds)
    (hqueued : r.queued < appLengthPrefixSize + maxAppMessageLength)
    (hbody : body.length ≤ maxStreamBodyLength) :
    ∃ r', r.append body = some r' ∧ r'.Bounds ∧ r'.window = r.window ++ body ∧
      r'.failed = r.failed := by
  obtain ⟨r₁, hroom, hr₁⟩ := makeRoom_spec h hqueued hbody
  have hwritten := length_written hr₁.fits
  rw [append, hroom]
  simp only
  rw [setBytes_eq hr₁.fits]
  refine ⟨_, rfl, ⟨?_, ?_, ?_⟩, ?_, hr₁.failed⟩
  · have := hr₁.start_le
    simp only
    omega
  · simp only [hwritten]
    exact hr₁.fits
  · simp only [hwritten]
    exact hr₁.capacity_le
  · rw [← hr₁.window]
    exact subarray_written hr₁.start_le hr₁.fits

/-! ### The message loop -/

/-- What the loop answers from `start` on: the complete messages and where the
incomplete rest starts, or that the window does not split at all. -/
def LoopSpec (buffer : Bytes) (start end_ : Nat) : Option (List Bytes × Nat) → Prop
  | some (ms, start') => start' ≤ end_ ∧
      appFraming.Splits (subarray buffer start end_) ms (subarray buffer start' end_)
  | none => ¬∃ ms rest, appFraming.Splits (subarray buffer start end_) ms rest

/-- The loop splits the window. -/
theorem takeMessages_spec {buffer : Bytes} {end_ : Nat} (hend : end_ ≤ buffer.length) :
    ∀ (fuel start : Nat), start ≤ end_ → end_ - start < fuel →
      LoopSpec buffer start end_ (takeMessages buffer end_ fuel start)
  | 0, _, _, hfuel => absurd hfuel (by omega)
  | fuel + 1, start, hstart, hfuel => by
    have hlen := length_subarray start hend
    rw [takeMessages]
    split
    · rename_i hshort
      exact ⟨hstart, .stop (.inl (by rw [hlen]; exact hshort))⟩
    rename_i hprefix
    have hpre : 4 ≤ end_ - start := by
      simp only [appLengthPrefixSize] at hprefix
      omega
    have hread : readUint32BE buffer start = appFraming.lenOf (subarray buffer start end_) :=
      readUint32BE_congr fun k hk => by
        rw [Nat.zero_add, getElem?_subarray (by omega)]
    simp only [hread]
    split
    · rename_i hover
      rintro ⟨ms, rest, hsplit⟩
      have hover' : appFraming.max < appFraming.lenOf (subarray buffer start end_) := hover
      cases hsplit with
      | stop hinc =>
        rcases hinc with hlt | ⟨hmax, -⟩
        · have : (subarray buffer start end_).length < appLengthPrefixSize := hlt
          omega
        · omega
      | frame hc _ => exact absurd hc.le_max (by omega)
    · rename_i hmax
      have hmax' : appFraming.lenOf (subarray buffer start end_) ≤ appFraming.max :=
        Nat.le_of_not_lt hmax
      split
      · rename_i hshort
        exact ⟨hstart, .stop (.inr ⟨hmax', by rw [hlen]; exact hshort⟩)⟩
      rename_i hlong
      generalize hL : appFraming.lenOf (subarray buffer start end_) = L at *
      have hc : appFraming.Complete (subarray buffer start end_) :=
        ⟨hL ▸ hmax', by rw [hlen, hL]; exact Nat.le_of_not_lt hlong⟩
      have hhead : appFraming.head (subarray buffer start end_) =
          subarray buffer (start + appLengthPrefixSize) (start + appLengthPrefixSize + L) := by
        rw [Framing.head, hL, drop_subarray]
        have hhdr : appFraming.hdr = appLengthPrefixSize := rfl
        exact take_subarray (by omega)
      have htail : appFraming.tail (subarray buffer start end_) =
          subarray buffer (start + appLengthPrefixSize + L) end_ := by
        rw [Framing.tail, hL, drop_subarray, ← Nat.add_assoc]
        rfl
      have hpos : 0 < appLengthPrefixSize := by decide
      have hrec := takeMessages_spec hend fuel (start + appLengthPrefixSize + L)
        (by omega) (by omega)
      cases hres : takeMessages buffer end_ fuel (start + appLengthPrefixSize + L) with
      | none =>
        rw [hres] at hrec
        rintro ⟨ms, rest, hsplit⟩
        cases hsplit with
        | stop hinc => exact hc.not_incomplete hinc
        | frame _ hrest => exact hrec ⟨_, rest, htail ▸ hrest⟩
      | some res =>
        rw [hres] at hrec
        refine ⟨hrec.1, ?_⟩
        have hsplit := Splits.frame hc (htail.symm ▸ hrec.2)
        rwa [hhead] at hsplit

/-! ### One push -/

/-- What one push answers: on success the stream so far is split further, otherwise
the failure is latched and the buffer released. -/
def PushSpec (r : StreamReassembler) (body : Bytes) : Prop :=
  match r.push body with
  | (r', .ok ms) => r'.Inv ∧ r.failed = false ∧ r'.failed = false ∧
      appFraming.Splits (r.window ++ body) ms r'.window
  | (r', .error e) => r'.Inv ∧ r'.failed = true ∧ e ≠ .range ∧
      (r.failed = false → body.length ≤ maxStreamBodyLength →
        ¬∃ ms rest, appFraming.Splits (r.window ++ body) ms rest)

/-- Storing the new start, and rewinding an emptied buffer, keeps the window. -/
theorem settle_spec {r : StreamReassembler} {start : Nat} (h : r.Bounds) (hstart : start ≤ r.end_)
    (hlive : r.failed = false) (hinc : appFraming.Incomplete (subarray r.buffer start r.end_)) :
    (if start = r.end_ then { r with start := start }.drain else { r with start := start }).Inv ∧
      (if start = r.end_ then { r with start := start }.drain
        else { r with start := start }).failed = false ∧
      (if start = r.end_ then { r with start := start }.drain
        else { r with start := start }).window = subarray r.buffer start r.end_ := by
  split
  · rename_i hempty
    have hwindow : subarray r.buffer start r.end_ = [] := by
      rw [hempty, subarray, Nat.sub_self, List.take_zero]
    have hcap := h.capacity_le
    rw [hwindow] at hinc ⊢
    rw [drain]
    split
    · exact ⟨⟨⟨Nat.le_refl 0, Nat.le_refl 0, Nat.zero_le _⟩, fun _ => hinc, fun _ => rfl⟩, hlive,
        rfl⟩
    · refine ⟨⟨⟨Nat.le_refl 0, Nat.zero_le _, hcap⟩, fun _ => hinc, fun hf => ?_⟩, hlive, rfl⟩
      exact absurd hlive (by simpa using hf)
  · refine ⟨⟨⟨hstart, h.end_le, h.capacity_le⟩, fun _ => hinc, fun hf => ?_⟩, hlive, rfl⟩
    exact absurd hlive (by simpa using hf)

theorem push_spec {r : StreamReassembler} (h : r.Inv) (body : Bytes) : PushSpec r body := by
  rw [PushSpec, push]
  cases hfailed : r.failed with
  | true =>
    rw [if_pos rfl]
    exact ⟨h, hfailed, by simp, by simp⟩
  | false =>
    rw [if_neg (by simp)]
    have hlive := h.live hfailed
    by_cases hbig : maxStreamBodyLength < body.length
    · rw [if_pos hbig]
      exact ⟨inv_fail r, rfl, by simp, fun _ hle => absurd hle (by omega)⟩
    rw [if_neg hbig]
    -- an empty body leaves the buffer alone, like appending nothing
    obtain ⟨r₁, hr₁, hbounds, hwindow, hf₁⟩ : ∃ r₁,
        (if body.length > 0 then r.append body else some r) = some r₁ ∧ r₁.Bounds ∧
          r₁.window = r.window ++ body ∧ r₁.failed = false := by
      split
      · rw [← hfailed]
        exact append_spec h.toBounds (h.toBounds.queued_lt hlive) (by omega)
      · rename_i hempty
        have hnil : body = [] := List.length_eq_zero_iff.1 (by omega)
        exact ⟨r, rfl, h.toBounds, by rw [hnil, List.append_nil], hfailed⟩
    rw [hr₁]
    simp only
    have hloop := takeMessages_spec hbounds.end_le (r₁.queued + 1) _ hbounds.start_le
      (Nat.lt_succ_self _)
    rw [← hwindow]
    cases hres : takeMessages r₁.buffer r₁.end_ (r₁.queued + 1) r₁.start with
    | none =>
      rw [hres] at hloop
      exact ⟨inv_fail _, rfl, by simp, fun _ _ => hloop⟩
    | some res =>
      rw [hres] at hloop
      obtain ⟨hstart, hsplit⟩ := hloop
      obtain ⟨hinv, hok, hwin⟩ := settle_spec hbounds hstart hf₁ hsplit.incomplete
      refine ⟨hinv, trivial, hok, ?_⟩
      rw [hwin]
      exact hsplit

/-! ### Runs -/

theorem pushAll_append (r : StreamReassembler) (as bs : List Bytes) :
    r.pushAll (as ++ bs) = (((r.pushAll as).1.pushAll bs).1,
      (r.pushAll as).2 ++ ((r.pushAll as).1.pushAll bs).2) := by
  induction as generalizing r with
  | nil => rfl
  | cons a as ih => simp only [List.cons_append, pushAll, ih]

theorem length_pushAll (r : StreamReassembler) (bodies : List Bytes) :
    (r.pushAll bodies).2.length = bodies.length := by
  induction bodies generalizing r with
  | nil => rfl
  | cons body bodies ih => rw [pushAll, List.length_cons, ih, List.length_cons]

theorem push_inv {r : StreamReassembler} (h : r.Inv) (body : Bytes) : (r.push body).1.Inv := by
  have hspec := push_spec h body
  rw [PushSpec] at hspec
  split at hspec
  · rename_i heq
    rw [heq]
    exact hspec.1
  · rename_i heq
    rw [heq]
    exact hspec.1

theorem pushAll_inv {r : StreamReassembler} (h : r.Inv) (bodies : List Bytes) :
    (r.pushAll bodies).1.Inv := by
  induction bodies generalizing r with
  | nil => exact h
  | cons body bodies ih => exact ih (push_inv h body)

/-- A push of a body that keeps the stream splittable succeeds. -/
theorem push_ok {r : StreamReassembler} (h : r.Inv) (hlive : r.failed = false) {body rest : Bytes}
    {ms : List Bytes} (hbody : body.length ≤ maxStreamBodyLength)
    (hsplit : appFraming.Splits (r.window ++ body) ms rest) :
    (r.push body).2 = .ok ms ∧ (r.push body).1.failed = false ∧ (r.push body).1.window = rest := by
  have hspec := push_spec h body
  rw [PushSpec] at hspec
  split at hspec
  · rename_i heq
    obtain ⟨-, -, hlive', hsplit'⟩ := hspec
    obtain ⟨rfl, rfl⟩ := hsplit'.det hsplit
    rw [heq]
    exact ⟨rfl, hlive', rfl⟩
  · exact absurd ⟨ms, rest, hsplit⟩ (hspec.2.2.2 hlive hbody)

/-- Pushing a stream that splits, cut into bodies anywhere, answers its messages and
keeps its rest in the window. -/
theorem pushAll_ok {bodies : List Bytes} (hbodies : ∀ b ∈ bodies, b.length ≤ maxStreamBodyLength) :
    ∀ {r : StreamReassembler} {ms : List Bytes} {rest : Bytes}, r.Inv → r.failed = false →
      appFraming.Splits (r.window ++ bodies.flatten) ms rest →
        ∃ outs : List (List Bytes), (r.pushAll bodies).2 = outs.map .ok ∧ outs.flatten = ms ∧
          (r.pushAll bodies).1.window = rest := by
  induction bodies with
  | nil =>
    intro r ms rest h hlive hsplit
    rw [List.flatten_nil, List.append_nil] at hsplit
    obtain ⟨rfl, rfl⟩ := hsplit.det (.stop (h.live hlive))
    exact ⟨[], rfl, rfl, rfl⟩
  | cons body bodies ih =>
    intro r ms rest h hlive hsplit
    rw [List.flatten_cons, ← List.append_assoc] at hsplit
    obtain ⟨ms₁, rest₁, hfirst⟩ := hsplit.of_append
    obtain ⟨hout, hlive', hwin⟩ := push_ok h hlive (hbodies body List.mem_cons_self) hfirst
    -- what remains to be split is what the first body left over
    obtain ⟨ms₂, hms, hrest⟩ := hfirst.remaining hsplit
    obtain ⟨outs, houts, hflat, hfinal⟩ := ih
      (fun b hb => hbodies b (List.mem_cons_of_mem body hb)) (push_inv h body) hlive'
      (hwin.symm ▸ hrest)
    refine ⟨ms₁ :: outs, ?_, ?_, hfinal⟩
    · rw [pushAll, hout, houts, List.map_cons]
    · rw [List.flatten_cons, hflat, hms]

/-- A failed push leaves the reassembler failed, holding no bytes, and never runs past
its buffer. -/
theorem push_error {r : StreamReassembler} (h : r.Inv) {body : Bytes} {e : PushError}
    (he : (r.push body).2 = .error e) :
    (r.push body).1.failed = true ∧ (r.push body).1.capacity = 0 ∧ e ≠ .range := by
  have hspec := push_spec h body
  rw [PushSpec] at hspec
  split at hspec
  · rename_i heq
    rw [heq] at he
    exact absurd he (by simp)
  · rename_i heq
    rw [heq] at he ⊢
    obtain rfl := Except.error.inj he
    exact ⟨hspec.2.1, by rw [capacity, hspec.1.released hspec.2.1]; rfl, hspec.2.2.1⟩

/-- Once failed, every push fails and changes nothing. -/
theorem pushAll_failed {r : StreamReassembler} (hfailed : r.failed = true) (bodies : List Bytes) :
    (r.pushAll bodies).1 = r ∧
      ∀ out ∈ (r.pushAll bodies).2, out = .error (.transport "reassembly already failed") := by
  induction bodies with
  | nil => exact ⟨rfl, by simp [pushAll]⟩
  | cons body bodies ih =>
    have hpush : r.push body = (r, .error (.transport "reassembly already failed")) := by
      rw [push, if_pos hfailed]
    rw [pushAll, hpush]
    exact ⟨ih.1, List.forall_mem_cons.2 ⟨rfl, ih.2⟩⟩

/-- No write leaves the buffer, in any run. -/
theorem pushAll_no_range {r : StreamReassembler} (h : r.Inv) (bodies : List Bytes) :
    .error .range ∉ (r.pushAll bodies).2 := by
  induction bodies generalizing r with
  | nil => simp [pushAll]
  | cons body bodies ih =>
    rw [pushAll, List.mem_cons, not_or]
    exact ⟨fun he => (push_error h he.symm).2.2 rfl, ih (push_inv h body)⟩

/-- Bodies that carry messages of bounded size, cut anywhere. -/
structure Carries (bodies messages : List Bytes) : Prop where
  message_le : ∀ m ∈ messages, m.length ≤ maxAppMessageLength
  body_le : ∀ b ∈ bodies, b.length ≤ maxStreamBodyLength
  stream : bodies.flatten = messages.flatMap framed

/-- **Reassembly equals concatenate-and-split.** For bodies that carry `messages`, the
pushes answer exactly the messages, in order, and after each push what is queued is
what no answered message accounts for. For any bodies at all, no write leaves the
buffer, the buffer stays within its largest capacity, and a failed push is followed
by failures only, with the buffer released. -/
theorem reassembles (messages bodies : List Bytes) (h : Carries bodies messages)
    (arbitrary later : List Bytes) :
    (∃ outs : List (List Bytes), (fresh.pushAll bodies).2 = outs.map .ok ∧
        outs.flatten = messages ∧
        ∀ n, (fresh.pushAll (bodies.take n)).1.queued + consumed (outs.take n).flatten =
          (bodies.take n).flatten.length) ∧
      (.error .range ∉ (fresh.pushAll arbitrary).2 ∧
        (fresh.pushAll arbitrary).1.end_ ≤ (fresh.pushAll arbitrary).1.capacity ∧
        (fresh.pushAll arbitrary).1.capacity ≤ maxBufferCapacity) ∧
      ((∃ e, .error e ∈ (fresh.pushAll arbitrary).2) →
        (fresh.pushAll arbitrary).1.capacity = 0 ∧
        (∀ out ∈ ((fresh.pushAll arbitrary).1.pushAll later).2, ∃ e, out = .error e) ∧
        ((fresh.pushAll arbitrary).1.pushAll later).1.capacity = 0) := by
  have hinv := pushAll_inv inv_fresh arbitrary
  refine ⟨?_, ⟨pushAll_no_range inv_fresh arbitrary, hinv.end_le, hinv.capacity_le⟩, ?_⟩
  · have hall : appFraming.Splits (fresh.window ++ bodies.flatten) messages [] := by
      rw [h.stream]
      exact splits_frames h.message_le
    obtain ⟨outs, houts, hflat, -⟩ := pushAll_ok h.body_le inv_fresh rfl hall
    refine ⟨outs, houts, hflat, fun n => ?_⟩
    -- the first `n` bodies are a prefix of a stream that splits
    obtain ⟨ms, rest, hpre⟩ : ∃ ms rest,
        appFraming.Splits (fresh.window ++ (bodies.take n).flatten) ms rest := by
      have hjoin : appFraming.Splits
          (fresh.window ++ (bodies.take n).flatten ++ (bodies.drop n).flatten) messages [] := by
        rw [List.append_assoc, ← List.flatten_append, List.take_append_drop]
        exact hall
      exact hjoin.of_append
    have hbodies : ∀ b ∈ bodies.take n, b.length ≤ maxStreamBodyLength :=
      fun b hb => h.body_le b (List.mem_of_mem_take hb)
    obtain ⟨outs', houts', hflat', hwin⟩ := pushAll_ok hbodies inv_fresh rfl hpre
    have hprefix : outs' = outs.take n := by
      have hrun := pushAll_append fresh (bodies.take n) (bodies.drop n)
      rw [List.take_append_drop] at hrun
      have hmap : outs'.map Except.ok = (outs.map (Except.ok (ε := PushError))).take n := by
        rw [← houts, ← houts', hrun]
        have hlen := length_pushAll fresh (bodies.take n)
        rw [List.length_take] at hlen
        rcases Nat.le_total n bodies.length with hn | hn
        · rw [List.take_left' (by omega)]
        · have hnone : (pushAll (pushAll fresh (bodies.take n)).1 (bodies.drop n)).2 = [] := by
            rw [List.drop_eq_nil_of_le hn]
            rfl
          rw [hnone, List.append_nil]
          exact (List.take_of_length_le (by omega)).symm
      rw [← List.map_take] at hmap
      exact List.map_injective_iff.2 (fun a b hab => Except.ok.inj hab) hmap
    have hcount := hpre.length_eq
    rw [← hprefix, hflat', ← (pushAll_inv inv_fresh (bodies.take n)).toBounds.length_window, hwin,
      Nat.add_comm]
    exact hcount
  · rintro ⟨e, he⟩
    obtain ⟨hfailed, hcap⟩ := failed_of_mem_error inv_fresh he
    obtain ⟨hsame, hall⟩ := pushAll_failed hfailed later
    exact ⟨hcap, fun out hout => ⟨_, hall out hout⟩, by rw [hsame]; exact hcap⟩
where
  failed_of_mem_error {r : StreamReassembler} (h : r.Inv) : ∀ {bodies : List Bytes} {e : PushError},
      .error e ∈ (r.pushAll bodies).2 →
        (r.pushAll bodies).1.failed = true ∧ (r.pushAll bodies).1.capacity = 0 := by
    intro bodies
    induction bodies generalizing r with
    | nil => intro e he; simp [pushAll] at he
    | cons body bodies ih =>
      intro e he
      rw [pushAll, List.mem_cons] at he
      rw [pushAll]
      rcases he with he | he
      · obtain ⟨hfailed, hcap, -⟩ := push_error h he.symm
        rw [(pushAll_failed hfailed bodies).1]
        exact ⟨hfailed, hcap⟩
      · exact ih (push_inv h body) he

/-- Two messages, the first cut inside its length prefix. -/
theorem reassembles_cut_prefix :
    ∃ outs : List (List Bytes),
      (fresh.pushAll [[0, 0], [0, 1, 7, 0, 0, 0], [0]]).2 = outs.map .ok ∧
        outs.flatten = [[7], []] ∧
        ∀ n, (fresh.pushAll (([[0, 0], [0, 1, 7, 0, 0, 0], [0]] : List Bytes).take n)).1.queued +
            consumed (outs.take n).flatten =
          (([[0, 0], [0, 1, 7, 0, 0, 0], [0]] : List Bytes).take n).flatten.length :=
  (reassembles [[7], []] [[0, 0], [0, 1, 7, 0, 0, 0], [0]]
    ⟨by decide, by decide, by decide⟩ [] []).1

end StreamReassembler

/-! ### The chunker -/

theorem chunks_spec : ∀ (fuel : Nat) {bytes : Bytes}, bytes.length ≤ fuel →
    (chunks fuel bytes).flatten = bytes ∧ ∀ b ∈ chunks fuel bytes, b.length ≤ maxStreamBodyLength
  | 0, bytes, h => by
    obtain rfl : bytes = [] := List.length_eq_zero_iff.1 (by omega)
    exact ⟨rfl, by simp [chunks]⟩
  | fuel + 1, bytes, h => by
    rw [chunks]
    split
    · rename_i hempty
      obtain rfl : bytes = [] := List.length_eq_zero_iff.1 hempty
      exact ⟨rfl, by simp⟩
    rename_i hne
    have hlen : (bytes.drop maxStreamBodyLength).length ≤ fuel := by
      have : 0 < maxStreamBodyLength := by decide
      rw [List.length_drop]
      omega
    obtain ⟨hflat, hall⟩ := chunks_spec fuel hlen
    refine ⟨by rw [List.flatten_cons, hflat, List.take_append_drop], ?_⟩
    refine List.forall_mem_cons.2 ⟨?_, hall⟩
    rw [List.length_take]
    omega

/-- A message within the cap is chunked into bodies that carry it. -/
theorem chunkAppMessage_spec {message : Bytes} (h : message.length ≤ maxAppMessageLength) :
    ∃ bodies, chunkAppMessage message = some bodies ∧
      StreamReassembler.Carries bodies [message] := by
  obtain ⟨hflat, hall⟩ := chunks_spec _ (Nat.le_refl (framed message).length)
  refine ⟨_, if_neg (by omega), ?_, hall, ?_⟩
  · simpa using h
  · rw [hflat]
    simp

end Dormouse.Noise

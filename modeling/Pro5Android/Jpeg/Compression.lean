import Pro5Android.Jpeg.Reads
import Mathlib.Data.List.Basic

/-!
# The compression loop

`encode` of `ExynosJpegEncoderM86.cpp` (lines 296–448) over libjpeg, which is not part of the
sources. Its destination is a fixed buffer: `emptyDestination` notes that it is full and
returns `FALSE`, which makes the compressor suspend. `jpeg_write_scanlines` then does not take
the line, and the loop, which does not look at the note, gives it the same line again. Where
libjpeg cannot suspend, in markers and at the end, it calls `error_exit` instead.

Results:
* `samples_congr`: a line has the samples of the bytes that it reads.
* `compressLoop_linesAfter`: the loop while libjpeg takes every line.
* `compress_of_suspends`: it does not end if a line is suspended.
* `compress_of_not_suspends`: what it comes to if none is.
* `endsRight_iff`: when `encode` ends, with the right result.
* `full_output_never_ends`: a picture for whose last line there is no room.
-/

namespace Pro5Android.Jpeg

open Lib

/-! ## libjpeg -/

/-- What `jpeg_write_scanlines` comes to: the line is taken, or the output is full and the line
    is not, or `error_exit`. With the state goes `free_in_buffer`. -/
inductive Written (σ : Type*)
  | advanced (state : σ) (free : ℕ)
  | suspended (state : σ) (free : ℕ)
  | error

/-- libjpeg with states `σ`: `jpeg_start_compress` of a picture and a quality, with the calls
    before it, `jpeg_write_scanlines` of one line, and `jpeg_finish_compress`; `none` is
    `error_exit`. -/
structure Libjpeg (σ : Type*) where
  start : (width height : ℕ) → (quality : ℤ) → (free : ℕ) → Option (σ × ℕ)
  writeScanline : σ → (free : ℕ) → (row : List UInt8) → Written σ
  finish : σ → (free : ℕ) → Option ℕ

variable {σ : Type*}

/-- What libjpeg says of its destination: a file starts with a marker, output is not taken
    back, and a line that was suspended is suspended again while nothing empties the buffer. -/
structure Libjpeg.Contract (L : Libjpeg σ) : Prop where
  start_lt : ∀ {width height quality capacity state free},
    L.start width height quality capacity = some (state, free) → free < capacity
  write_le : ∀ {state free row state' free'},
    L.writeScanline state free row = .advanced state' free' → free' ≤ free
  retry : ∀ {state free row state' free'},
    L.writeScanline state free row = .suspended state' free' →
      L.writeScanline state' free' row = .suspended state' free'
  finish_le : ∀ {state free free'}, L.finish state free = some free' → free' ≤ free

/-! ## The destination -/

/-- `FixedDestination`. -/
structure FixedDestination where
  capacity : ℕ
  free : ℕ
  overflow : Bool

/-- `initDestination` (lines 49–54). -/
def initDestination (capacity : ℕ) : FixedDestination := ⟨capacity, capacity, false⟩

/-- `emptyDestination` (lines 56–60). -/
def emptyDestination (dest : FixedDestination) : Bool × FixedDestination :=
  (false, { dest with overflow := true })

/-! ## `encode` -/

/-- How the loop ends: by `longjmp`, or with all lines written. -/
inductive Ended (σ : Type*)
  | jumped
  | written (state : σ) (dest : FixedDestination)

namespace Encoder

/-- `row` after the loop over the pixels of a line (lines 416–430). -/
def samples (e : Encoder) (input : ℕ → UInt8) (row : ℕ) : List UInt8 :=
  (rowSteps e.imageWidth 0 (e.source row)).flatMap fun (x, source) =>
    let y0 := input (source % 2 ^ 32)
    let cb := input ((source + 1) % 2 ^ 32)
    let y1 := input ((source + 2) % 2 ^ 32)
    let cr := input ((source + 3) % 2 ^ 32)
    [y0, cb, cr] ++ if x + 1 < e.imageWidth then [y1, cb, cr] else []

/-- The loop over the lines (lines 413–433), `fuel` times at most. -/
def compressLoop (e : Encoder) (L : Libjpeg σ) (input : ℕ → UInt8) :
    ℕ → ℕ → σ → FixedDestination → Option (Ended σ)
  | 0, _, _, _ => none
  | fuel + 1, nextScanline, state, dest =>
    if nextScanline < e.imageHeight then
      match L.writeScanline state dest.free (e.samples input nextScanline) with
      | .advanced state free =>
        e.compressLoop L input fuel (nextScanline + 1) state { dest with free := free }
      | .suspended state free =>
        e.compressLoop L input fuel nextScanline state
          (emptyDestination { dest with free := free }).2
      | .error => some .jumped
    else some (.written state dest)

/-- `-1` with `m_jpeg_size` 0. -/
def failed (e : Encoder) : ℤ × Encoder := (-1, { e with jpegSize := 0 })

/-- `destination.capacity` (line 393). -/
def capacity (e : Encoder) : ℕ := (e.outputSize.toInt - e.outputOffset.toInt).toNat

/-- What `encode` makes of the end of the loop (lines 385–388 and 434–447). -/
def conclude (e : Encoder) (L : Libjpeg σ) : Ended σ → ℤ × Encoder
  | .jumped => e.failed
  | .written state dest =>
    match L.finish state dest.free with
    | none => e.failed
    | some free =>
      let jpegSize := if dest.overflow then 0 else Int32.ofInt (dest.capacity - free : ℕ)
      if dest.overflow = true ∨ jpegSize.toInt ≤ 0 then e.failed
      else (0, { e with jpegSize := jpegSize })

/-- What `encode` does behind its checks (lines 381–448). -/
def compress (e : Encoder) (L : Libjpeg σ) (input : ℕ → UInt8) (fuel : ℕ) :
    Option (ℤ × Encoder) :=
  let dest := initDestination e.capacity
  match L.start e.imageWidth e.imageHeight e.quality.toInt dest.free with
  | none => some e.failed
  | some (state, free) =>
    (e.compressLoop L input fuel 0 state { dest with free := free }).map (e.conclude L)

/-- `encode`; `mapped` says that both buffers could be mapped. -/
def encode (e : Encoder) (L : Libjpeg σ) (input : ℕ → UInt8) (mapped : Bool) (fuel : ℕ) :
    Option (ℤ × Encoder) :=
  if ¬ e.ValidState then some e.failed
  else if ¬ IsPacked e.colorFormat then some e.failed
  else if mapped = false then some e.failed
  else if e.needed > e.planeSize then some e.failed
  else if e.CropOutside then some e.failed
  else e.compress L input fuel

/-! ## A picture that is compressed -/

/-- The state and the room after so many lines, if libjpeg has taken each of them at once. -/
def linesAfter (e : Encoder) (L : Libjpeg σ) (input : ℕ → UInt8) : ℕ → Option (σ × ℕ)
  | 0 => L.start e.imageWidth e.imageHeight e.quality.toInt e.capacity
  | row + 1 =>
    match e.linesAfter L input row with
    | none => none
    | some (state, free) =>
      match L.writeScanline state free (e.samples input row) with
      | .advanced state free => some (state, free)
      | _ => none

/-- The whole picture is compressed, and the output does not fill up. -/
def Compressed (e : Encoder) (L : Libjpeg σ) (input : ℕ → UInt8) : Prop :=
  ∃ state free free', e.linesAfter L input e.imageHeight = some (state, free) ∧
    L.finish state free = some free'

/-- libjpeg has to suspend while it writes a line. -/
def Suspends (e : Encoder) (L : Libjpeg σ) (input : ℕ → UInt8) : Prop :=
  ∃ row < e.imageHeight, ∃ state free state' free',
    e.linesAfter L input row = some (state, free) ∧
      L.writeScanline state free (e.samples input row) = .suspended state' free'

/-- A result is right for a picture that is `compressed`, or not: 0 and a size in the output,
    or -1 and no size. -/
def ResultRight (e : Encoder) (compressed : Prop) (result : ℤ × Encoder) : Prop :=
  ((result.1 = 0 ∧ 0 < result.2.jpegSize.toInt ∧
      result.2.jpegSize.toInt ≤ e.outputSize.toInt - e.outputOffset.toInt) ↔ compressed) ∧
  (¬ compressed → result.1 = -1 ∧ result.2.jpegSize = 0)

/-- `encode` returns, with the right result for a picture that is accepted, mapped and
    compressed, or not. -/
def EndsRight (e : Encoder) (L : Libjpeg σ) (input : ℕ → UInt8) (mapped : Bool) : Prop :=
  ∃ fuel result, e.encode L input mapped fuel = some result ∧
    e.ResultRight ((e.Accepts ∧ mapped = true) ∧ e.Compressed L input) result

/-! ## The loop -/

section

variable {e : Encoder} {L : Libjpeg σ} {input : ℕ → UInt8} {row fuel : ℕ} {state state' : σ}
  {free free' : ℕ} {dest : FixedDestination}

/-- A line has the samples of the bytes that it reads. -/
theorem samples_congr {input' : ℕ → UInt8}
    (h : ∀ offset ∈ e.rowReads row, input offset = input' offset) :
    e.samples input row = e.samples input' row := by
  unfold samples
  refine List.flatMap_congr fun step hstep => ?_
  have hread {k : ℕ} (hk : k < 4) :
      input ((step.2 + k) % 2 ^ 32) = input' ((step.2 + k) % 2 ^ 32) :=
    h _ (List.mem_flatMap.mpr ⟨step, hstep, List.mem_map.mpr ⟨k, List.mem_range.mpr hk, rfl⟩⟩)
  have h0 := hread (k := 0) (by decide)
  rw [Nat.add_zero] at h0
  simp only [h0, hread (k := 1) (by decide), hread (k := 2) (by decide),
    hread (k := 3) (by decide)]

theorem linesAfter_succ (h : e.linesAfter L input row = some (state, free)) :
    e.linesAfter L input (row + 1) =
      match L.writeScanline state free (e.samples input row) with
      | .advanced state free => some (state, free)
      | _ => none := by
  rw [linesAfter, h]

/-- A line that is taken, and the one before it. -/
theorem of_linesAfter_succ (h : e.linesAfter L input (row + 1) = some (state', free')) :
    ∃ state free, e.linesAfter L input row = some (state, free) ∧
      L.writeScanline state free (e.samples input row) = .advanced state' free' := by
  cases hbefore : e.linesAfter L input row with
  | none =>
    rw [linesAfter, hbefore] at h
    cases h
  | some before =>
    obtain ⟨state, free⟩ := before
    refine ⟨state, free, rfl, ?_⟩
    rw [linesAfter_succ hbefore] at h
    cases hwritten : L.writeScanline state free (e.samples input row) with
    | advanced state free =>
      rw [hwritten] at h
      obtain ⟨rfl, rfl⟩ := Prod.mk.inj (Option.some.inj h)
      rfl
    | suspended state free =>
      rw [hwritten] at h
      cases h
    | error =>
      rw [hwritten] at h
      cases h

/-- **Something is written** when lines are. -/
theorem linesAfter_lt (hL : L.Contract) (h : e.linesAfter L input row = some (state, free)) :
    free < e.capacity := by
  induction row generalizing state free with
  | zero => exact hL.start_lt h
  | succ row ih =>
    obtain ⟨before, freeBefore, hbefore, hwritten⟩ := of_linesAfter_succ h
    exact (hL.write_le hwritten).trans_lt (ih hbefore)

/-- The first line that is not taken. -/
theorem linesAfter_cases (n : ℕ) :
    (∃ state free, e.linesAfter L input n = some (state, free)) ∨
    e.linesAfter L input 0 = none ∨
    ∃ row < n, ∃ state free, e.linesAfter L input row = some (state, free) ∧
      (L.writeScanline state free (e.samples input row) = .error ∨
        ∃ state' free',
          L.writeScanline state free (e.samples input row) = .suspended state' free') := by
  induction n with
  | zero =>
    cases hstart : e.linesAfter L input 0 with
    | none => exact .inr (.inl rfl)
    | some start => exact .inl ⟨start.1, start.2, rfl⟩
  | succ n ih =>
    obtain ⟨state, free, hlines⟩ | hstart | ⟨row, hrow, hstuck⟩ := ih
    · cases hwritten : L.writeScanline state free (e.samples input n) with
      | advanced state' free' =>
        refine .inl ⟨state', free', ?_⟩
        rw [linesAfter_succ hlines, hwritten]
      | suspended state' free' =>
        exact .inr (.inr ⟨n, Nat.lt_succ_self n, state, free, hlines, .inr ⟨_, _, hwritten⟩⟩)
      | error => exact .inr (.inr ⟨n, Nat.lt_succ_self n, state, free, hlines, .inl hwritten⟩)
    · exact .inr (.inl hstart)
    · exact .inr (.inr ⟨row, Nat.lt_succ_of_lt hrow, hstuck⟩)

/-! One turn of the loop. -/

theorem compressLoop_advanced (hrow : row < e.imageHeight)
    (h : L.writeScanline state dest.free (e.samples input row) = .advanced state' free') :
    e.compressLoop L input (fuel + 1) row state dest =
      e.compressLoop L input fuel (row + 1) state' { dest with free := free' } := by
  rw [compressLoop, if_pos hrow, h]

theorem compressLoop_suspended (hrow : row < e.imageHeight)
    (h : L.writeScanline state dest.free (e.samples input row) = .suspended state' free') :
    e.compressLoop L input (fuel + 1) row state dest =
      e.compressLoop L input fuel row state' ⟨dest.capacity, free', true⟩ := by
  rw [compressLoop, if_pos hrow, h]
  rfl

theorem compressLoop_error (hrow : row < e.imageHeight)
    (h : L.writeScanline state dest.free (e.samples input row) = .error) :
    e.compressLoop L input (fuel + 1) row state dest = some .jumped := by
  rw [compressLoop, if_pos hrow, h]

theorem compressLoop_end (hrow : e.imageHeight ≤ row) :
    e.compressLoop L input (fuel + 1) row state dest = some (.written state dest) := by
  rw [compressLoop, if_neg (Nat.not_lt.mpr hrow)]

/-- **The loop while every line is taken**, by induction on the lines. -/
theorem compressLoop_linesAfter {start : σ} {room : ℕ}
    (hstart : e.linesAfter L input 0 = some (start, room)) (hrow : row ≤ e.imageHeight)
    (h : e.linesAfter L input row = some (state, free)) (fuel : ℕ) :
    e.compressLoop L input (fuel + row) 0 start ⟨e.capacity, room, false⟩ =
      e.compressLoop L input fuel row state ⟨e.capacity, free, false⟩ := by
  induction row generalizing state free fuel with
  | zero =>
    obtain ⟨rfl, rfl⟩ := Prod.mk.inj (Option.some.inj (hstart.symm.trans h))
    rfl
  | succ row ih =>
    obtain ⟨before, freeBefore, hbefore, hwritten⟩ := of_linesAfter_succ h
    rw [Nat.add_comm row 1, ← Nat.add_assoc, ih (by omega) hbefore,
      compressLoop_advanced (by omega) hwritten, Nat.add_comm 1 row]

/-- **The loop on a suspended line** gives it to libjpeg again and again. -/
theorem compressLoop_stuck (hL : L.Contract) (hrow : row < e.imageHeight)
    (h : L.writeScanline state free (e.samples input row) = .suspended state' free')
    (fuel capacity : ℕ) (overflow : Bool) :
    e.compressLoop L input fuel row state ⟨capacity, free, overflow⟩ = none := by
  induction fuel generalizing state free overflow with
  | zero => rfl
  | succ fuel ih =>
    rw [compressLoop_suspended hrow h]
    exact ih (hL.retry h) true

/-- More fuel does not change how the loop ends. -/
theorem compressLoop_mono {ended : Ended σ}
    (h : e.compressLoop L input fuel row state dest = some ended) (k : ℕ) :
    e.compressLoop L input (fuel + k) row state dest = some ended := by
  induction fuel generalizing row state dest with
  | zero => cases h
  | succ fuel ih =>
    rw [Nat.add_right_comm]
    by_cases hrow : row < e.imageHeight
    · cases hwritten : L.writeScanline state dest.free (e.samples input row) with
      | advanced state' free' =>
        rw [compressLoop_advanced hrow hwritten] at h ⊢
        exact ih h
      | suspended state' free' =>
        rw [compressLoop_suspended hrow hwritten] at h ⊢
        exact ih h
      | error =>
        rw [compressLoop_error hrow hwritten] at h ⊢
        exact h
    · rw [compressLoop_end (not_lt.mp hrow)] at h ⊢
      exact h

theorem linesAfter_none {n : ℕ} (h : e.linesAfter L input row = none) (hle : row ≤ n) :
    e.linesAfter L input n = none := by
  induction n, hle using Nat.le_induction with
  | base => exact h
  | succ n _ ih => rw [linesAfter, ih]

/-- Where a line is not taken, the picture is not compressed. -/
theorem not_compressed_of_none (h : e.linesAfter L input row = none) (hle : row ≤ e.imageHeight) :
    ¬ e.Compressed L input := by
  rintro ⟨_, _, _, hlines, -⟩
  rw [linesAfter_none h hle] at hlines
  cases hlines

/-- Where lines are written, the compressor has started. -/
theorem exists_start (h : e.linesAfter L input row = some (state, free)) :
    ∃ start room, e.linesAfter L input 0 = some (start, room) := by
  cases hstart : e.linesAfter L input 0 with
  | none =>
    rw [linesAfter_none hstart (Nat.zero_le row)] at h
    cases h
  | some start => exact ⟨start.1, start.2, rfl⟩

/-! ## What `encode` comes to -/

theorem resultRight_failed {compressed : Prop} (h : ¬ compressed) :
    e.ResultRight compressed e.failed :=
  ⟨iff_of_false (fun hzero => absurd hzero.1 (by decide : (-1 : ℤ) ≠ 0)) h, fun _ => ⟨rfl, rfl⟩⟩

theorem compress_of_start {start : σ} {room : ℕ}
    (h : e.linesAfter L input 0 = some (start, room)) (fuel : ℕ) :
    e.compress L input fuel =
      (e.compressLoop L input fuel 0 start ⟨e.capacity, room, false⟩).map (e.conclude L) := by
  have hstart : L.start e.imageWidth e.imageHeight e.quality.toInt
      (initDestination e.capacity).free = some (start, room) := h
  unfold compress
  simp only [hstart]
  rfl

/-- **A suspended line** keeps `encode` in the loop. -/
theorem compress_of_suspends (hL : L.Contract) (h : e.Suspends L input) (fuel : ℕ) :
    e.compress L input fuel = none := by
  obtain ⟨row, hrow, state, free, state', free', hlines, hwritten⟩ := h
  obtain ⟨start, room, hstart⟩ := exists_start hlines
  rw [compress_of_start hstart]
  cases hended : e.compressLoop L input fuel 0 start ⟨e.capacity, room, false⟩ with
  | none => rfl
  | some ended =>
    have hlong := compressLoop_mono hended row
    rw [compressLoop_linesAfter hstart hrow.le hlines,
      compressLoop_stuck hL hrow hwritten] at hlong
    cases hlong

/-- A capacity is the difference of the two fields if there is any. -/
theorem capacity_eq (h : 0 < e.capacity) :
    (e.capacity : ℤ) = e.outputSize.toInt - e.outputOffset.toInt := by
  unfold capacity at h ⊢
  omega

/-- A size that fits the output is the size of the picture. -/
theorem resultRight_conclude (hwf : e.WellFormed) (hL : L.Contract)
    (hlines : e.linesAfter L input e.imageHeight = some (state, free)) :
    e.ResultRight (e.Compressed L input) (e.conclude L (.written state ⟨e.capacity, free, false⟩)) := by
  cases hfinish : L.finish state free with
  | none =>
    have hnot : ¬ e.Compressed L input := by
      rintro ⟨state', free', _, hlines', hfinish'⟩
      obtain ⟨rfl, rfl⟩ := Prod.mk.inj (Option.some.inj (hlines.symm.trans hlines'))
      rw [hfinish] at hfinish'
      cases hfinish'
    simp only [conclude, hfinish]
    exact resultRight_failed hnot
  | some left =>
    have hcompressed : e.Compressed L input := ⟨state, free, left, hlines, hfinish⟩
    have hroom := linesAfter_lt hL hlines
    have hleft := hL.finish_le hfinish
    have houtput := hwf.output
    have hlt := e.outputSize.toInt_lt
    have hcapacity := capacity_eq (Nat.zero_lt_of_lt hroom)
    have hbounds : -2 ^ 31 ≤ ((e.capacity - left : ℕ) : ℤ) ∧
        ((e.capacity - left : ℕ) : ℤ) < 2 ^ 31 := by omega
    have hsize : (Int32.ofInt (e.capacity - left : ℕ)).toInt = (e.capacity - left : ℕ) :=
      Int32.toInt_ofInt_of_le hbounds.1 hbounds.2
    simp only [conclude, hfinish, Bool.false_eq_true, if_false, false_or]
    rw [hsize, if_neg (by omega)]
    refine ⟨iff_of_true ⟨rfl, ?_, ?_⟩ hcompressed, fun hnot => absurd hcompressed hnot⟩
    · show 0 < (Int32.ofInt (e.capacity - left : ℕ)).toInt
      omega
    · show (Int32.ofInt (e.capacity - left : ℕ)).toInt ≤ _
      omega

/-- **Without a suspended line** the loop ends after at most a turn for each line and one more. -/
theorem compress_of_not_suspends (hwf : e.WellFormed) (hL : L.Contract)
    (h : ¬ e.Suspends L input) :
    ∃ fuel ≤ e.imageHeight + 1, ∃ result, e.compress L input fuel = some result ∧
      e.ResultRight (e.Compressed L input) result := by
  obtain ⟨state, free, hlines⟩ | hstart | ⟨row, hrow, state, free, hlines, herror | hsuspended⟩ :=
    @linesAfter_cases _ e L input e.imageHeight
  · obtain ⟨start, room, hstart⟩ := exists_start hlines
    refine ⟨1 + e.imageHeight, (Nat.add_comm _ _).le, _, ?_, resultRight_conclude hwf hL hlines⟩
    rw [compress_of_start hstart, compressLoop_linesAfter hstart le_rfl hlines,
      compressLoop_end le_rfl]
    rfl
  · have hnot := not_compressed_of_none hstart (Nat.zero_le _)
    have hnone : L.start e.imageWidth e.imageHeight e.quality.toInt
        (initDestination e.capacity).free = none := hstart
    refine ⟨0, Nat.zero_le _, e.failed, ?_, resultRight_failed hnot⟩
    unfold compress
    simp only [hnone]
  · have hnext : e.linesAfter L input (row + 1) = none := by
      rw [linesAfter_succ hlines, herror]
    have hnot := not_compressed_of_none hnext hrow
    obtain ⟨start, room, hstart⟩ := exists_start hlines
    refine ⟨1 + row, by omega, e.failed, ?_, resultRight_failed hnot⟩
    rw [compress_of_start hstart, compressLoop_linesAfter hstart hrow.le hlines,
      compressLoop_error hrow herror]
    rfl
  · obtain ⟨state', free', hsuspended⟩ := hsuspended
    exact absurd ⟨row, hrow, state, free, state', free', hlines, hsuspended⟩ h

theorem encode_of_accepts (h : e.Accepts) (fuel : ℕ) :
    e.encode L input true fuel = e.compress L input fuel := by
  unfold encode
  rw [if_neg (not_not.mpr h.state), if_neg (not_not.mpr h.format), if_neg (by decide),
    if_neg (Nat.not_lt.mpr h.needed_le), if_neg h.crop]

theorem encode_of_not {mapped : Bool} (h : ¬ (e.Accepts ∧ mapped = true)) (fuel : ℕ) :
    e.encode L input mapped fuel = some e.failed := by
  unfold encode
  split_ifs with hstate hformat hmapped hneeded hcrop
  all_goals try rfl
  refine absurd ⟨⟨hstate, hformat, ?_, hcrop⟩, ?_⟩ h
  · exact Nat.not_lt.mp hneeded
  · cases mapped
    · exact absurd rfl hmapped
    · rfl

/-- **`encode` ends, with the right result,** if libjpeg does not have to suspend while it
writes a line of a picture that is accepted. -/
theorem endsRight_iff (e : Encoder) (hwf : e.WellFormed) (L : Libjpeg σ) (hL : L.Contract)
    (input : ℕ → UInt8) (mapped : Bool) :
    e.EndsRight L input mapped ↔ ¬ ((e.Accepts ∧ mapped = true) ∧ e.Suspends L input) := by
  by_cases haccepted : e.Accepts ∧ mapped = true
  · obtain ⟨haccepts, rfl⟩ := id haccepted
    constructor
    · rintro ⟨fuel, result, hencode, -⟩ ⟨-, hsuspends⟩
      rw [encode_of_accepts haccepts, compress_of_suspends hL hsuspends] at hencode
      cases hencode
    · intro hno
      obtain ⟨fuel, -, result, hcompress, hright⟩ :=
        compress_of_not_suspends hwf hL fun hsuspends => hno ⟨haccepted, hsuspends⟩
      refine ⟨fuel, result, (encode_of_accepts haccepts fuel).trans hcompress, ?_⟩
      rwa [and_iff_right haccepted]
  · refine iff_of_true ⟨0, e.failed, encode_of_not haccepted 0, ?_⟩ fun h => haccepted h.1
    exact resultRight_failed fun h => haccepted h.1

end

/-! ## A grey picture -/

/-- libjpeg on a grey picture of 16x8: 20 bytes at the start, 603 of tables before the first
    line, two of blocks when the eighth is there, and three at the end. The state counts the
    lines. A buffer that is filled has to be emptied at once. -/
def greyJpeg : Libjpeg ℕ where
  start _ _ _ free := if 20 < free then some (0, free - 20) else none
  writeScanline lines free _ :=
    if lines = 0 then if 603 < free then .advanced 1 (free - 603) else .error
    else if lines = 7 then if 2 < free then .advanced 8 (free - 2) else .suspended 7 free
    else .advanced (lines + 1) free
  finish _ free := if 3 < free then some (free - 3) else none

theorem greyJpeg_contract : greyJpeg.Contract where
  start_lt := by
    intro width height quality capacity state free h
    simp only [greyJpeg, Option.ite_none_right_eq_some, Option.some.injEq, Prod.mk.injEq] at h
    omega
  write_le := by
    intro state free row state' free' h
    simp only [greyJpeg] at h
    split_ifs at h
    all_goals
      cases h
    all_goals omega
  retry := by
    intro state free row state' free' h
    simp only [greyJpeg] at h ⊢
    split_ifs at h with hzero hroom hseven hroom
    all_goals
      cases h
    exact if_neg hroom
  finish_le := by
    intro state free free' h
    simp only [greyJpeg, Option.ite_none_right_eq_some, Option.some.injEq] at h
    omega

/-- An encoder for a picture of 16x8 and an output of so many bytes. -/
def greyEncoder (outputSize : Int32) : Encoder :=
  { newEncoder with
    created := true, width := 16, height := 8, colorFormat := kYuyv
    inputSizes := fun i => if i = 0 then 256 else 0, outputSize := outputSize }

theorem endsRight_iff_grey :
    (greyEncoder 1024).EndsRight greyJpeg (fun _ => 128) true ↔
      ¬ (((greyEncoder 1024).Accepts ∧ true = true) ∧
        (greyEncoder 1024).Suspends greyJpeg fun _ => 128) :=
  endsRight_iff (greyEncoder 1024) ⟨.inr (by decide), .inl (by decide), by decide⟩ greyJpeg
    greyJpeg_contract (fun _ => 128) true

/-- **The grey picture** does not end in an output with one byte for its blocks. -/
theorem full_output_never_ends :
    (greyEncoder 624).WellFormed ∧ (greyEncoder 624).Accepts ∧ greyJpeg.Contract ∧
      ¬ (greyEncoder 624).EndsRight greyJpeg (fun _ => 128) true := by
  have haccepts : (greyEncoder 624).Accepts :=
    ⟨by decide, by decide, by decide, fun h => absurd h.1.1 (by decide)⟩
  have hsuspends : (greyEncoder 624).Suspends greyJpeg fun _ => 128 :=
    ⟨7, by decide, 7, 1, 7, 1, rfl, rfl⟩
  refine ⟨⟨.inr (by decide), .inl (by decide), by decide⟩, haccepts, greyJpeg_contract, ?_⟩
  rintro ⟨fuel, result, hencode, -⟩
  rw [encode_of_accepts haccepts, compress_of_suspends greyJpeg_contract hsuspends] at hencode
  cases hencode

end Encoder

end Pro5Android.Jpeg

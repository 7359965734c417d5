import Mathlib.Data.List.Basic
import SmartDesk.Voice.Models

/-!
# Spoken replies

`play_speech` of `modules/voice/playback.py` and `LocalPcmOutput` of `modules/voice/audio.py`.
A stream of chunks is the list of its chunks and how it ends; what an output or a device
answers may depend on all that went before.

* `playSpeech` — the coordinator, over any output.
* `LocalPcmOutput` — the output, over any device.
* `Played` — what an output is asked for.
* `speech_streamed` — **an output is given the samples of the stream, however it is chunked.**
-/

namespace SmartDesk.Voice

inductive PlaybackError where
  | cancelled
  | valueError (text : String)
  /-- `VoiceFatalError(code)` -/
  | fatal (code : String)
  /-- An exception of the stream of chunks or of the device. -/
  | other (text : String)
  deriving DecidableEq

/-- What a call returns or raises, and the state that it leaves. -/
abbrev Answer (σ : Type) : Type := Except PlaybackError Unit × σ

/-- `PcmOutput` -/
structure PcmOutput (σ : Type) where
  write : List UInt8 → σ → Answer σ
  drain : σ → Answer σ
  abort : σ → Answer σ

/-- The chunks of a stream, and the exception that it ends with, if any. -/
structure ChunkStream where
  chunks : List (List UInt8)
  failure : Option PlaybackError

/-- `PlaybackCoordinator`, as far as `play_speech` reads it. -/
structure PlaybackCoordinator where
  started : Bool
  stopping : Bool

/-! ## The coordinator -/

section Coordinator

variable {σ : Type} (out : PcmOutput σ)

/-- The loop `async for chunk in chunks`; it returns the remainder. -/
def writeChunks (failure : Option PlaybackError) :
    List (List UInt8) → List UInt8 → σ → Except PlaybackError (List UInt8) × σ
  | [], remainder, s =>
      match failure with
      | none => (.ok remainder, s)
      | some e => (.error e, s)
  | chunk :: chunks, remainder, s =>
      if chunk.isEmpty then writeChunks failure chunks remainder s
      else
        let combined := remainder ++ chunk
        let alignedLength := combined.length - combined.length % 2
        if alignedLength ≠ 0 then
          match out.write (combined.take alignedLength) s with
          | (.ok (), s) => writeChunks failure chunks (combined.drop alignedLength) s
          | (.error e, s) => (.error e, s)
        else writeChunks failure chunks (combined.drop alignedLength) s

/-- The body under the output lock. -/
def speak (stream : ChunkStream) (s : σ) : Answer σ :=
  match writeChunks out stream.failure stream.chunks [] s with
  | (.ok remainder, s) =>
      if remainder.isEmpty then out.drain s
      else (.error (.valueError "TTS PCM stream이 불완전한 sample로 끝났습니다."), s)
  | (.error e, s) => (.error e, s)

/-- `play_speech(chunks)`. -/
def playSpeech (c : PlaybackCoordinator) (stream : ChunkStream) (s : σ) : Answer σ :=
  if c.started = false ∨ c.stopping then (.error (.fatal "speaker_not_started"), s)
  else
    match speak out stream s with
    | (.ok (), s) => (.ok (), s)
    | (.error e, s) =>
        match out.abort s with
        | (.ok (), s) => (.error e, s)
        | (.error e', s) => (.error e', s)

end Coordinator

/-! ## The output -/

/-- An output stream of `sounddevice`; its calls raise exceptions of any kind. -/
structure OutputStream (δ : Type) where
  start : δ → Answer δ
  write : List UInt8 → δ → Answer δ
  stop : δ → Answer δ
  abort : δ → Answer δ

/-- `np.frombuffer(pcm, dtype="<i2")`, as pairs of bytes. -/
def samplePairs : List UInt8 → List (UInt8 × UInt8)
  | low :: high :: pcm => (low, high) :: samplePairs pcm
  | _ => []

/-- `tobytes()` -/
def pairBytes (samples : List (UInt8 × UInt8)) : List UInt8 :=
  samples.flatMap fun s => [s.1, s.2]

/-- `_to_device_pcm(pcm)`: twice the rate, and two channels. -/
def toDevicePcm (pcm : List UInt8) : List UInt8 :=
  let upsampled := (samplePairs pcm).flatMap fun s => List.replicate 2 s
  pairBytes (upsampled.flatMap fun s => List.replicate 2 s)

/-- `LocalPcmOutput`; `opened` says that there is a stream. -/
structure LocalPcmOutput (δ : Type) where
  opened : Bool
  active : Bool
  device : δ

namespace LocalPcmOutput

variable {δ : Type} (stream : OutputStream δ)

/-- `except asyncio.CancelledError` and `except Exception` around a call of the device. -/
def speakerFailed : PlaybackError → PlaybackError
  | .cancelled => .cancelled
  | _ => .fatal "speaker_failed"

/-- `await asyncio.to_thread(stream.write, _to_device_pcm(pcm))`. -/
def writeDevice (pcm : List UInt8) (o : LocalPcmOutput δ) : Answer (LocalPcmOutput δ) :=
  match stream.write (toDevicePcm pcm) o.device with
  | (.ok (), device) => (.ok (), { o with device := device })
  | (.error e, device) => (.error (speakerFailed e), { o with device := device })

def write (pcm : List UInt8) (o : LocalPcmOutput δ) : Answer (LocalPcmOutput δ) :=
  if pcm.isEmpty ∨ pcm.length % 2 ≠ 0 then
    (.error (.valueError "speaker PCM은 비어 있지 않은 even-byte 데이터여야 합니다."), o)
  else if o.opened = false then (.error (.fatal "speaker_not_started"), o)
  else if o.active then o.writeDevice stream pcm
  else
    match stream.start o.device with
    | (.ok (), device) => writeDevice stream pcm { o with active := true, device := device }
    | (.error e, device) => (.error (speakerFailed e), { o with device := device })

def drain (o : LocalPcmOutput δ) : Answer (LocalPcmOutput δ) :=
  if o.opened = false ∨ o.active = false then (.ok (), o)
  else
    match stream.stop o.device with
    | (.ok (), device) => (.ok (), { o with active := false, device := device })
    | (.error e, device) => (.error (speakerFailed e), { o with device := device })

def abort (o : LocalPcmOutput δ) : Answer (LocalPcmOutput δ) :=
  if o.opened = false ∨ o.active = false then (.ok (), o)
  else
    match stream.abort o.device with
    | (.ok (), device) => (.ok (), { o with active := false, device := device })
    | (.error e, device) => (.error (speakerFailed e), { o with active := false, device := device })

/-- The output, as the coordinator sees it. -/
def output : PcmOutput (LocalPcmOutput δ) where
  write := write stream
  drain := drain stream
  abort := abort stream

end LocalPcmOutput

/-! ## Records -/

/-- A call of an output, and what it returned. -/
inductive OutputCall where
  | write (pcm : List UInt8) (result : Except PlaybackError Unit)
  | drain (result : Except PlaybackError Unit)
  | abort (result : Except PlaybackError Unit)

/-- An output whose calls are recorded. -/
def PcmOutput.recorded {σ : Type} (out : PcmOutput σ) : PcmOutput (σ × List OutputCall) where
  write := fun pcm s =>
    let (result, s') := out.write pcm s.1
    (result, s', s.2 ++ [.write pcm result])
  drain := fun s =>
    let (result, s') := out.drain s.1
    (result, s', s.2 ++ [.drain result])
  abort := fun s =>
    let (result, s') := out.abort s.1
    (result, s', s.2 ++ [.abort result])

/-- A device whose blocks are recorded. -/
def OutputStream.recorded {δ : Type} (stream : OutputStream δ) :
    OutputStream (δ × List (List UInt8)) where
  start := fun d =>
    let (result, device) := stream.start d.1
    (result, device, d.2)
  write := fun block d =>
    let (result, device) := stream.write block d.1
    (result, device, d.2 ++ [block])
  stop := fun d =>
    let (result, device) := stream.stop d.1
    (result, device, d.2)
  abort := fun d =>
    let (result, device) := stream.abort d.1
    (result, device, d.2)

/-- The longest prefix of whole samples. -/
def wholeSamples (pcm : List UInt8) : List UInt8 := pcm.take (pcm.length - pcm.length % 2)

theorem wholeSamples_append {a : List UInt8} (ha : a.length % 2 = 0) (b : List UInt8) :
    wholeSamples (a ++ b) = a ++ wholeSamples b := by
  have hcut : (a ++ b).length - (a ++ b).length % 2 = a.length + (b.length - b.length % 2) := by
    rw [List.length_append]
    omega
  rw [wholeSamples, hcut, List.take_length_add_append]
  rfl

theorem wholeSamples_short {a : List UInt8} (ha : a.length ≤ 1) : wholeSamples a = [] := by
  rw [wholeSamples, List.take_eq_nil_iff]
  omega

/-- A call of `write`, and what it returned. -/
abbrev Written : Type := List UInt8 × Except PlaybackError Unit

def Written.call (w : Written) : OutputCall := .write w.1 w.2

/-- The blocks of the calls, one after the other. -/
def blocksOf (ws : List Written) : List UInt8 := (ws.map (·.1)).flatten

/-- How the loop over the chunks ends; `pcm` is what it was to write. -/
inductive Stops (failure : Option PlaybackError) (pcm : List UInt8) (ws : List Written) :
    Except PlaybackError (List UInt8) → Prop where
  | ended (remainder : List UInt8) (stream : failure = none) (all : ∀ w ∈ ws, w.2 = .ok ())
      (odd : remainder.isEmpty = true ↔ pcm.length % 2 = 0) : Stops failure pcm ws (.ok remainder)
  | failed (e : PlaybackError) (stream : failure = some e) (all : ∀ w ∈ ws, w.2 = .ok ()) :
      Stops failure pcm ws (.error e)
  | broken (e : PlaybackError) (write : ∃ w ∈ ws, w.2 = .error e) : Stops failure pcm ws (.error e)

/-- What the loop writes of a remainder and the chunks. -/
structure Wrote (failure : Option PlaybackError) (remainder : List UInt8)
    (chunks : List (List UInt8)) (ws : List Written)
    (result : Except PlaybackError (List UInt8)) : Prop where
  blocks : ∀ w ∈ ws, w.1 ≠ [] ∧ w.1.length % 2 = 0
  consumed : ∃ n, blocksOf ws = wholeSamples (remainder ++ (chunks.take n).flatten)
  whole : (∀ w ∈ ws, w.2 = .ok ()) → blocksOf ws = wholeSamples (remainder ++ chunks.flatten)
  stops : Stops failure (remainder ++ chunks.flatten) ws result

theorem Stops.cons {failure : Option PlaybackError} {block rest : List UInt8} {ws : List Written}
    {result : Except PlaybackError (List UInt8)} (h : Stops failure rest ws result)
    (heven : block.length % 2 = 0) : Stops failure (block ++ rest) ((block, .ok ()) :: ws) result := by
  have hall : (∀ w ∈ ws, w.2 = .ok ()) → ∀ w ∈ (block, .ok ()) :: ws, w.2 = .ok () := by
    intro hws w hw
    rcases List.mem_cons.mp hw with rfl | hw
    · rfl
    · exact hws w hw
  cases h with
  | ended remainder stream all odd =>
    refine .ended remainder stream (hall all) (odd.trans ?_)
    rw [List.length_append]
    omega
  | failed e stream all => exact .failed e stream (hall all)
  | broken e write =>
    obtain ⟨w, hw, he⟩ := write
    exact .broken e ⟨w, List.mem_cons_of_mem _ hw, he⟩

/-- A block that was written. -/
theorem Wrote.cons {failure : Option PlaybackError} {remainder remainder' block chunk : List UInt8}
    {chunks : List (List UInt8)} {ws : List Written}
    {result : Except PlaybackError (List UInt8)} (h : Wrote failure remainder' chunks ws result)
    (hcut : remainder ++ chunk = block ++ remainder') (hblock : block ≠ [])
    (heven : block.length % 2 = 0) :
    Wrote failure remainder (chunk :: chunks) ((block, .ok ()) :: ws) result := by
  have hflatten : ∀ n, remainder ++ ((chunk :: chunks).take (n + 1)).flatten =
      block ++ (remainder' ++ (chunks.take n).flatten) := by
    intro n
    rw [List.take_succ_cons, List.flatten_cons, ← List.append_assoc, hcut, List.append_assoc]
  have hall : remainder ++ (chunk :: chunks).flatten = block ++ (remainder' ++ chunks.flatten) := by
    rw [List.flatten_cons, ← List.append_assoc, hcut, List.append_assoc]
  have hblocks : blocksOf ((block, .ok ()) :: ws) = block ++ blocksOf ws := rfl
  refine ⟨?_, ?_, ?_, ?_⟩
  · intro w hw
    rcases List.mem_cons.mp hw with rfl | hw
    · exact ⟨hblock, heven⟩
    · exact h.blocks w hw
  · obtain ⟨n, hn⟩ := h.consumed
    refine ⟨n + 1, ?_⟩
    rw [hflatten, wholeSamples_append heven, hblocks, hn]
  · intro hws
    rw [hall, wholeSamples_append heven, hblocks,
      h.whole fun w hw => hws w (List.mem_cons_of_mem _ hw)]
  · rw [hall]
    exact h.stops.cons heven

/-- A chunk that leads to no block. -/
theorem Wrote.skip {failure : Option PlaybackError} {remainder chunk : List UInt8}
    {chunks : List (List UInt8)} {ws : List Written}
    {result : Except PlaybackError (List UInt8)}
    (h : Wrote failure (remainder ++ chunk) chunks ws result) :
    Wrote failure remainder (chunk :: chunks) ws result := by
  have hall : remainder ++ (chunk :: chunks).flatten = (remainder ++ chunk) ++ chunks.flatten := by
    rw [List.flatten_cons, List.append_assoc]
  refine ⟨h.blocks, ?_, ?_, ?_⟩
  · obtain ⟨n, hn⟩ := h.consumed
    refine ⟨n + 1, ?_⟩
    rw [hn, List.take_succ_cons, List.flatten_cons, List.append_assoc]
  · rw [hall]
    exact h.whole
  · rw [hall]
    exact h.stops

section Recorded

variable {σ : Type} (out : PcmOutput σ)

theorem recorded_write (pcm : List UInt8) (s : σ) (calls : List OutputCall) :
    out.recorded.write pcm (s, calls) =
      ((out.write pcm s).1, (out.write pcm s).2, calls ++ [.write pcm (out.write pcm s).1]) := rfl

theorem recorded_drain (s : σ) (calls : List OutputCall) :
    out.recorded.drain (s, calls) =
      ((out.drain s).1, (out.drain s).2, calls ++ [.drain (out.drain s).1]) := rfl

theorem recorded_abort (s : σ) (calls : List OutputCall) :
    out.recorded.abort (s, calls) =
      ((out.abort s).1, (out.abort s).2, calls ++ [.abort (out.abort s).1]) := rfl

/-- **The loop over the chunks**, by induction on them: the remainder has at most one byte. -/
theorem writeChunks_recorded (failure : Option PlaybackError) (chunks : List (List UInt8)) :
    ∀ (remainder : List UInt8) (s : σ) (calls : List OutputCall), remainder.length ≤ 1 →
      ∃ result ws s', writeChunks out.recorded failure chunks remainder (s, calls) =
        (result, s', calls ++ ws.map Written.call) ∧ Wrote failure remainder chunks ws result := by
  induction chunks with
  | nil =>
    intro remainder s calls hrem
    have hwhole : blocksOf [] = wholeSamples (remainder ++ ([] : List (List UInt8)).flatten) := by
      rw [List.flatten_nil, List.append_nil, wholeSamples_short hrem]
      rfl
    cases failure with
    | none =>
      refine ⟨.ok remainder, [], s, by rw [List.map_nil, List.append_nil]; rfl, by simp,
        ⟨0, hwhole⟩, fun _ => hwhole, .ended remainder rfl (by simp) ?_⟩
      rw [List.flatten_nil, List.append_nil, List.isEmpty_iff_length_eq_zero]
      omega
    | some e =>
      exact ⟨.error e, [], s, by rw [List.map_nil, List.append_nil]; rfl, by simp, ⟨0, hwhole⟩,
        fun _ => hwhole, .failed e rfl (by simp)⟩
  | cons chunk chunks ih =>
    intro remainder s calls hrem
    by_cases hempty : chunk.isEmpty = true
    · obtain ⟨result, ws, s', heq, hwrote⟩ := ih remainder s calls hrem
      refine ⟨result, ws, s', by rw [writeChunks, if_pos hempty, heq], ?_⟩
      obtain rfl := List.isEmpty_iff.mp hempty
      exact .skip (by rw [List.append_nil]; exact hwrote)
    · set combined := remainder ++ chunk with hcombined
      set aligned := combined.length - combined.length % 2 with haligned
      have hrest : (combined.drop aligned).length ≤ 1 := by
        rw [List.length_drop]
        omega
      by_cases hzero : aligned = 0
      · obtain ⟨result, ws, s', heq, hwrote⟩ := ih combined s calls (by
          rw [hzero] at hrest
          exact hrest)
        refine ⟨result, ws, s', ?_, .skip hwrote⟩
        simp only [writeChunks, if_neg hempty, ← hcombined, ← haligned, hzero]
        exact heq
      · have hlen : (combined.take aligned).length = aligned := by
          rw [List.length_take]
          omega
        have hblock : combined.take aligned ≠ [] := by
          intro hnil
          rw [hnil] at hlen
          exact hzero hlen.symm
        have heven : (combined.take aligned).length % 2 = 0 := by
          rw [hlen]
          omega
        have hcut : remainder ++ chunk = combined.take aligned ++ combined.drop aligned :=
          (List.take_append_drop aligned combined).symm
        rcases hwrite : out.write (combined.take aligned) s with ⟨e | _, s₁⟩
        · refine ⟨.error e, [(combined.take aligned, .error e)], s₁, ?_, ?_, ⟨1, ?_⟩, ?_, ?_⟩
          · simp only [writeChunks, if_neg hempty, ← hcombined, ← haligned, if_pos hzero,
              recorded_write, hwrite]
            rfl
          · intro w hw
            obtain rfl := List.mem_singleton.mp hw
            exact ⟨hblock, heven⟩
          · rw [List.take_succ_cons, List.take_zero, List.flatten_cons, List.flatten_nil,
              List.append_nil, hcut, wholeSamples_append heven, wholeSamples_short hrest]
            rfl
          · intro hws
            cases hws _ List.mem_cons_self
          · exact .broken e ⟨_, List.mem_cons_self, rfl⟩
        · obtain ⟨result, ws, s', heq, hwrote⟩ := ih (combined.drop aligned) s₁
            (calls ++ [.write (combined.take aligned) (.ok ())]) hrest
          refine ⟨result, (combined.take aligned, .ok ()) :: ws, s', ?_,
            hwrote.cons hcut hblock heven⟩
          simp only [writeChunks, if_neg hempty, ← hcombined, ← haligned, if_pos hzero,
            recorded_write, hwrite]
          refine heq.trans ?_
          rw [List.append_assoc]
          rfl

end Recorded

/-! ## What an output is asked for -/

/-- A write of the calls raised an exception. -/
def Failing (calls : List OutputCall) : Prop := ∃ pcm e, .write pcm (.error e) ∈ calls

/-- The blocks of the writes of the calls. -/
def writtenOf (calls : List OutputCall) : List (List UInt8) :=
  calls.filterMap fun
    | .write pcm _ => some pcm
    | _ => none

/-- What `play_speech` asks an output for. -/
structure Played (stream : ChunkStream) (calls : List OutputCall) : Prop where
  blocks : ∀ pcm ∈ writtenOf calls, pcm ≠ [] ∧ pcm.length % 2 = 0
  consumed : ∃ n, (writtenOf calls).flatten = wholeSamples (stream.chunks.take n).flatten
  whole : ¬ Failing calls → (writtenOf calls).flatten = wholeSamples stream.chunks.flatten
  drained : stream.failure = none → ¬ Failing calls → stream.chunks.flatten.length % 2 = 0 →
    ∃ (ws : List Written) (r : _) (rest : _), calls = ws.map Written.call ++ .drain r :: rest ∧
      (r = .ok () → rest = []) ∧ ∀ e, r = .error e → ∃ r', rest = [.abort r']
  aborted : stream.failure ≠ none ∨ Failing calls ∨ stream.chunks.flatten.length % 2 = 1 →
    ∃ (ws : List Written) (r : _), calls = ws.map Written.call ++ [.abort r]

theorem writtenOf_map (ws : List Written) : writtenOf (ws.map Written.call) = ws.map (·.1) := by
  induction ws with
  | nil => rfl
  | cons w ws ih => exact congrArg (w.1 :: ·) ih

theorem writtenOf_append (calls calls' : List OutputCall) :
    writtenOf (calls ++ calls') = writtenOf calls ++ writtenOf calls' :=
  List.filterMap_append

/-- Calls that end without a write. -/
theorem played_of_wrote {stream : ChunkStream} {ws : List Written} {rest : List OutputCall}
    {result : Except PlaybackError (List UInt8)}
    (h : Wrote stream.failure [] stream.chunks ws result) (hrest : writtenOf rest = [])
    (hdrained : (∃ remainder, result = .ok remainder ∧ remainder.isEmpty = true) →
      ∃ r rest', rest = .drain r :: rest' ∧ (r = .ok () → rest' = []) ∧
        ∀ e, r = .error e → ∃ r', rest' = [.abort r'])
    (haborted : ¬ (∃ remainder, result = .ok remainder ∧ remainder.isEmpty = true) →
      ∃ r, rest = [.abort r]) : Played stream (ws.map Written.call ++ rest) := by
  have hwritten : writtenOf (ws.map Written.call ++ rest) = ws.map (·.1) := by
    rw [writtenOf_append, writtenOf_map, hrest, List.append_nil]
  have hfailing : ∀ w ∈ ws, ∀ e, w.2 = .error e → Failing (ws.map Written.call ++ rest) := by
    intro w hw e he
    refine ⟨w.1, e, List.mem_append_left _ (List.mem_map.mpr ⟨w, hw, ?_⟩)⟩
    rw [Written.call, he]
  have hall : ¬ Failing (ws.map Written.call ++ rest) → ∀ w ∈ ws, w.2 = .ok () := by
    intro hnot w hw
    cases hr : w.2 with
    | ok _ => rfl
    | error e => exact absurd (hfailing w hw e hr) hnot
  have hfine : (∀ w ∈ ws, w.2 = .ok ()) → ¬ Failing (ws.map Written.call ++ rest) := by
    rintro hws ⟨pcm, e, hmem⟩
    rcases List.mem_append.mp hmem with hmem | hmem
    · obtain ⟨w, hw, heq⟩ := List.mem_map.mp hmem
      rw [Written.call, hws w hw] at heq
      cases heq
    · have hpcm : pcm ∈ writtenOf rest := List.mem_filterMap.mpr ⟨_, hmem, rfl⟩
      rw [hrest] at hpcm
      cases hpcm
  refine ⟨?_, ?_, ?_, ?_, ?_⟩
  · intro pcm hpcm
    rw [hwritten] at hpcm
    obtain ⟨w, hw, rfl⟩ := List.mem_map.mp hpcm
    exact h.blocks w hw
  · rw [hwritten]
    exact h.consumed
  · intro hnot
    rw [hwritten]
    exact h.whole (hall hnot)
  · intro hstream hnot heven
    obtain ⟨r, rest', rfl, hrest'⟩ := hdrained (by
      cases h.stops with
      | ended remainder _ _ odd => exact ⟨remainder, rfl, odd.mpr heven⟩
      | failed e stream _ =>
        rw [hstream] at stream
        cases stream
      | broken e write =>
        obtain ⟨w, hw, he⟩ := write
        exact absurd (hfailing w hw e he) hnot)
    exact ⟨ws, r, rest', rfl, hrest'⟩
  · intro hcase
    obtain ⟨r, rfl⟩ := haborted (by
      rintro ⟨remainder, rfl, hempty⟩
      cases h.stops with
      | ended _ hended all odd =>
        rcases hcase with hstream | hfails | hodd
        · exact hstream hended
        · exact hfine all hfails
        · have heven : ([] ++ stream.chunks.flatten).length % 2 = 0 := odd.mp hempty
          rw [List.nil_append] at heven
          omega)
    exact ⟨ws, r, rfl⟩

/-- **What is asked of any output.** -/
theorem played (c : PlaybackCoordinator) (hstarted : c.started = true)
    (hstopping : c.stopping = false) (stream : ChunkStream) {σ : Type} (out : PcmOutput σ) (s : σ) :
    Played stream (playSpeech out.recorded c stream (s, [])).2.2 := by
  have hplayable : ¬ (c.started = false ∨ c.stopping = true) := by
    simp [hstarted, hstopping]
  obtain ⟨result, ws, s', heq, hwrote⟩ :=
    writeChunks_recorded out stream.failure stream.chunks [] s [] (Nat.zero_le 1)
  rw [List.nil_append] at heq
  have haborts : ∀ (e : PlaybackError) (s₁ : σ) (calls : List OutputCall),
      speak out.recorded stream (s, []) = (.error e, s₁, calls) →
      (playSpeech out.recorded c stream (s, [])).2.2 = calls ++ [.abort (out.abort s₁).1] := by
    intro e s₁ calls he
    rw [playSpeech, if_neg hplayable, he]
    dsimp only
    rw [recorded_abort]
    rcases out.abort s₁ with ⟨e' | _, s₂⟩ <;> rfl
  cases result with
  | error e =>
    have hspeak : speak out.recorded stream (s, []) = (.error e, s', ws.map Written.call) := by
      rw [speak, heq]
    rw [haborts e s' _ hspeak]
    refine played_of_wrote hwrote rfl ?_ fun _ => ⟨_, rfl⟩
    rintro ⟨remainder, hr, _⟩
    cases hr
  | ok remainder =>
    by_cases hempty : remainder.isEmpty = true
    · have hspeak : speak out.recorded stream (s, []) =
          ((out.drain s').1, (out.drain s').2, ws.map Written.call ++ [.drain (out.drain s').1]) := by
        rw [speak, heq]
        dsimp only
        rw [if_pos hempty, recorded_drain]
      have hends : ∃ rest', (playSpeech out.recorded c stream (s, [])).2.2 =
          ws.map Written.call ++ .drain (out.drain s').1 :: rest' ∧ writtenOf rest' = [] ∧
            ((out.drain s').1 = .ok () → rest' = []) ∧
            ∀ e, (out.drain s').1 = .error e → ∃ r', rest' = [.abort r'] := by
        rcases hdrain : out.drain s' with ⟨e | _, s₂⟩
        · rw [hdrain] at hspeak
          refine ⟨[.abort (out.abort s₂).1], ?_, rfl, fun h => (by cases h), fun _ _ => ⟨_, rfl⟩⟩
          rw [haborts e s₂ _ hspeak, List.append_assoc]
          rfl
        · rw [hdrain] at hspeak
          refine ⟨[], ?_, rfl, fun _ => rfl, fun _ h => (by cases h)⟩
          rw [playSpeech, if_neg hplayable, hspeak]
      obtain ⟨rest', hcalls, hwritten, hrest⟩ := hends
      rw [hcalls]
      exact played_of_wrote hwrote hwritten (fun _ => ⟨_, rest', rfl, hrest⟩)
        fun hnot => absurd ⟨remainder, rfl, hempty⟩ hnot
    · have hspeak : speak out.recorded stream (s, []) =
          (.error (.valueError "TTS PCM stream이 불완전한 sample로 끝났습니다."), s',
            ws.map Written.call) := by
        rw [speak, heq]
        dsimp only
        rw [if_neg hempty]
      rw [haborts _ s' _ hspeak]
      refine played_of_wrote hwrote rfl ?_ fun _ => ⟨_, rfl⟩
      rintro ⟨remainder', hr, hempty'⟩
      cases hr
      exact absurd hempty' hempty

/-! ## What a device is given -/

/-- An invariant that each call of an output keeps. -/
structure PcmOutput.Keeps {σ : Type} (out : PcmOutput σ) (I : σ → Prop) : Prop where
  write : ∀ pcm s, I s → I (out.write pcm s).2
  drain : ∀ s, I s → I (out.drain s).2
  abort : ∀ s, I s → I (out.abort s).2

section Keeps

variable {σ : Type} {out : PcmOutput σ} {I : σ → Prop}

theorem writeChunks_keeps (h : out.Keeps I) (failure : Option PlaybackError)
    (chunks : List (List UInt8)) : ∀ remainder s, I s →
      I (writeChunks out failure chunks remainder s).2 := by
  induction chunks with
  | nil =>
    intro remainder s hs
    cases failure <;> exact hs
  | cons chunk chunks ih =>
    intro remainder s hs
    rw [writeChunks]
    split
    · exact ih _ _ hs
    · dsimp only
      split
      · have hwrite := h.write ((remainder ++ chunk).take ((remainder ++ chunk).length -
          (remainder ++ chunk).length % 2)) s hs
        split
        · next heq =>
          rw [heq] at hwrite
          exact ih _ _ hwrite
        · next heq =>
          rw [heq] at hwrite
          exact hwrite
      · exact ih _ _ hs

theorem playSpeech_keeps (h : out.Keeps I) (c : PlaybackCoordinator) (stream : ChunkStream) {s : σ}
    (hs : I s) : I (playSpeech out c stream s).2 := by
  have hspeak : I (speak out stream s).2 := by
    have hloop := writeChunks_keeps h stream.failure stream.chunks [] s hs
    unfold speak
    split
    · next heq =>
      rw [heq] at hloop
      split
      · exact h.drain _ hloop
      · exact hloop
    · next heq =>
      rw [heq] at hloop
      exact hloop
  unfold playSpeech
  split
  · exact hs
  · split
    · next heq =>
      rw [heq] at hspeak
      exact hspeak
    · next s' heq =>
      rw [heq] at hspeak
      have habort := h.abort s' hspeak
      split
      · next heq' =>
        rw [heq'] at habort
        exact habort
      · next heq' =>
        rw [heq'] at habort
        exact habort

end Keeps

section Device

variable {δ : Type} (device : OutputStream δ)

theorem samplePairs_append {a : List UInt8} (ha : a.length % 2 = 0) (b : List UInt8) :
    samplePairs (a ++ b) = samplePairs a ++ samplePairs b := by
  induction a using samplePairs.induct with
  | case1 low high pcm ih =>
    rw [List.cons_append, List.cons_append, samplePairs, samplePairs, ih, List.cons_append]
    rw [List.length_cons, List.length_cons] at ha
    omega
  | case2 a hshort =>
    cases a with
    | nil => rfl
    | cons x a =>
      cases a with
      | nil =>
        rw [List.length_singleton] at ha
        omega
      | cons y a => exact absurd rfl (hshort x y a)

/-- The samples of a block are converted one by one. -/
theorem toDevicePcm_append {a : List UInt8} (ha : a.length % 2 = 0) (b : List UInt8) :
    toDevicePcm (a ++ b) = toDevicePcm a ++ toDevicePcm b := by
  simp only [toDevicePcm, pairBytes, samplePairs_append ha, List.flatMap_append]

/-- Each sample is repeated four times. -/
theorem toDevicePcm_eq (pcm : List UInt8) :
    toDevicePcm pcm = (samplePairs pcm).flatMap fun s =>
      [s.1, s.2, s.1, s.2, s.1, s.2, s.1, s.2] := by
  rw [toDevicePcm, pairBytes, List.flatMap_assoc, List.flatMap_assoc]
  rfl

theorem toDevicePcm_flatten {blocks : List (List UInt8)} (h : ∀ b ∈ blocks, b.length % 2 = 0) :
    (blocks.map toDevicePcm).flatten = toDevicePcm blocks.flatten := by
  induction blocks with
  | nil => rfl
  | cons b blocks ih =>
    rw [List.map_cons, List.flatten_cons, List.flatten_cons,
      toDevicePcm_append (h b List.mem_cons_self), ih fun b' hb' => h b' (List.mem_cons_of_mem _ hb')]

/-- The blocks of the device are the converted writes, as long as none has failed. -/
def Rendered (s : LocalPcmOutput (δ × List (List UInt8)) × List OutputCall) : Prop :=
  ¬ Failing s.2 → s.1.device.2 = (writtenOf s.2).map toDevicePcm

namespace LocalPcmOutput

theorem blocks_writeDevice {pcm : List UInt8} {o o' : LocalPcmOutput (δ × List (List UInt8))}
    (h : writeDevice device.recorded pcm o = (.ok (), o')) :
    o'.device.2 = o.device.2 ++ [toDevicePcm pcm] := by
  unfold writeDevice at h
  split at h
  · next heq =>
    cases h
    exact (congrArg (·.2.2) heq).symm
  · cases h

theorem blocks_write {pcm : List UInt8} {o o' : LocalPcmOutput (δ × List (List UInt8))}
    (h : write device.recorded pcm o = (.ok (), o')) :
    o'.device.2 = o.device.2 ++ [toDevicePcm pcm] := by
  unfold write at h
  split at h
  · cases h
  split at h
  · cases h
  split at h
  · exact blocks_writeDevice device h
  split at h
  · next started heq =>
    have hsame : started.2 = o.device.2 := (congrArg (·.2.2) heq).symm
    have hblocks := blocks_writeDevice device h
    rw [hsame] at hblocks
    exact hblocks
  · cases h

theorem blocks_drain (o : LocalPcmOutput (δ × List (List UInt8))) :
    (drain device.recorded o).2.device.2 = o.device.2 := by
  unfold drain
  split
  · rfl
  split
  · next heq => exact (congrArg (·.2.2) heq).symm
  · next heq => exact (congrArg (·.2.2) heq).symm

theorem blocks_abort (o : LocalPcmOutput (δ × List (List UInt8))) :
    (abort device.recorded o).2.device.2 = o.device.2 := by
  unfold abort
  split
  · rfl
  split
  · next heq => exact (congrArg (·.2.2) heq).symm
  · next heq => exact (congrArg (·.2.2) heq).symm

/-- A call that is no write. -/
theorem rendered_of_same {s : LocalPcmOutput (δ × List (List UInt8)) × List OutputCall}
    (h : Rendered s) {o : LocalPcmOutput (δ × List (List UInt8))} {call : OutputCall}
    (hblocks : o.device.2 = s.1.device.2) (hcall : ∀ pcm r, call ≠ .write pcm r) :
    Rendered (o, s.2 ++ [call]) := by
  intro hnot
  have hold : ¬ Failing s.2 := by
    rintro ⟨pcm, e, hmem⟩
    exact hnot ⟨pcm, e, List.mem_append_left _ hmem⟩
  have hwritten : writtenOf [call] = [] := by
    cases call with
    | write pcm r => exact absurd rfl (hcall pcm r)
    | drain r => rfl
    | abort r => rfl
  rw [writtenOf_append, hwritten, List.append_nil, hblocks]
  exact h hold

theorem keeps_rendered : (output device.recorded).recorded.Keeps Rendered where
  write := by
    rintro pcm ⟨o, calls⟩ h hnot
    rw [recorded_write] at hnot ⊢
    rcases hwrite : write device.recorded pcm o with ⟨e | _, o'⟩
    · refine absurd ⟨pcm, e, List.mem_append_right _ ?_⟩ hnot
      rw [show (output device.recorded).write pcm o = (.error e, o') from hwrite]
      exact List.mem_singleton_self _
    · have hold : ¬ Failing calls := by
        rintro ⟨pcm', e, hmem⟩
        exact hnot ⟨pcm', e, List.mem_append_left _ hmem⟩
      have hblocks := blocks_write device hwrite
      rw [show (output device.recorded).write pcm o = (.ok (), o') from hwrite]
      show o'.device.2 = _
      rw [hblocks, h hold, writtenOf_append, List.map_append]
      rfl
  drain := fun s h => rendered_of_same h (blocks_drain device s.1) fun _ _ heq => by cases heq
  abort := fun s h => rendered_of_same h (blocks_abort device s.1) fun _ _ heq => by cases heq

end LocalPcmOutput

end Device

/-- **A spoken reply does not depend on how its stream is chunked.**  Any output is asked to
write whole samples, which are together those of the stream, and then to drain, or to abort
if the stream or a write fails or a sample is cut; the device of the local output is given
each sample four times. -/
theorem speech_streamed (c : PlaybackCoordinator) (hstarted : c.started = true)
    (hstopping : c.stopping = false) (stream : ChunkStream) :
    (∀ (σ : Type) (out : PcmOutput σ) (s : σ),
      Played stream (playSpeech out.recorded c stream (s, [])).2.2) ∧
    ∀ (δ : Type) (device : OutputStream δ) (opened active : Bool) (d : δ)
      (final : LocalPcmOutput (δ × List (List UInt8)) × List OutputCall),
      (playSpeech (LocalPcmOutput.output device.recorded).recorded c stream
        (⟨opened, active, d, []⟩, [])).2 = final → ¬ Failing final.2 →
        final.1.device.2.flatten = toDevicePcm (wholeSamples stream.chunks.flatten) ∧
          final.1.device.2.flatten = (samplePairs (wholeSamples stream.chunks.flatten)).flatMap
            fun s => [s.1, s.2, s.1, s.2, s.1, s.2, s.1, s.2] := by
  refine ⟨fun σ out s => played c hstarted hstopping stream out s, ?_⟩
  rintro δ device opened active d _ rfl hnot
  have hplayed := played c hstarted hstopping stream (LocalPcmOutput.output device.recorded)
    ⟨opened, active, d, []⟩
  have hrendered := playSpeech_keeps (LocalPcmOutput.keeps_rendered device) c stream
    (s := (⟨opened, active, d, []⟩, [])) (fun _ => rfl)
  have hblocks := hrendered hnot
  have heq : (playSpeech (LocalPcmOutput.output device.recorded).recorded c stream
      (⟨opened, active, d, []⟩, [])).2.1.device.2.flatten =
      toDevicePcm (wholeSamples stream.chunks.flatten) := by
    rw [hblocks, toDevicePcm_flatten fun b hb => (hplayed.blocks b hb).2, hplayed.whole hnot]
  exact ⟨heq, heq.trans (toDevicePcm_eq _)⟩

/-- A device that takes everything. -/
def willing : OutputStream Unit where
  start := fun d => (.ok (), d)
  write := fun _ d => (.ok (), d)
  stop := fun d => (.ok (), d)
  abort := fun d => (.ok (), d)

/-- A sample that is cut in two. -/
theorem speech_streamed_cut :
    Played ⟨[[1], [2]], none⟩ (playSpeech (LocalPcmOutput.output willing).recorded ⟨true, false⟩
      ⟨[[1], [2]], none⟩ (⟨true, false, ()⟩, [])).2.2 :=
  (speech_streamed ⟨true, false⟩ rfl rfl ⟨[[1], [2]], none⟩).1 _ _ _

end SmartDesk.Voice

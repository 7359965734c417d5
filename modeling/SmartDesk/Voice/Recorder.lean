import Mathlib.Data.List.DropRight
import SmartDesk.Voice.Models

/-!
# The recorder

`RmsRecorder` of `modules/voice/audio.py`.  When a read times out is not modelled: any read
can.

* `RmsRecorder.record` — a recording, read by read.
* `detectionOf`, `recordingOf` — what its variables say of the chunks that it has read.
* `Ends` — what it returns for them.
-/

namespace SmartDesk.Voice

/-! ## Recordings -/

/-- `np.frombuffer(pcm, dtype="<i2")`. -/
def samplesOf : List UInt8 → List ℤ
  | low :: high :: pcm => (low.toNat + 256 * high.toNat : ℤ).bmod 65536 :: samplesOf pcm
  | _ => []

/-- `calculate_rms(pcm)` of a frame, whose size every `AudioChunk` has.  The squares are
integers below `2 ^ 53` in any sum of them, so only the mean and the root are rounded. -/
def calculateRms (pcm : List UInt8) : ℚ :=
  Ieee.sqrt (Ieee.double (((samplesOf pcm).foldl (fun sum s => sum + s * s) 0 : ℤ) /
    inputFrameSamples))

/-- The payload of a WAV file in memory. -/
structure AudioUtterance where
  pcm : List UInt8
  durationSeconds : ℚ
  deriving DecidableEq

/-- `build_wav(pcm_frames)` for frames of the fixed size. -/
def buildWav (pcmFrames : List (List UInt8)) : AudioUtterance where
  pcm := pcmFrames.flatten
  durationSeconds := Ieee.double (pcmFrames.flatten.length / (inputSampleRate * 2))

/-- `RecordingResult`. -/
abbrev RecordingResult : Type := Option AudioUtterance × RecordingEnd

structure RmsRecorder where
  rmsThreshold : ℚ
  startFrames : ℕ
  silenceSeconds : ℚ
  minSeconds : ℚ
  maxFrames : ℕ
  prerollFrames : ℕ

/-- The recorder that `bootstrap.py` makes of the settings. -/
def VoiceSettings.recorder (settings : VoiceSettings) : RmsRecorder where
  rmsThreshold := settings.silenceRmsThreshold
  startFrames := settings.speechStartConsecutiveFrames
  silenceSeconds := settings.silenceDurationSeconds
  minSeconds := settings.minUtteranceSeconds
  maxFrames := framesOf settings.maxUtteranceSeconds
  prerollFrames := framesOf settings.followupPrerollSeconds

/-- The tolerance `1e-9`. -/
def tolerance : ℚ := Ieee.double (1 / 10 ^ 9)

/-- One round of the loop: the clock at its head, and what `read` gives; none is a
`TimeoutError`. -/
structure Poll where
  now : ℚ
  chunk : Option AudioChunk

/-- The variables of `record` before a recording has started. -/
structure Detection where
  preroll : List AudioChunk
  streak : ℕ
  firstHighAt : Option ℚ

/-- The variables of `record` after it has. -/
structure Recording where
  frames : List (List UInt8)
  speechStartedAt : ℚ
  lastHighAt : ℚ
  silenceStartedAt : Option ℚ

inductive RecorderState where
  | detecting (d : Detection)
  | recording (r : Recording)

/-- What a round of the loop leads to. -/
inductive Round where
  | continue (s : RecorderState)
  | return (result : RecordingResult)

theorem rtake_rtake_append {α : Type} (l : List α) (c : α) (n : ℕ) :
    (l.rtake n ++ [c]).rtake n = (l ++ [c]).rtake n := by
  cases n with
  | zero => rw [List.rtake_zero, List.rtake_zero]
  | succ n =>
    rw [List.rtake_concat_succ, List.rtake_concat_succ]
    simp only [List.rtake, List.length_drop, List.drop_drop]
    congr 2
    omega

namespace RmsRecorder

variable (recorder : RmsRecorder)

/-- `calculate_rms(chunk.pcm) >= self._rms_threshold`. -/
def above (c : AudioChunk) : Bool := recorder.rmsThreshold ≤ calculateRms c.pcm

/-- `_finish(frames, speech_started_at, last_high_at, end)`. -/
def finish (frames : List (List UInt8)) (speechStartedAt lastHighAt : ℚ) (reason : RecordingEnd) :
    RecordingResult :=
  let voicedSeconds :=
    ((Ieee.finite lastHighAt).sub (.finite speechStartedAt)).add (.finite inputFrameSeconds)
  if voicedSeconds.add (.finite tolerance) < .finite recorder.minSeconds then (none, .tooShort)
  else (some (buildWav (frames.take recorder.maxFrames)), reason)

/-- `deque.append(chunk)` of a deque that holds `prerollFrames` chunks. -/
def appendPreroll (preroll : List AudioChunk) (c : AudioChunk) : List AudioChunk :=
  (preroll ++ [c]).rtake recorder.prerollFrames

/-- `first or other`: a zero counts as nothing. -/
def firstOr (first : Option ℚ) (other : ℚ) : ℚ :=
  match first with
  | none => other
  | some t => if t = 0 then other else t

/-- What a read leads to before the recording has started. -/
def detect (d : Detection) : Option AudioChunk → Round
  | none => .return (none, .speechStartTimeout)
  | some c =>
      let loud := recorder.above c
      let preroll := recorder.appendPreroll d.preroll c
      let streak := if loud then d.streak + 1 else 0
      let firstHighAt :=
        if loud then (if d.streak = 0 then some c.capturedAt else d.firstHighAt) else none
      if streak < recorder.startFrames then .continue (.detecting ⟨preroll, streak, firstHighAt⟩)
      else
        let frames := preroll.map (·.pcm)
        let speechStartedAt := firstOr firstHighAt c.capturedAt
        if recorder.maxFrames ≤ frames.length then
          .return (recorder.finish frames speechStartedAt c.capturedAt .maxDuration)
        else .continue (.recording ⟨frames, speechStartedAt, c.capturedAt, none⟩)

/-- What it leads to after it has. -/
def extend (r : Recording) : Option AudioChunk → Round
  | none => .return (recorder.finish r.frames r.speechStartedAt r.lastHighAt .maxDuration)
  | some c =>
      let frames := r.frames ++ [c.pcm]
      if recorder.above c then
        if recorder.maxFrames ≤ frames.length then
          .return (recorder.finish frames r.speechStartedAt c.capturedAt .maxDuration)
        else .continue (.recording ⟨frames, r.speechStartedAt, c.capturedAt, none⟩)
      else
        let silenceStartedAt := r.silenceStartedAt.getD c.capturedAt
        let silence :=
          ((Ieee.finite c.capturedAt).sub (.finite silenceStartedAt)).add (.finite inputFrameSeconds)
        if .finite recorder.silenceSeconds ≤ silence.add (.finite tolerance) then
          .return (recorder.finish frames r.speechStartedAt r.lastHighAt .silence)
        else if recorder.maxFrames ≤ frames.length then
          .return (recorder.finish frames r.speechStartedAt r.lastHighAt .maxDuration)
        else .continue (.recording ⟨frames, r.speechStartedAt, r.lastHighAt, some silenceStartedAt⟩)

def round : RecorderState → Option AudioChunk → Round
  | .detecting d, chunk => recorder.detect d chunk
  | .recording r, chunk => recorder.extend r chunk

/-- `frames is None and now >= speech_start_deadline`. -/
def expired (deadline now : ℚ) : RecorderState → Bool
  | .detecting _ => deadline ≤ now
  | .recording _ => false

/-- The loop of `record`, and the chunks that it has read; none if it still waits. -/
def loop (deadline : ℚ) : RecorderState → List AudioChunk → List Poll →
    Option (RecordingResult × List AudioChunk)
  | _, _, [] => none
  | s, heard, p :: ps =>
      if expired deadline p.now s then some ((none, .speechStartTimeout), heard)
      else
        match recorder.round s p.chunk with
        | .continue s => loop deadline s (heard ++ p.chunk.toList) ps
        | .return result => some (result, heard ++ p.chunk.toList)

/-- The variables of `record` before its loop. -/
def initial (initialChunks : List AudioChunk) (initialAboveThresholdFrames : ℕ) : RecorderState :=
  .detecting
    { preroll := initialChunks.rtake recorder.prerollFrames
      streak := initialAboveThresholdFrames
      firstHighAt :=
        if initialAboveThresholdFrames = 0 then none
        else initialChunks.getLast?.map (·.capturedAt) }

/-- `record(audio_input, speech_start_deadline, initial_chunks,
initial_above_threshold_frames)`, and the chunks that it has read. -/
def record (deadline : ℚ) (initialChunks : List AudioChunk) (initialAboveThresholdFrames : ℕ)
    (polls : List Poll) : Option (RecordingResult × List AudioChunk) :=
  recorder.loop deadline (recorder.initial initialChunks initialAboveThresholdFrames)
    [] polls

/-! ## What the variables say of the chunks that were read -/

/-- The loud chunks at the end. -/
def loudRun (l : List AudioChunk) : List AudioChunk := l.rtakeWhile (recorder.above)

def detectionOf (l : List AudioChunk) : Detection where
  preroll := l.rtake recorder.prerollFrames
  streak := (recorder.loudRun l).length
  firstHighAt := (recorder.loudRun l).head?.map (·.capturedAt)

/-- The time of the last loud chunk. -/
def lastHigh (l : List AudioChunk) : ℚ :=
  ((l.filter (recorder.above)).getLast?.map (·.capturedAt)).getD 0

/-- What is recorded after `p` has started the recording and `rest` was read. -/
def kept (p rest : List AudioChunk) : List AudioChunk :=
  p.rtake recorder.prerollFrames ++ rest

/-- `speech_started_at` of a recording that `p` has started. -/
def speechStart (p : List AudioChunk) : ℚ :=
  firstOr ((recorder.loudRun p).head?.map (·.capturedAt))
    (recorder.lastHigh p)

def recordingOf (p rest : List AudioChunk) : Recording where
  frames := (recorder.kept p rest).map (·.pcm)
  speechStartedAt := recorder.speechStart p
  lastHighAt := recorder.lastHigh (p ++ rest)
  silenceStartedAt := (rest.rtakeWhile fun c => !recorder.above c).head?.map
    (·.capturedAt)

variable {recorder}

theorem lastHigh_append_loud (l : List AudioChunk) {c : AudioChunk}
    (hloud : recorder.above c = true) :
    recorder.lastHigh (l ++ [c]) = c.capturedAt := by
  simp [lastHigh, List.filter_append, hloud]

theorem lastHigh_append_quiet (l : List AudioChunk) {c : AudioChunk}
    (hquiet : recorder.above c = false) :
    recorder.lastHigh (l ++ [c]) = recorder.lastHigh l := by
  simp [lastHigh, List.filter_append, hquiet]

theorem loudRun_append_loud (l : List AudioChunk) {c : AudioChunk}
    (hloud : recorder.above c = true) :
    recorder.loudRun (l ++ [c]) = recorder.loudRun l ++ [c] :=
  List.rtakeWhile_concat_pos _ _ _ hloud

theorem loudRun_append_quiet (l : List AudioChunk) {c : AudioChunk}
    (hquiet : recorder.above c = false) :
    recorder.loudRun (l ++ [c]) = [] :=
  List.rtakeWhile_concat_neg _ _ _ (by simp [hquiet])

/-- A chunk before the recording has started. -/
theorem detect_chunk (hstart : 1 ≤ recorder.startFrames) (l : List AudioChunk) (c : AudioChunk) :
    recorder.detect (recorder.detectionOf l) (some c) =
      if (recorder.loudRun (l ++ [c])).length < recorder.startFrames then
        .continue (.detecting (recorder.detectionOf (l ++ [c])))
      else if recorder.maxFrames ≤ (recorder.kept (l ++ [c]) []).length then
        .return (recorder.finish ((recorder.kept (l ++ [c]) []).map (·.pcm))
          (recorder.speechStart (l ++ [c]))
          (recorder.lastHigh (l ++ [c])) .maxDuration)
      else .continue (.recording (recorder.recordingOf (l ++ [c]) [])) := by
  have hpreroll : recorder.appendPreroll (l.rtake recorder.prerollFrames) c =
      (l ++ [c]).rtake recorder.prerollFrames := rtake_rtake_append l c _
  dsimp only [detect, detectionOf]
  rw [hpreroll]
  cases hloud : recorder.above c with
  | false =>
    have hrun := loudRun_append_quiet l hloud
    simp only [hrun, Bool.false_eq_true, if_false, List.length_nil, List.head?_nil, Option.map_none]
    rw [if_pos (by omega), if_pos (by omega)]
  | true =>
    have hrun := loudRun_append_loud l hloud
    have hlast := lastHigh_append_loud l hloud
    simp only [if_true, kept, recordingOf, speechStart, hlast, hrun, List.append_nil,
      List.length_append, List.length_map, List.length_singleton, List.rtakeWhile_nil,
      List.head?_nil, Option.map_none]
    by_cases hempty : recorder.loudRun l = []
    · simp only [hempty, List.length_nil, if_true, List.nil_append, List.head?_cons,
        Option.map_some]
    · obtain ⟨first, others, hcons⟩ := List.exists_cons_of_ne_nil hempty
      simp only [hcons, List.length_cons, Nat.add_one_ne_zero, if_false, List.cons_append,
        List.head?_cons, Option.map_some]

/-- A chunk after the recording has started. -/
theorem extend_chunk (p rest : List AudioChunk) (c : AudioChunk) :
    recorder.extend (recorder.recordingOf p rest) (some c) =
        .continue (.recording (recorder.recordingOf p (rest ++ [c]))) ∧
        (recorder.kept p (rest ++ [c])).length < recorder.maxFrames ∨
      ∃ reason, recorder.extend (recorder.recordingOf p rest) (some c) =
          .return (recorder.finish ((recorder.kept p (rest ++ [c])).map (·.pcm))
            (recorder.speechStart p)
            (recorder.lastHigh (p ++ (rest ++ [c]))) reason) := by
  have hframes : (recorder.kept p rest).map (·.pcm) ++ [c.pcm] =
      (recorder.kept p (rest ++ [c])).map (·.pcm) := by
    simp [kept]
  dsimp only [extend, recordingOf]
  rw [hframes]
  cases hloud : recorder.above c with
  | true =>
    have hlast := lastHigh_append_loud (p ++ rest) hloud
    rw [List.append_assoc] at hlast
    simp only [if_true]
    split
    · exact .inr ⟨.maxDuration, by rw [hlast]⟩
    · next hshort =>
      rw [List.length_map, not_le] at hshort
      refine .inl ⟨?_, hshort⟩
      rw [hlast, List.rtakeWhile_concat_neg _ _ _ (by simp [hloud])]
      rfl
  | false =>
    have hlast := lastHigh_append_quiet (p ++ rest) hloud
    rw [List.append_assoc] at hlast
    simp only [Bool.false_eq_true, if_false]
    split
    · exact .inr ⟨.silence, by rw [hlast]⟩
    · split
      · exact .inr ⟨.maxDuration, by rw [hlast]⟩
      · next hshort =>
        rw [List.length_map, not_le] at hshort
        refine .inl ⟨?_, hshort⟩
        rw [hlast, List.rtakeWhile_concat_pos _ _ _ (by simp [hloud])]
        cases rest.rtakeWhile fun c => !recorder.above c <;> rfl

/-! ## How a recording ends -/

/-- `p` is the first part of what was read whose loud chunks at the end start a recording. -/
structure Triggered (recorder : RmsRecorder) (p : List AudioChunk) : Prop where
  loud : recorder.startFrames ≤ (recorder.loudRun p).length
  first : ∀ q, q <+: p → q ≠ p → (recorder.loudRun q).length < recorder.startFrames

/-- No part of what was read starts a recording. -/
def NoTrigger (recorder : RmsRecorder) (l : List AudioChunk) : Prop :=
  ∀ q, q <+: l → (recorder.loudRun q).length < recorder.startFrames

theorem noTrigger_nil (hstart : 1 ≤ recorder.startFrames) : recorder.NoTrigger [] := by
  intro q hq
  rw [List.prefix_nil.mp hq]
  exact hstart

/-- The next chunk starts the recording, or it still waits. -/
theorem NoTrigger.snoc {l : List AudioChunk} (h : recorder.NoTrigger l) (c : AudioChunk) :
    if (recorder.loudRun (l ++ [c])).length < recorder.startFrames then
      recorder.NoTrigger (l ++ [c])
    else recorder.Triggered (l ++ [c]) := by
  have hpart : ∀ q, q <+: l ++ [c] → q ≠ l ++ [c] → q <+: l := fun q hq hne =>
    (List.prefix_concat_iff.mp hq).resolve_left hne
  split
  · next hshort =>
    intro q hq
    by_cases heq : q = l ++ [c]
    · rw [heq]
      exact hshort
    · exact h q (hpart q hq heq)
  · next hlong => exact ⟨not_lt.mp hlong, fun q hq hne => h q (hpart q hq hne)⟩

/-- A recording that starts has just as many loud chunks at its end as it takes. -/
theorem Triggered.length_loudRun {p : List AudioChunk} (h : recorder.Triggered p) :
    (recorder.loudRun p).length = recorder.startFrames := by
  refine le_antisymm ?_ h.loud
  rcases p.eq_nil_or_concat' with rfl | ⟨q, c, rfl⟩
  · exact Nat.zero_le _
  · have hq := h.first q (List.prefix_append q [c]) (by simp)
    cases hloud : recorder.above c with
    | true =>
      rw [loudRun_append_loud q hloud, List.length_append, List.length_singleton]
      omega
    | false =>
      rw [loudRun_append_quiet q hloud]
      exact Nat.zero_le _

/-- What `record` returns, and what it has read by then. -/
inductive Ends (recorder : RmsRecorder) : List AudioChunk → RecordingResult → Prop
  | timeout (heard : List AudioChunk) :
      recorder.NoTrigger heard → recorder.Ends heard (none, .speechStartTimeout)
  | finished (p rest : List AudioChunk) (reason : RecordingEnd) :
      recorder.Triggered p →
      rest = [] ∨ (recorder.kept p rest).length ≤ recorder.maxFrames →
      recorder.Ends (p ++ rest)
        (recorder.finish ((recorder.kept p rest).map (·.pcm)) (recorder.speechStart p)
          (recorder.lastHigh (p ++ rest)) reason)

/-- A recording that has started ends as it should. -/
theorem loop_recording {deadline : ℚ} {p : List AudioChunk} (hp : recorder.Triggered p)
    {polls : List Poll} {result : RecordingResult} {heard : List AudioChunk} :
    ∀ {rest : List AudioChunk},
      rest = [] ∨ (recorder.kept p rest).length ≤ recorder.maxFrames →
      (recorder.kept p rest).length < recorder.maxFrames →
      recorder.loop deadline (.recording (recorder.recordingOf p rest)) (p ++ rest) polls =
        some (result, heard) →
      recorder.Ends heard result := by
  induction polls with
  | nil =>
    intro rest _ _ h
    cases h
  | cons poll polls ih =>
    intro rest hrest hshort h
    obtain ⟨now, chunk⟩ := poll
    cases chunk with
    | none =>
      obtain ⟨rfl, rfl⟩ := Prod.mk.inj (Option.some.inj h)
      rw [Option.toList_none, List.append_nil]
      exact .finished p rest .maxDuration hp hrest
    | some c =>
      have hlength : (recorder.kept p (rest ++ [c])).length =
          (recorder.kept p rest).length + 1 := by
        simp [kept, Nat.add_assoc]
      rw [loop, if_neg (by simp [expired]), round] at h
      rcases extend_chunk p rest c with ⟨hround, hnext⟩ | ⟨reason, hround⟩
      · rw [hround] at h
        dsimp only at h
        rw [Option.toList_some, List.append_assoc] at h
        exact ih (.inr hnext.le) hnext h
      · rw [hround] at h
        obtain ⟨rfl, rfl⟩ := Prod.mk.inj (Option.some.inj h)
        rw [Option.toList_some, List.append_assoc]
        exact .finished p (rest ++ [c]) reason hp (.inr (by omega))

/-- So does one that has not. -/
theorem loop_detecting (hstart : 1 ≤ recorder.startFrames) {deadline : ℚ}
    {polls : List Poll} {result : RecordingResult} {heard : List AudioChunk} :
    ∀ {l : List AudioChunk}, recorder.NoTrigger l →
      recorder.loop deadline (.detecting (recorder.detectionOf l)) l polls =
        some (result, heard) →
      recorder.Ends heard result := by
  induction polls with
  | nil =>
    intro l _ h
    cases h
  | cons poll polls ih =>
    intro l hl h
    obtain ⟨now, chunk⟩ := poll
    rw [loop] at h
    split at h
    · obtain ⟨rfl, rfl⟩ := Prod.mk.inj (Option.some.inj h)
      exact .timeout l hl
    · cases chunk with
      | none =>
        obtain ⟨rfl, rfl⟩ := Prod.mk.inj (Option.some.inj h)
        rw [Option.toList_none, List.append_nil]
        exact .timeout l hl
      | some c =>
        have hnext := hl.snoc c
        rw [round, detect_chunk hstart] at h
        split at hnext
        · next hfew =>
          rw [if_pos hfew] at h
          exact ih hnext h
        · next hmany =>
          rw [if_neg hmany] at h
          by_cases hfull : recorder.maxFrames ≤ (recorder.kept (l ++ [c]) []).length
          · rw [if_pos hfull] at h
            obtain ⟨rfl, rfl⟩ := Prod.mk.inj (Option.some.inj h)
            have hends := Ends.finished (l ++ [c]) [] .maxDuration hnext (.inl rfl)
            rwa [List.append_nil] at hends
          · rw [if_neg hfull] at h
            dsimp only at h
            rw [Option.toList_some] at h
            exact loop_recording hnext (.inl rfl) (not_le.mp hfull) (by rwa [List.append_nil])

/-- The chunks that the reads of some rounds would give. -/
def chunksOf (polls : List Poll) : List AudioChunk := polls.filterMap (·.chunk)

/-- What was read is the first part of the stream. -/
theorem heard_prefix {deadline : ℚ} {polls : List Poll} {result : RecordingResult}
    {heard : List AudioChunk} :
    ∀ {s : RecorderState} {l : List AudioChunk},
      recorder.loop deadline s l polls = some (result, heard) →
      ∃ more, heard = l ++ more ∧ more <+: chunksOf polls := by
  induction polls with
  | nil =>
    intro s l h
    cases h
  | cons poll polls ih =>
    intro s l h
    have hchunks : chunksOf (poll :: polls) = poll.chunk.toList ++ chunksOf polls := by
      rw [chunksOf, List.filterMap_cons]
      cases poll.chunk <;> rfl
    rw [loop] at h
    split at h
    · obtain ⟨rfl, rfl⟩ := Prod.mk.inj (Option.some.inj h)
      exact ⟨[], (List.append_nil l).symm, List.nil_prefix⟩
    · split at h
      · obtain ⟨more, rfl, hmore⟩ := ih h
        refine ⟨poll.chunk.toList ++ more, List.append_assoc .., ?_⟩
        rw [hchunks]
        exact (List.prefix_append_right_inj _).mpr hmore
      · obtain ⟨rfl, rfl⟩ := Prod.mk.inj (Option.some.inj h)
        exact ⟨poll.chunk.toList, rfl, hchunks ▸ List.prefix_append ..⟩

end RmsRecorder

end SmartDesk.Voice

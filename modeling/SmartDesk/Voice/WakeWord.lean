import SmartDesk.Voice.Recorder

/-!
# The wake word

`LiveKitWakeWordOnnxDetector` of `modules/voice/wakeword.py`.  The resampler and the model are
a parameter, which may raise; what only the debug snapshot reads is left out.

* `detect`, `reset` — the detector.
* `WakeRun` — the detector with what was fed and inferred since the last reset.
* `wakeword_schedule` — **when it infers, what it infers on and when it activates.**
-/

namespace SmartDesk.Voice

/-- `WINDOW_FRAMES`. -/
def windowFrames : ℕ := 25

inductive WakeWordError where
  | valueError
  /-- `VoiceFatalError(code)` -/
  | fatal (code : String)
  deriving DecidableEq

/-- What the detector is made with. -/
structure WakeWordSettings where
  threshold : ℚ
  consecutiveFrames : ℕ
  inferenceIntervalFrames : ℕ
  consecutive_pos : 1 ≤ consecutiveFrames := by decide
  interval_pos : 1 ≤ inferenceIntervalFrames := by decide

/-- `LiveKitWakeWordOnnxDetector`; `started` says that its model is loaded. -/
structure Detector where
  started : Bool
  frames : List (List ℤ)
  framesSinceInference : ℕ
  activationStreak : ℕ
  disarmed : Bool
  lastScore : Option ℚ

/-- An inference: the samples that were resampled for the model, and the score. -/
structure Inferred where
  samples : List ℤ
  score : Option ℚ
  deriving DecidableEq

/-- What a call of `detect` leaves, infers and returns. -/
structure Detected where
  detector : Detector
  inferred : Option Inferred
  result : Except WakeWordError Bool

/-- `_infer` after `_resample_for_model`; `predict` raises when it gives nothing. -/
def infer (predict : List ℤ → Option Ieee) (samples : List ℤ) : Option ℚ :=
  match predict samples with
  | some (.finite score) => if 0 ≤ score ∧ score ≤ 1 then some score else none
  | _ => none

section Detector

variable (settings : WakeWordSettings) (predict : List ℤ → Option Ieee)

namespace Detector

def start : Detector where
  started := true
  frames := []
  framesSinceInference := settings.inferenceIntervalFrames - 1
  activationStreak := 0
  disarmed := false
  lastScore := none

def reset (d : Detector) : Detector :=
  { d with
    frames := [], framesSinceInference := settings.inferenceIntervalFrames - 1,
    activationStreak := 0, disarmed := false }

/-- `detect(pcm)` once there is a score. -/
def judge (score : ℚ) (d : Detector) : Detector × Bool :=
  let d := { d with lastScore := some score }
  if score < settings.threshold then ({ d with activationStreak := 0 }, false)
  else
    let d := { d with activationStreak := d.activationStreak + 1 }
    if d.activationStreak < settings.consecutiveFrames then (d, false)
    else ({ d with disarmed := true }, true)

/-- `detect(pcm)` from its inference on. -/
def inference (d : Detector) : Detected :=
  let d := { d with framesSinceInference := 0 }
  let samples := d.frames.flatten
  match infer predict samples with
  | none => ⟨d, some ⟨samples, none⟩, .error (.fatal "wakeword_inference_failed")⟩
  | some score =>
      let (d, activated) := d.judge settings score
      ⟨d, some ⟨samples, some score⟩, .ok activated⟩

/-- `inference_interval` of `detect`. -/
def interval (d : Detector) : ℕ :=
  if d.activationStreak ≠ 0 then 1 else settings.inferenceIntervalFrames

/-- `detect(pcm)`. -/
def detect (pcm : List UInt8) (d : Detector) : Detected :=
  if pcm.length ≠ inputFrameBytes then ⟨d, none, .error .valueError⟩
  else if d.started = false then ⟨d, none, .error (.fatal "wakeword_not_started")⟩
  else if d.disarmed then ⟨d, none, .ok false⟩
  else
    let d := { d with frames := (d.frames ++ [samplesOf pcm]).rtake windowFrames }
    if d.frames.length < windowFrames then ⟨d, none, .ok false⟩
    else
      let d := { d with framesSinceInference := d.framesSinceInference + 1 }
      if d.framesSinceInference < d.interval settings then ⟨d, none, .ok false⟩
      else d.inference settings predict

end Detector

/-! ## Runs -/

inductive WakeOp where
  | detect (pcm : List UInt8)
  | reset

/-- An inference and the number of the frame that it was made at. -/
structure Inference extends Inferred where
  frame : ℕ

/-- The detector, and what happened since its last reset. -/
structure WakeRun where
  detector : Detector
  /-- The frames of the right size. -/
  fed : List (List UInt8)
  inferences : List Inference
  activations : ℕ

namespace WakeRun

def start : WakeRun := ⟨.start settings, [], [], 0⟩

/-- The run after a call of `detect`. -/
def record (pcm : List UInt8) (a : Detected) (run : WakeRun) : WakeRun where
  detector := a.detector
  fed := if pcm.length = inputFrameBytes then run.fed ++ [pcm] else run.fed
  inferences := run.inferences ++ (a.inferred.map fun i => ⟨i, run.fed.length + 1⟩).toList
  activations := run.activations + if a.result = .ok true then 1 else 0

def step (run : WakeRun) : WakeOp → WakeRun
  | .detect pcm => run.record pcm (run.detector.detect settings predict pcm)
  | .reset => ⟨run.detector.reset settings, [], [], 0⟩

def exec (ops : List WakeOp) : WakeRun := ops.foldl (step settings predict) (start settings)

end WakeRun

/-! ## The schedule -/

/-- The scores from the last one below the threshold on. -/
def highScores (past : List Inference) : List ℚ :=
  (past.filterMap (·.score)).rtakeWhile (settings.threshold ≤ ·)

/-- The frames from one inference to the next one. -/
def gap (past : List Inference) : ℕ :=
  if 0 < (highScores settings past).length then 1 else settings.inferenceIntervalFrames

/-- An inference is to be made at this frame since the reset. -/
def Due (past : List Inference) (frame : ℕ) : Prop :=
  match past.getLast? with
  | none => frame = windowFrames
  | some last => frame = last.frame + gap settings past

/-- **What a call does with a frame**, after what happened since the reset. -/
structure Schedule (run : WakeRun) (pcm : List UInt8) (a : Detected) : Prop where
  once : run.activations ≤ 1
  infers : run.activations = 0 →
    (a.inferred.isSome ↔ Due settings run.inferences (run.fed.length + 1))
  window : ∀ i, a.inferred = some i → windowFrames ≤ (run.fed ++ [pcm]).length ∧
    i.samples = (((run.fed ++ [pcm]).rtake windowFrames).map samplesOf).flatten
  scores : ∀ i, a.inferred = some i → i.score = infer predict i.samples
  activates : a.result = .ok true ↔ run.activations = 0 ∧ ∃ i score, a.inferred = some i ∧
    i.score = some score ∧ settings.threshold ≤ score ∧
      (highScores settings (run.inferences ++ [⟨i, run.fed.length + 1⟩])).length =
        settings.consecutiveFrames
  ignores : run.activations = 1 → a = ⟨run.detector, none, .ok false⟩

/-- Where the next inference stands. -/
def Waits (run : WakeRun) : Prop :=
  match run.inferences.getLast? with
  | none => run.fed.length < windowFrames ∧
      run.detector.framesSinceInference + 1 = settings.inferenceIntervalFrames
  | some last => windowFrames ≤ last.frame ∧
      run.fed.length = last.frame + run.detector.framesSinceInference ∧
      run.detector.framesSinceInference < gap settings run.inferences

/-- The variables of an armed detector in terms of what happened since the reset. -/
structure Armed (run : WakeRun) : Prop where
  disarmed : run.detector.disarmed = false
  frames : run.detector.frames = (run.fed.rtake windowFrames).map samplesOf
  streak : run.detector.activationStreak = (highScores settings run.inferences).length
  below : (highScores settings run.inferences).length < settings.consecutiveFrames
  waits : Waits settings run

/-- A detector that has activated once is disarmed. -/
structure Tracks (run : WakeRun) : Prop where
  started : run.detector.started = true
  once : run.activations ≤ 1
  armed : run.activations = 0 → Armed settings run
  disarmed : run.activations = 1 → run.detector.disarmed = true

/-- An inference at the frame, and the detector after it: it is armed below the number of
successive high scores, and has activated with that number. -/
structure Infers (run : WakeRun) (pcm : List UInt8) (a : Detected) (i : Inferred) : Prop where
  inferred : a.inferred = some i
  samples : i.samples = (((run.fed ++ [pcm]).rtake windowFrames).map samplesOf).flatten
  score : i.score = infer predict i.samples
  started : a.detector.started = run.detector.started
  frames : a.detector.frames = ((run.fed ++ [pcm]).rtake windowFrames).map samplesOf
  since : a.detector.framesSinceInference = 0
  outcome : (a.result ≠ .ok true ∧ a.detector.disarmed = false ∧
      a.detector.activationStreak =
        (highScores settings (run.inferences ++ [⟨i, run.fed.length + 1⟩])).length ∧
      (highScores settings (run.inferences ++ [⟨i, run.fed.length + 1⟩])).length <
        settings.consecutiveFrames) ∨
    (a.result = .ok true ∧ a.detector.disarmed = true ∧
      ∃ score, i.score = some score ∧ settings.threshold ≤ score ∧
        (highScores settings (run.inferences ++ [⟨i, run.fed.length + 1⟩])).length =
          settings.consecutiveFrames)

end Detector

section Lemmas

variable {settings : WakeWordSettings} {predict : List ℤ → Option Ieee} {run : WakeRun}
  {pcm : List UInt8}

theorem highScores_none {past : List Inference} {i : Inference} (h : i.score = none) :
    highScores settings (past ++ [i]) = highScores settings past := by
  simp [highScores, List.filterMap_append, h]

theorem highScores_low {past : List Inference} {i : Inference} {score : ℚ}
    (h : i.score = some score) (hlow : score < settings.threshold) :
    highScores settings (past ++ [i]) = [] := by
  have hscores : (past ++ [i]).filterMap (·.score) = past.filterMap (·.score) ++ [score] := by
    simp [List.filterMap_append, h]
  rw [highScores, hscores, List.rtakeWhile_concat_neg]
  simpa using hlow

theorem highScores_high {past : List Inference} {i : Inference} {score : ℚ}
    (h : i.score = some score) (hhigh : settings.threshold ≤ score) :
    highScores settings (past ++ [i]) = highScores settings past ++ [score] := by
  have hscores : (past ++ [i]).filterMap (·.score) = past.filterMap (·.score) ++ [score] := by
    simp [List.filterMap_append, h]
  rw [highScores, hscores, List.rtakeWhile_concat_pos]
  · rfl
  · simpa using hhigh

theorem armed_start : Armed settings (.start settings) where
  disarmed := rfl
  frames := rfl
  streak := rfl
  below := settings.consecutive_pos
  waits := ⟨Nat.zero_lt_succ 24, Nat.sub_add_cancel settings.interval_pos⟩

theorem tracks_start : Tracks settings (.start settings) where
  started := rfl
  once := Nat.zero_le 1
  armed := fun _ => armed_start
  disarmed := fun h => by cases h

/-- The window after one more frame. -/
theorem Armed.push (h : Armed settings run) :
    (run.detector.frames ++ [samplesOf pcm]).rtake windowFrames =
      ((run.fed ++ [pcm]).rtake windowFrames).map samplesOf := by
  have hmap : ∀ l : List (List UInt8), (l.rtake windowFrames).map samplesOf =
      (l.map samplesOf).rtake windowFrames := by
    intro l
    rw [List.rtake, List.rtake, List.map_drop, List.length_map]
  rw [h.frames, hmap, hmap, rtake_rtake_append, List.map_append]
  rfl

theorem length_rtake (l : List (List UInt8)) (n : ℕ) : (l.rtake n).length = min n l.length := by
  rw [List.rtake, List.length_drop]
  omega

/-- The detector with one more frame in its window. -/
def pushed (run : WakeRun) (pcm : List UInt8) (since : ℕ) : Detector :=
  { run.detector with
    frames := ((run.fed ++ [pcm]).rtake windowFrames).map samplesOf, framesSinceInference := since }

theorem Armed.interval (h : Armed settings run) (frames : List (List ℤ)) (since : ℕ) :
    ({ run.detector with frames := frames, framesSinceInference := since } : Detector).interval
      settings = gap settings run.inferences := by
  rw [Detector.interval, gap, h.streak]
  split_ifs <;> omega

/-- **A frame of an armed detector**: it infers exactly when an inference is due. -/
theorem Armed.detect (h : Armed settings run) (hstarted : run.detector.started = true)
    (predict : List ℤ → Option Ieee) (hpcm : pcm.length = inputFrameBytes) :
    (¬ Due settings run.inferences (run.fed.length + 1) ∧ ∃ since,
      run.detector.detect settings predict pcm = ⟨pushed run pcm since, none, .ok false⟩ ∧
        Waits settings (run.record pcm ⟨pushed run pcm since, none, .ok false⟩)) ∨
    (Due settings run.inferences (run.fed.length + 1) ∧
      windowFrames ≤ (run.fed ++ [pcm]).length ∧ ∃ since,
        run.detector.detect settings predict pcm =
          (pushed run pcm since).inference settings predict) := by
  have hfed : (run.fed ++ [pcm]).length = run.fed.length + 1 := by simp
  have hlength : (((run.fed ++ [pcm]).rtake windowFrames).map samplesOf).length =
      min windowFrames (run.fed.length + 1) := by
    rw [List.length_map, length_rtake, hfed]
  have hdetect : run.detector.detect settings predict pcm =
      if min windowFrames (run.fed.length + 1) < windowFrames then
        ⟨pushed run pcm run.detector.framesSinceInference, none, .ok false⟩
      else if run.detector.framesSinceInference + 1 < gap settings run.inferences then
        ⟨pushed run pcm (run.detector.framesSinceInference + 1), none, .ok false⟩
      else (pushed run pcm (run.detector.framesSinceInference + 1)).inference settings predict := by
    rw [Detector.detect, if_neg (by simp [hpcm]), if_neg (by simp [hstarted]),
      if_neg (by simp [h.disarmed])]
    simp only [h.push, hlength, h.interval]
    rfl
  have hrecord : ∀ since, (run.record pcm ⟨pushed run pcm since, none, .ok false⟩).fed =
      run.fed ++ [pcm] := fun since => if_pos hpcm
  have hsame : ∀ since, (run.record pcm ⟨pushed run pcm since, none, .ok false⟩).inferences =
      run.inferences := fun since => List.append_nil _
  have hwaits := h.waits
  unfold Waits at hwaits
  by_cases hshort : run.fed.length + 1 < windowFrames
  · rw [if_pos (by omega)] at hdetect
    split at hwaits
    · next hnone =>
      refine .inl ⟨?_, run.detector.framesSinceInference, hdetect, ?_⟩
      · unfold Due
        rw [hnone]
        exact hshort.ne
      · unfold Waits
        rw [hrecord, hsame, hnone]
        exact ⟨by omega, hwaits.2⟩
    · omega
  · rw [if_neg (by omega)] at hdetect
    split at hwaits
    · next hnone =>
      -- The window is full for the first time, and the counter one short of the interval.
      have hgap : gap settings run.inferences = settings.inferenceIntervalFrames := by
        rw [List.getLast?_eq_none_iff.mp hnone]
        rfl
      rw [if_neg (by omega)] at hdetect
      refine .inr ⟨?_, by omega, _, hdetect⟩
      unfold Due
      rw [hnone]
      omega
    · next last hlast =>
      by_cases hdue : run.detector.framesSinceInference + 1 < gap settings run.inferences
      · rw [if_pos hdue] at hdetect
        refine .inl ⟨?_, _, hdetect, ?_⟩
        · unfold Due
          rw [hlast]
          omega
        · unfold Waits
          rw [hrecord, hsame, hlast]
          exact ⟨hwaits.1, by rw [hfed, hwaits.2.1]; rfl, hdue⟩
      · rw [if_neg hdue] at hdetect
        refine .inr ⟨?_, by omega, _, hdetect⟩
        unfold Due
        rw [hlast]
        omega

theorem Armed.inference (h : Armed settings run) (predict : List ℤ → Option Ieee)
    (pcm : List UInt8) (since : ℕ) :
    ∃ i, Infers settings predict run pcm
      ((pushed run pcm since).inference settings predict) i := by
  have hstreak : (pushed run pcm since).activationStreak =
      (highScores settings run.inferences).length := h.streak
  have hbelow := h.below
  set samples := (pushed run pcm since).frames.flatten with hsamples
  cases hinfer : infer predict samples with
  | none =>
    have heq : (pushed run pcm since).inference settings predict =
        ⟨{ pushed run pcm since with framesSinceInference := 0 }, some ⟨samples, none⟩,
          .error (.fatal "wakeword_inference_failed")⟩ := by
      simp only [Detector.inference, ← hsamples, hinfer]
    refine ⟨⟨samples, none⟩, ?_⟩
    rw [heq]
    refine ⟨rfl, rfl, hinfer.symm, rfl, rfl, rfl, .inl ⟨by simp, h.disarmed, ?_⟩⟩
    rw [highScores_none rfl]
    exact ⟨hstreak, hbelow⟩
  | some score =>
    refine ⟨⟨samples, some score⟩, ?_⟩
    by_cases hlow : score < settings.threshold
    · have heq : (pushed run pcm since).inference settings predict =
          ⟨{ pushed run pcm since with
              framesSinceInference := 0, lastScore := some score, activationStreak := 0 },
            some ⟨samples, some score⟩, .ok false⟩ := by
        simp only [Detector.inference, Detector.judge, ← hsamples, hinfer, if_pos hlow]
      rw [heq]
      refine ⟨rfl, rfl, hinfer.symm, rfl, rfl, rfl, .inl ⟨by simp, h.disarmed, ?_⟩⟩
      rw [highScores_low rfl hlow]
      exact ⟨rfl, settings.consecutive_pos⟩
    · have hhigh : settings.threshold ≤ score := not_lt.mp hlow
      have hscores : (highScores settings
          (run.inferences ++ [⟨⟨samples, some score⟩, run.fed.length + 1⟩])).length =
          (highScores settings run.inferences).length + 1 := by
        rw [highScores_high rfl hhigh, List.length_append]
        rfl
      by_cases hfew : (pushed run pcm since).activationStreak + 1 < settings.consecutiveFrames
      · have heq : (pushed run pcm since).inference settings predict =
            ⟨{ pushed run pcm since with
                framesSinceInference := 0, lastScore := some score,
                activationStreak := (pushed run pcm since).activationStreak + 1 },
              some ⟨samples, some score⟩, .ok false⟩ := by
          simp only [Detector.inference, Detector.judge, ← hsamples, hinfer, if_neg hlow,
            if_pos hfew]
        rw [heq]
        refine ⟨rfl, rfl, hinfer.symm, rfl, rfl, rfl, .inl ⟨by simp, h.disarmed, ?_⟩⟩
        rw [hscores, ← hstreak]
        exact ⟨rfl, hfew⟩
      · have heq : (pushed run pcm since).inference settings predict =
            ⟨{ pushed run pcm since with
                framesSinceInference := 0, lastScore := some score,
                activationStreak := (pushed run pcm since).activationStreak + 1,
                disarmed := true },
              some ⟨samples, some score⟩, .ok true⟩ := by
          simp only [Detector.inference, Detector.judge, ← hsamples, hinfer, if_neg hlow,
            if_neg hfew]
        rw [heq]
        refine ⟨rfl, rfl, hinfer.symm, rfl, rfl, rfl, .inr ⟨rfl, rfl, score, rfl, hhigh, ?_⟩⟩
        omega

theorem Tracks.disarmed_of_ne (h : Tracks settings run) (hactive : run.activations ≠ 0) :
    run.activations = 1 ∧ run.detector.disarmed = true := by
  have hone : run.activations = 1 := by
    have hle := h.once
    omega
  exact ⟨hone, h.disarmed hone⟩

/-- A frame of the wrong size. -/
theorem detect_invalid (d : Detector) (hpcm : pcm.length ≠ inputFrameBytes) :
    d.detect settings predict pcm = ⟨d, none, .error .valueError⟩ := if_pos hpcm

theorem detect_disarmed (h : Tracks settings run) (hactive : run.activations ≠ 0)
    (hpcm : pcm.length = inputFrameBytes) :
    run.detector.detect settings predict pcm = ⟨run.detector, none, .ok false⟩ := by
  rw [Detector.detect, if_neg (by simp [hpcm]), if_neg (by simp [h.started]),
    if_pos (h.disarmed_of_ne hactive).2]

/-- The run after an inference. -/
theorem Infers.tracks {a : Detected} {i : Inferred} (h : Infers settings predict run pcm a i)
    (hrun : Tracks settings run) (hactive : run.activations = 0)
    (hpcm : pcm.length = inputFrameBytes) (hfull : windowFrames ≤ (run.fed ++ [pcm]).length) :
    Tracks settings (run.record pcm a) := by
  have hfed : (run.record pcm a).fed = run.fed ++ [pcm] := if_pos hpcm
  have hinferences : (run.record pcm a).inferences =
      run.inferences ++ [⟨i, run.fed.length + 1⟩] := by
    rw [WakeRun.record, h.inferred]
    rfl
  rcases h.outcome with ⟨hresult, hdisarmed, hstreak, hbelow⟩ | ⟨hresult, hdisarmed, _⟩
  · have hcount : (run.record pcm a).activations = 0 := by
      simp [WakeRun.record, hactive, hresult]
    refine ⟨h.started.trans hrun.started, by rw [hcount]; omega, fun _ => ?_, ?_⟩
    · refine ⟨hdisarmed, ?_, ?_, ?_, ?_⟩
      · rw [hfed]
        exact h.frames
      · rw [hinferences]
        exact hstreak
      · rw [hinferences]
        exact hbelow
      · have hlength : (run.fed ++ [pcm]).length = run.fed.length + 1 := by simp
        have hsince : (run.record pcm a).detector.framesSinceInference = 0 := h.since
        unfold Waits
        rw [hinferences, List.getLast?_append, List.getLast?_singleton, Option.some_or, hsince,
          hfed]
        refine ⟨hlength ▸ hfull, hlength, ?_⟩
        rw [gap]
        split_ifs
        · exact Nat.one_pos
        · exact settings.interval_pos
    · intro hone
      rw [hcount] at hone
      cases hone
  · have hcount : (run.record pcm a).activations = 1 := by
      simp [WakeRun.record, hactive, hresult]
    refine ⟨h.started.trans hrun.started, hcount.le, fun hnone => ?_, fun _ => hdisarmed⟩
    rw [hcount] at hnone
    cases hnone

/-- **A call keeps what is known of the detector.** -/
theorem Tracks.detect (h : Tracks settings run) (pcm : List UInt8) :
    Tracks settings (run.record pcm (run.detector.detect settings predict pcm)) := by
  by_cases hpcm : pcm.length = inputFrameBytes
  · by_cases hactive : run.activations = 0
    · have harmed := h.armed hactive
      rcases harmed.detect h.started predict hpcm with
        ⟨_, since, hdetect, hwaits⟩ | ⟨hdue, hfull, since, hdetect⟩
      · rw [hdetect]
        have hcount : (run.record pcm ⟨pushed run pcm since, none, .ok false⟩).activations = 0 := by
          simp [WakeRun.record, hactive]
        have hsame : (run.record pcm ⟨pushed run pcm since, none, .ok false⟩).inferences =
            run.inferences := List.append_nil _
        refine ⟨h.started, by rw [hcount]; omega, fun _ => ?_, ?_⟩
        · refine ⟨harmed.disarmed, ?_, ?_, ?_, hwaits⟩
          · simp [WakeRun.record, pushed, hpcm]
          · rw [hsame]
            exact harmed.streak
          · rw [hsame]
            exact harmed.below
        · intro hone
          rw [hcount] at hone
          cases hone
      · rw [hdetect]
        obtain ⟨i, hinfers⟩ := harmed.inference predict pcm since
        exact hinfers.tracks h hactive hpcm hfull
    · rw [detect_disarmed h hactive hpcm]
      obtain ⟨hone, hdisarmed⟩ := h.disarmed_of_ne hactive
      have hcount : (run.record pcm ⟨run.detector, none, .ok false⟩).activations = 1 := by
        simp [WakeRun.record, hone]
      refine ⟨h.started, hcount.le, fun hnone => ?_, fun _ => hdisarmed⟩
      rw [hcount] at hnone
      cases hnone
  · rw [detect_invalid _ hpcm]
    have hsame : run.record pcm ⟨run.detector, none, .error .valueError⟩ = run := by
      simp [WakeRun.record, hpcm]
    rw [hsame]
    exact h

theorem Tracks.reset (h : Tracks settings run) :
    Tracks settings ⟨run.detector.reset settings, [], [], 0⟩ where
  started := h.started
  once := Nat.zero_le 1
  armed := fun _ => ⟨rfl, rfl, rfl, settings.consecutive_pos,
    ⟨Nat.zero_lt_succ 24, Nat.sub_add_cancel settings.interval_pos⟩⟩
  disarmed := fun hone => by cases hone

/-- **Along every run.** -/
theorem tracks_exec (ops : List WakeOp) : Tracks settings (WakeRun.exec settings predict ops) := by
  have hrun : ∀ run : WakeRun, Tracks settings run →
      Tracks settings (ops.foldl (WakeRun.step settings predict) run) := by
    induction ops with
    | nil => exact fun run hrun => hrun
    | cons op ops ih =>
      intro run hrun
      refine ih _ ?_
      cases op with
      | detect pcm => exact hrun.detect pcm
      | reset => exact hrun.reset
  exact hrun _ tracks_start

end Lemmas

/-- **The schedule of the wake word.**  While no activation has been returned since the last
reset, the first inference is at frame 25, and the next one follows after the interval, or at
the next frame after a high score; it sees the last 25 frames.  `detect` returns `True` exactly
at the inference that completes the successive high scores, and infers nothing more until the
reset. -/
theorem wakeword_schedule (settings : WakeWordSettings) (predict : List ℤ → Option Ieee)
    (ops : List WakeOp) (pcm : List UInt8) (hpcm : pcm.length = inputFrameBytes) :
    Schedule settings predict (WakeRun.exec settings predict ops) pcm
      ((WakeRun.exec settings predict ops).detector.detect settings predict pcm) := by
  have h : Tracks settings (WakeRun.exec settings predict ops) := tracks_exec ops
  generalize WakeRun.exec settings predict ops = run at h ⊢
  by_cases hactive : run.activations = 0
  · have hignores : ∀ a : Detected, run.activations = 1 → a = ⟨run.detector, none, .ok false⟩ := by
      intro a hone
      omega
    rcases (h.armed hactive).detect h.started predict hpcm with
      ⟨hdue, since, hdetect, _⟩ | ⟨hdue, hfull, since, hdetect⟩
    · rw [hdetect]
      refine ⟨h.once, fun _ => iff_of_false (by simp) hdue, fun i hi => ?_, fun i hi => ?_,
        iff_of_false (by simp) ?_, hignores _⟩
      · cases hi
      · cases hi
      · rintro ⟨_, i, _, hi, _⟩
        cases hi
    · rw [hdetect]
      obtain ⟨i, hinfers⟩ := (h.armed hactive).inference predict pcm since
      have honly : ∀ i', ((pushed run pcm since).inference settings predict).inferred = some i' →
          i' = i := fun i' hi' => Option.some.inj (hi'.symm.trans hinfers.inferred)
      refine ⟨h.once, fun _ => iff_of_true ?_ hdue, fun i' hi' => ?_, fun i' hi' => ?_, ?_,
        hignores _⟩
      · rw [hinfers.inferred]
        rfl
      · rw [honly i' hi']
        exact ⟨hfull, hinfers.samples⟩
      · rw [honly i' hi']
        exact hinfers.score
      · rcases hinfers.outcome with ⟨hresult, _, _, hbelow⟩ | ⟨hresult, _, score, hscore, hhigh, hall⟩
        · refine iff_of_false hresult ?_
          rintro ⟨_, i', _, hi', _, _, hall⟩
          rw [honly i' hi'] at hall
          omega
        · exact iff_of_true hresult ⟨hactive, i, score, hinfers.inferred, hscore, hhigh, hall⟩
  · have hone := (h.disarmed_of_ne hactive).1
    rw [detect_disarmed h hactive hpcm]
    refine ⟨h.once, fun hnone => absurd hnone hactive, fun i hi => ?_, fun i hi => ?_,
      iff_of_false (by simp) fun hnone => hactive hnone.1, fun _ => rfl⟩
    · cases hi
    · cases hi

/-- A frame of equal bytes. -/
def constantFrame (byte : UInt8) : List UInt8 := List.replicate inputFrameBytes byte

/-- A model that hears the wake word when its window begins with a sound. -/
def firstSample (samples : List ℤ) : Option Ieee :=
  some (.finite (if samples.head? = some 0 then 0 else 1))

/-- Two high scores in a row activate, and every fifth frame is inferred on. -/
def everyFifth : WakeWordSettings where
  threshold := 1 / 2
  consecutiveFrames := 2
  inferenceIntervalFrames := 5

/-- Silence with a sound in the frames 6 and 7, up to frame 30. -/
def thirtyFrames : List WakeOp :=
  List.replicate 5 (.detect (constantFrame 0)) ++ List.replicate 2 (.detect (constantFrame 1)) ++
    List.replicate 23 (.detect (constantFrame 0))

/-- The detector infers at frame 25 and at frame 30, activates at frame 31 after two high scores,
ignores what follows until the reset, and infers again at frame 25 after it. -/
theorem wakeword_schedule_activation :
    let run := WakeRun.exec everyFifth firstSample thirtyFrames
    let again := WakeRun.exec everyFifth firstSample (thirtyFrames ++
      [.detect (constantFrame 0), .detect (constantFrame 1), .reset] ++
        List.replicate 24 (.detect (constantFrame 0)))
    let silent := constantFrame 0
    (run.inferences.map fun i => (i.frame, i.score)) = [(25, some 0), (30, some 1)] ∧
    (run.detector.detect everyFifth firstSample silent).result = .ok true ∧
    Schedule everyFifth firstSample run silent
      (run.detector.detect everyFifth firstSample silent) ∧
    again.inferences.length = 0 ∧
    (again.detector.detect everyFifth firstSample silent).inferred.isSome ∧
    Schedule everyFifth firstSample again silent
      (again.detector.detect everyFifth firstSample silent) := by
  refine ⟨by decide +kernel, by decide +kernel,
    wakeword_schedule _ _ _ _ List.length_replicate, by decide +kernel, by decide +kernel,
    wakeword_schedule _ _ _ _ List.length_replicate⟩

end SmartDesk.Voice

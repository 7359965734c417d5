import SmartDesk.Voice.Utterance

/-!
# Handing a follow-up over

`VoiceService._wait_for_followup_candidate` waits for a loud chunk, and hands the pre-roll
and a streak of one over to `RmsRecorder.record`, which detects the start of speech as well.

* `waitForCandidate` — the search, read by read.
* `recordFollowup` — the search, and the recording from there.
* `followup_eq_record_iff` — **this is the recording that would have been made without the
  search, if one loud chunk does not start a recording.**
-/

namespace SmartDesk.Voice

namespace RmsRecorder

variable (recorder : RmsRecorder)

/-- `_wait_for_followup_candidate()`, for the deadline and the pre-roll so far: the candidate,
and the rounds that are left for the recording; none if it still waits.  A difference of two
floats has the sign of the exact one. -/
def waitForCandidate (deadline : ℚ) : List AudioChunk → List Poll →
    Option (Option (List AudioChunk × ℕ) × List Poll)
  | _, [] => none
  | preroll, p :: ps =>
      let remaining := deadline - p.now
      if remaining ≤ 0 then some (none, ps)
      else
        match p.chunk with
        | none => some (none, ps)
        | some c =>
            let preroll := recorder.appendPreroll preroll c
            if recorder.above c then some (some (preroll, 1), ps)
            else waitForCandidate deadline preroll ps

/-- What becomes of the search: without a candidate the wait for speech has timed out. -/
def handOver (deadline : ℚ) :
    Option (Option (List AudioChunk × ℕ) × List Poll) → Option RecordingResult
  | none => none
  | some (none, _) => some (none, .speechStartTimeout)
  | some (some (preroll, streak), rest) =>
      (recorder.record deadline preroll streak rest).map Prod.fst

/-- The follow-up branch of `_run`. -/
def recordFollowup (deadline : ℚ) (polls : List Poll) : Option RecordingResult :=
  recorder.handOver deadline (recorder.waitForCandidate deadline [] polls)

variable {recorder}

/-- A candidate leaves the recorder with the variables that it would have had. -/
theorem initial_candidate (l : List AudioChunk) {c : AudioChunk}
    (hpreroll : 1 ≤ recorder.prerollFrames) (hquiet : recorder.loudRun l = [])
    (hloud : recorder.above c = true) :
    recorder.initial ((l ++ [c]).rtake recorder.prerollFrames) 1 =
      .detecting (recorder.detectionOf (l ++ [c])) := by
  have hrun := loudRun_append_loud l hloud
  rw [hquiet, List.nil_append] at hrun
  obtain ⟨m, hm⟩ := Nat.exists_eq_add_of_le' hpreroll
  have htwice : ((l ++ [c]).rtake recorder.prerollFrames).rtake recorder.prerollFrames =
      (l ++ [c]).rtake recorder.prerollFrames := by
    simp only [List.rtake, List.length_drop, List.drop_drop]
    congr 1
    omega
  have hlast : ((l ++ [c]).rtake recorder.prerollFrames).getLast? = some c := by
    rw [hm, List.rtake_concat_succ, List.getLast?_concat]
  rw [initial, htwice, hlast]
  simp only [detectionOf, hrun]
  rfl

/-- What was heard before changes no result. -/
theorem loop_fst {deadline : ℚ} {polls : List Poll} :
    ∀ {s : RecorderState} (heard heard' : List AudioChunk),
      (recorder.loop deadline s heard polls).map Prod.fst =
        (recorder.loop deadline s heard' polls).map Prod.fst := by
  induction polls with
  | nil =>
    intro s heard heard'
    rfl
  | cons poll polls ih =>
    intro s heard heard'
    rw [loop, loop]
    split
    · rfl
    · cases recorder.round s poll.chunk with
      | «continue» s => exact ih _ _
      | «return» result => rfl

/-- The search gives what the recorder would find, from any quiet start. -/
theorem handOver_waitForCandidate (hpreroll : 1 ≤ recorder.prerollFrames)
    (hstart : 2 ≤ recorder.startFrames) {deadline : ℚ} {polls : List Poll} :
    ∀ {l : List AudioChunk}, recorder.loudRun l = [] →
      recorder.handOver deadline
          (recorder.waitForCandidate deadline (l.rtake recorder.prerollFrames) polls) =
        (recorder.loop deadline (.detecting (recorder.detectionOf l)) [] polls).map Prod.fst := by
  induction polls with
  | nil =>
    intro l _
    rfl
  | cons poll polls ih =>
    intro l hquiet
    obtain ⟨now, chunk⟩ := poll
    rw [waitForCandidate, loop]
    dsimp only
    by_cases hnow : deadline ≤ now
    · rw [if_pos (sub_nonpos.mpr hnow), if_pos (by simpa [expired] using hnow)]
      rfl
    · rw [if_neg (mt sub_nonpos.mp hnow), if_neg (by simpa [expired] using hnow)]
      cases chunk with
      | none => rfl
      | some c =>
        have hfew : (recorder.loudRun (l ++ [c])).length < recorder.startFrames := by
          cases hloud : recorder.above c with
          | true =>
            rw [loudRun_append_loud l hloud, hquiet]
            exact hstart
          | false =>
            rw [loudRun_append_quiet l hloud]
            exact lt_of_lt_of_le Nat.zero_lt_two hstart
        rw [round, detect_chunk (le_of_lt hstart), if_pos hfew]
        dsimp only
        rw [appendPreroll, rtake_rtake_append]
        cases hloud : recorder.above c with
        | true =>
          rw [if_pos rfl, handOver, record, initial_candidate l hpreroll hquiet hloud]
          exact loop_fst _ _
        | false =>
          rw [if_neg Bool.false_ne_true, ih (loudRun_append_quiet l hloud)]
          exact loop_fst _ _

/-- One loud chunk, and then none. -/
theorem recordFollowup_one {deadline : ℚ} {c : AudioChunk} (hbefore : c.capturedAt < deadline)
    (hloud : recorder.above c = true) :
    recorder.recordFollowup deadline (pollsOf deadline [c]) =
      some (none, .speechStartTimeout) := by
  have hnow : ¬ deadline - c.capturedAt ≤ 0 := mt sub_nonpos.mp (not_le.mpr hbefore)
  change recorder.handOver deadline
    (recorder.waitForCandidate deadline [] [⟨c.capturedAt, some c⟩, ⟨deadline, none⟩]) = _
  rw [waitForCandidate, if_neg hnow]
  dsimp only
  rw [if_pos hloud, handOver, record, initial, loop, if_pos (by simp [expired])]
  rfl

/-- **The hand-over.**  For accepted settings: every follow-up is recorded as it would have been
without the search, exactly if it takes two loud chunks to start a recording. -/
theorem followup_eq_record_iff (settings : VoiceSettings) :
    (∀ (deadline : ℚ) (polls : List Poll),
      settings.recorder.recordFollowup deadline polls =
        (settings.recorder.record deadline [] 0 polls).map Prod.fst) ↔
      2 ≤ settings.speechStartConsecutiveFrames := by
  have hstart : 1 ≤ settings.recorder.startFrames := settings.startFrames_range.1
  constructor
  · intro hequal
    by_contra hfew
    have hone : settings.recorder.startFrames = 1 :=
      le_antisymm (Nat.le_of_lt_succ (not_le.mp hfew)) hstart
    have htrigger : settings.recorder.Triggered (onset 0 0 0) :=
      triggered_onset settings.threshold_range.1 settings.threshold_range.2 0 0 hone
    have hlive := record_pollsOf hstart htrigger fun c hc => (capturedAt_onset hc).2
    rw [finish_of_one hone settings.minUtterance_range.1 htrigger] at hlive
    have hloud : settings.recorder.above (loudNegative 0 0) = true :=
      above_loudNegative settings.threshold_range.2 0 0
    have hmem : loudNegative 0 0 ∈ onset 0 0 0 := List.mem_singleton_self _
    have hfollowup := recordFollowup_one (capturedAt_onset hmem).2 hloud
    cases hfollowup.symm.trans ((hequal _ _).trans (congrArg (Option.map Prod.fst) hlive))
  · intro htwo deadline polls
    have hnil : ([] : List AudioChunk) = List.rtake [] settings.recorder.prerollFrames :=
      (List.rtake_nil _).symm
    rw [recordFollowup]
    nth_rewrite 1 [hnil]
    exact handOver_waitForCandidate (prerollFrames_pos settings) htwo (List.rtakeWhile_nil _)

/-- The defaults, but for one loud chunk that starts a recording. -/
def oneFrame : VoiceSettings :=
  { VoiceSettings.default with
    speechStartConsecutiveFrames := 1
    startFrames_range := by decide }

/-- A loud chunk, a quiet one and a loud one are an utterance, but no follow-up. -/
theorem followup_lost :
    (oneFrame.recorder.record 8 [] 0 (pollsOf 8 [loud 1 0, quiet 1 1, loud 1 2])).map
        (fun live => (live.1.1.isSome, live.1.2)) = some (true, .maxDuration) ∧
      oneFrame.recorder.recordFollowup 8 (pollsOf 8 [loud 1 0, quiet 1 1, loud 1 2]) =
        some (none, .tooShort) := by
  decide +kernel

end RmsRecorder

end SmartDesk.Voice

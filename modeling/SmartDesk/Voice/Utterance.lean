import SmartDesk.Voice.Recorder

/-!
# Whole utterances

Whether a recording has all that was said.

* `Whole` — what a call of `record` should return for the chunks that it has read.
* `recorder_whole_iff` — **it does, for the settings whose pre-roll holds the frames that start
  a recording and is not longer than a recording.**
-/

namespace SmartDesk.Voice

namespace RmsRecorder

variable {recorder : RmsRecorder}

/-! ## Whole utterances -/

/-- The exact span from the first chunk of the run that started a recording to the end of the
last loud chunk. -/
def voicedSpan (recorder : RmsRecorder) (p heard : List AudioChunk) : ℚ :=
  recorder.lastHigh heard - ((recorder.loudRun p).head?.map (·.capturedAt)).getD 0 +
    inputFrameSeconds

/-- A recording of whole chunks from `before.length` to the end of what was read. -/
structure WholeBlock (recorder : RmsRecorder) (heard : List AudioChunk) (wav : AudioUtterance)
    (p before block : List AudioChunk) : Prop where
  heard_eq : heard = before ++ block
  wav_eq : wav = buildWav (block.map (·.pcm))
  nonempty : 1 ≤ block.length
  short : block.length ≤ recorder.maxFrames
  triggered : recorder.Triggered p
  trigger_heard : p <+: heard
  keeps_run : before.length ≤ p.length - recorder.startFrames
  preroll : p.length - recorder.startFrames ≤ before.length + recorder.prerollFrames

/-- What a call of `record` should return for what it has read. -/
def Whole (recorder : RmsRecorder) (heard : List AudioChunk) : RecordingResult → Prop
  | (some wav, _) => ∃ p before block, recorder.WholeBlock heard wav p before block
  | (none, reason) =>
      reason = .speechStartTimeout ∧ recorder.NoTrigger heard ∨
        reason = .tooShort ∧ ∃ p, recorder.Triggered p ∧ p <+: heard ∧
          recorder.voicedSpan p heard < recorder.minSeconds

/-- A span that is too short for the comparison of floats is too short. -/
theorem lt_of_voiced_lt {start last : ℚ} (horder : start ≤ last) (hmin : recorder.minSeconds ≤ 2)
    (h : (((Ieee.finite last).sub (.finite start)).add (.finite inputFrameSeconds)).add
      (.finite tolerance) < .finite recorder.minSeconds) :
    last - start + inputFrameSeconds < recorder.minSeconds := by
  have hframe : (7 / 100 : ℚ) ≤ inputFrameSeconds := by decide +kernel
  have htolerance : (1 / 10 ^ 10 : ℚ) ≤ tolerance := by decide +kernel
  have hinf : ∀ q, ¬ Ieee.inf false < .finite q := fun _ h => Bool.false_ne_true h
  rw [show (Ieee.finite last).sub (.finite start) = Ieee.float64 (last + -start) from rfl,
    ← sub_eq_add_neg] at h
  rcases Ieee.float64_close (sub_nonneg.mpr horder) with ⟨hspan, -⟩ | ⟨a, hspan, hlow, -⟩
  · rw [hspan] at h
    exact absurd h (hinf _)
  · rw [hspan, show (Ieee.finite a).add (.finite inputFrameSeconds) =
      Ieee.float64 (a + inputFrameSeconds) from rfl] at h
    have ha : 0 ≤ a + inputFrameSeconds := by linarith
    rcases Ieee.float64_close ha with ⟨hvoiced, -⟩ | ⟨b, hvoiced, hvoicedLow, -⟩
    · rw [hvoiced] at h
      exact absurd h (hinf _)
    · rw [hvoiced, show (Ieee.finite b).add (.finite tolerance) =
        Ieee.float64 (b + tolerance) from rfl] at h
      have hb : 0 ≤ b + tolerance := by linarith
      rcases Ieee.float64_close hb with ⟨hsum, -⟩ | ⟨c, hsum, hsumLow, -⟩
      · rw [hsum] at h
        exact absurd h (hinf _)
      · rw [hsum, Ieee.finite_lt_finite] at h
        linarith

/-- One frame is too short. -/
theorem voiced_lt_of_eq (t : ℚ) (hmin : Ieee.double (16 / 100) ≤ recorder.minSeconds) :
    (((Ieee.finite t).sub (.finite t)).add (.finite inputFrameSeconds)).add (.finite tolerance) <
      .finite recorder.minSeconds := by
  have hzero : (Ieee.finite t).sub (.finite t) = .finite 0 := by
    change Ieee.float64 (t + -t) = _
    rw [add_neg_cancel]
    rfl
  have hsum : ((Ieee.finite 0).add (.finite inputFrameSeconds)).add (.finite tolerance) =
      .finite (Ieee.double (inputFrameSeconds + tolerance)) := by
    decide +kernel
  have hlt : Ieee.double (inputFrameSeconds + tolerance) < Ieee.double (16 / 100) := by
    decide +kernel
  rw [hzero, hsum, Ieee.finite_lt_finite]
  exact lt_of_lt_of_le hlt hmin

/-- No loud chunk is later than the last one. -/
theorem le_lastHigh {l : List AudioChunk}
    (hincreasing : l.Pairwise fun a b => a.capturedAt < b.capturedAt) {c : AudioChunk}
    (hc : c ∈ l) (hloud : recorder.above c = true) : c.capturedAt ≤ recorder.lastHigh l := by
  have hmem : c ∈ l.filter recorder.above := List.mem_filter.mpr ⟨hc, hloud⟩
  have hsorted := hincreasing.filter recorder.above
  unfold lastHigh
  rcases (l.filter recorder.above).eq_nil_or_concat' with hnil | ⟨others, last, hconcat⟩
  · rw [hnil] at hmem
    exact absurd hmem List.not_mem_nil
  · rw [hconcat] at hmem hsorted ⊢
    rw [List.getLast?_concat]
    rcases List.mem_append.mp hmem with hothers | hlast
    · exact ((List.pairwise_append.mp hsorted).2.2 c hothers last (List.mem_singleton_self _)).le
    · rw [List.mem_singleton.mp hlast]
      exact le_rfl

/-- The run that starts a recording, from its first chunk. -/
theorem Triggered.run_eq (hstart : 1 ≤ recorder.startFrames) {p : List AudioChunk}
    (h : recorder.Triggered p) : ∃ first others, recorder.loudRun p = first :: others ∧
      first ∈ p ∧ recorder.above first = true := by
  have hne : recorder.loudRun p ≠ [] := by
    intro hnil
    have hloud := h.loud
    rw [hnil] at hloud
    exact absurd (le_trans hstart hloud) (by simp)
  obtain ⟨first, others, hrun⟩ := List.exists_cons_of_ne_nil hne
  have hmem : first ∈ recorder.loudRun p := hrun ▸ List.mem_cons_self
  exact ⟨first, others, hrun, (List.rtakeWhile_suffix _ p).subset hmem,
    List.mem_rtakeWhile_imp hmem⟩

/-- If one chunk starts a recording, the run is that chunk. -/
theorem Triggered.lastHigh_eq (hone : recorder.startFrames = 1) {p : List AudioChunk}
    (h : recorder.Triggered p) {first : AudioChunk} {others : List AudioChunk}
    (hrun : recorder.loudRun p = first :: others) : recorder.lastHigh p = first.capturedAt := by
  have hlength := h.length_loudRun
  rw [hrun, hone, List.length_cons] at hlength
  obtain rfl : others = [] := List.eq_nil_of_length_eq_zero (by omega)
  have hloud : recorder.above first = true :=
    List.mem_rtakeWhile_imp (hrun ▸ List.mem_singleton_self first)
  obtain ⟨q, hq⟩ := List.rtakeWhile_suffix recorder.above p
  rw [show p.rtakeWhile recorder.above = [first] from hrun] at hq
  exact hq ▸ lastHigh_append_loud q hloud

/-- A recording starts with its run, unless that started at the zero of the clock. -/
theorem Triggered.speechStart_eq {p : List AudioChunk} (h : recorder.Triggered p)
    {first : AudioChunk} {others : List AudioChunk} (hrun : recorder.loudRun p = first :: others)
    (hzero : 0 < first.capturedAt ∨ recorder.startFrames = 1) :
    recorder.speechStart p = first.capturedAt := by
  rw [speechStart, hrun]
  rcases hzero with hpositive | hone
  · exact if_neg hpositive.ne'
  · rw [h.lastHigh_eq hone hrun]
    exact ite_self _

/-- A recording within the length that is kept is whole. -/
theorem whole_of_short (hstart : 1 ≤ recorder.startFrames)
    (hpreroll : recorder.startFrames ≤ recorder.prerollFrames) (hmin : recorder.minSeconds ≤ 2)
    {p rest : List AudioChunk} (hp : recorder.Triggered p)
    (hincreasing : (p ++ rest).Pairwise fun a b => a.capturedAt < b.capturedAt)
    (hzero : ∀ c ∈ p ++ rest, 0 < c.capturedAt ∨ recorder.startFrames = 1)
    (hshort : (recorder.kept p rest).length ≤ recorder.maxFrames) (reason : RecordingEnd) :
    recorder.Whole (p ++ rest) (recorder.finish ((recorder.kept p rest).map (·.pcm))
      (recorder.speechStart p) (recorder.lastHigh (p ++ rest)) reason) := by
  obtain ⟨first, others, hrun, hfirst, hloud⟩ := hp.run_eq hstart
  have hmem : first ∈ p ++ rest := List.mem_append_left rest hfirst
  have hspeech := hp.speechStart_eq hrun (hzero first hmem)
  have hlength : recorder.startFrames ≤ p.length := by
    have hle := (List.rtakeWhile_suffix recorder.above p).length_le
    have hloudLength := hp.loud
    rw [loudRun] at hloudLength
    omega
  unfold finish
  rw [hspeech]
  dsimp only
  split
  · next hlt =>
    refine .inr ⟨rfl, p, hp, List.prefix_append p rest, ?_⟩
    rw [voicedSpan, hrun]
    exact lt_of_voiced_lt (le_lastHigh hincreasing hmem hloud) hmin hlt
  · have hkept : (recorder.kept p rest).length =
        min recorder.prerollFrames p.length + rest.length := by
      simp [kept, List.rtake, Nat.sub_sub_eq_min, Nat.min_comm]
    refine ⟨p, p.take (p.length - recorder.prerollFrames), recorder.kept p rest, ?_⟩
    constructor
    · simp [kept, List.rtake, ← List.append_assoc]
    · rw [List.take_of_length_le (by rwa [List.length_map])]
    · omega
    · exact hshort
    · exact hp
    · exact List.prefix_append p rest
    · rw [List.length_take]
      omega
    · rw [List.length_take]
      omega

/-- A recording that one chunk has started, and that ends with it, is too short. -/
theorem finish_of_one (hone : recorder.startFrames = 1)
    (hmin : Ieee.double (16 / 100) ≤ recorder.minSeconds) {p : List AudioChunk}
    (hp : recorder.Triggered p) (frames : List (List UInt8)) (reason : RecordingEnd) :
    recorder.finish frames (recorder.speechStart p) (recorder.lastHigh p) reason =
      (none, .tooShort) := by
  obtain ⟨first, others, hrun, -, -⟩ := hp.run_eq hone.ge
  rw [finish, hp.speechStart_eq hrun (.inr hone), hp.lastHigh_eq hone hrun]
  exact if_pos (voiced_lt_of_eq first.capturedAt hmin)

theorem whole_of_one (hone : recorder.startFrames = 1)
    (hmin : Ieee.double (16 / 100) ≤ recorder.minSeconds) (hmax : recorder.minSeconds ≤ 2)
    {p : List AudioChunk} (hp : recorder.Triggered p) :
    recorder.Whole p (none, .tooShort) := by
  obtain ⟨first, others, hrun, -, -⟩ := hp.run_eq hone.ge
  refine .inr ⟨rfl, p, hp, List.prefix_rfl, ?_⟩
  rw [voicedSpan, hp.lastHigh_eq hone hrun, hrun]
  exact lt_of_voiced_lt le_rfl hmax (voiced_lt_of_eq first.capturedAt hmin)

/-- **The settings under which every utterance is whole.** -/
def KeepsWhole (recorder : RmsRecorder) : Prop :=
  recorder.startFrames ≤ recorder.prerollFrames ∧
    (recorder.prerollFrames ≤ recorder.maxFrames ∨ recorder.startFrames = 1)

/-- The chunks come in the order of their times, from `start` on. -/
structure Stream (start : ℚ) (chunks : List AudioChunk) : Prop where
  increasing : chunks.Pairwise fun a b => a.capturedAt < b.capturedAt
  from_start : ∀ c ∈ chunks, start ≤ c.capturedAt

theorem Stream.mono {start : ℚ} {chunks l : List AudioChunk} (h : Stream start chunks)
    (hl : l <+: chunks) : Stream start l where
  increasing := h.increasing.sublist hl.sublist
  from_start := fun c hc => h.from_start c (hl.subset hc)

theorem Stream.of_le {start earlier : ℚ} {chunks : List AudioChunk} (h : Stream start chunks)
    (hle : earlier ≤ start) : Stream earlier chunks where
  increasing := h.increasing
  from_start := fun c hc => hle.trans (h.from_start c hc)

theorem whole_of_ends {start : ℚ} (hzero : 0 < start ∨ recorder.startFrames = 1)
    (hstart : 1 ≤ recorder.startFrames) (hkeeps : recorder.KeepsWhole)
    (hmin : Ieee.double (16 / 100) ≤ recorder.minSeconds) (hmax : recorder.minSeconds ≤ 2)
    {heard : List AudioChunk} (hheard : Stream start heard) {result : RecordingResult}
    (h : recorder.Ends heard result) : recorder.Whole heard result := by
  cases h with
  | timeout heard hno => exact .inl ⟨rfl, hno⟩
  | finished p rest reason hp hrest =>
    by_cases hshort : (recorder.kept p rest).length ≤ recorder.maxFrames
    · exact whole_of_short hstart hkeeps.1 hmax hp hheard.increasing
        (fun c hc => hzero.imp_left fun hpositive => hpositive.trans_le (hheard.from_start c hc))
        hshort reason
    · obtain rfl := hrest.resolve_right hshort
      have hkept : (recorder.kept p []).length ≤ recorder.prerollFrames := by
        simp only [kept, List.rtake, List.append_nil, List.length_drop]
        omega
      have hone := hkeeps.2.resolve_left (by omega)
      rw [List.append_nil, finish_of_one hone hmin hp]
      exact whole_of_one hone hmin hmax hp

/-! ## Streams that are cut -/

/-- A frame of equal samples, of two bytes each. -/
def frameOf (low high : UInt8) (start n : ℕ) : AudioChunk where
  pcm := (List.replicate inputFrameSamples [low, high]).flatten
  capturedAt := 2 * (start + n)
  length_pcm := by simp [inputFrameBytes]
  captured_nonneg := by positivity

/-- Silence, the loudest sample, and its negative. -/
def quiet (start n : ℕ) : AudioChunk := frameOf 0x00 0x00 start n

def loud (start n : ℕ) : AudioChunk := frameOf 0xff 0x7f start n

def loudNegative (start n : ℕ) : AudioChunk := frameOf 0x01 0x80 start n

/-- Silence, then just as many loud frames as start a recording. -/
def onset (start quietFrames loudFrames : ℕ) : List AudioChunk :=
  (List.range quietFrames).map (quiet start) ++
    ((List.range' quietFrames loudFrames).map (loud start) ++
      [loudNegative start (quietFrames + loudFrames)])

/-- Each chunk is there when it is waited for; after the last one, the wait ends. -/
def pollsOf (deadline : ℚ) (chunks : List AudioChunk) : List Poll :=
  chunks.map (fun c => ⟨c.capturedAt, some c⟩) ++ [⟨deadline, none⟩]

theorem chunksOf_pollsOf (deadline : ℚ) (chunks : List AudioChunk) :
    chunksOf (pollsOf deadline chunks) = chunks := by
  simp [chunksOf, pollsOf, List.filterMap_append, List.filterMap_map]

theorem length_onset (start a n : ℕ) : (onset start a n).length = a + n + 1 := by
  simp [onset, Nat.add_assoc]

theorem map_capturedAt_onset (start a n : ℕ) : (onset start a n).map (·.capturedAt) =
    (List.range (a + n + 1)).map fun i : ℕ => 2 * ((start : ℚ) + i) := by
  have hrange : List.range (a + n + 1) = List.range a ++ (List.range' a n ++ [a + n]) := by
    have hsplit : List.range' 0 a ++ List.range' (0 + a) n = List.range' 0 (a + n) :=
      List.range'_append_1
    rw [List.range_succ, List.range_eq_range', List.range_eq_range', ← hsplit, Nat.zero_add,
      List.append_assoc]
  rw [hrange]
  simp [onset, quiet, loud, loudNegative, frameOf, Function.comp_def]

/-- An onset takes two seconds a frame. -/
theorem capturedAt_onset {start a n : ℕ} {c : AudioChunk} (hc : c ∈ onset start a n) :
    (start : ℚ) ≤ c.capturedAt ∧ c.capturedAt < 2 * ((start : ℚ) + (a + n + 1 : ℕ)) := by
  have hmem := List.mem_map_of_mem (f := fun c : AudioChunk => c.capturedAt) hc
  rw [map_capturedAt_onset] at hmem
  obtain ⟨i, hi, hcapture⟩ := List.mem_map.mp hmem
  have hlt : (i : ℚ) < (a + n + 1 : ℕ) := by exact_mod_cast List.mem_range.mp hi
  have hstart : (0 : ℚ) ≤ start := Nat.cast_nonneg start
  have hnonneg : (0 : ℚ) ≤ i := Nat.cast_nonneg i
  rw [← hcapture]
  constructor <;> linarith

theorem stream_onset (start a n : ℕ) : Stream start (onset start a n) where
  increasing := by
    have hsorted : ((onset start a n).map (·.capturedAt)).Pairwise (· < ·) := by
      rw [map_capturedAt_onset, List.pairwise_map]
      refine List.pairwise_lt_range.imp fun hlt => ?_
      gcongr
    exact List.pairwise_map.mp hsorted
  from_start := fun c hc => (capturedAt_onset hc).1

theorem above_quiet (hthreshold : 0 < recorder.rmsThreshold) (start n : ℕ) :
    recorder.above (quiet start n) = false := by
  have hrms : calculateRms (quiet 0 0).pcm = 0 := by decide +kernel
  exact decide_eq_false (not_le.mpr (lt_of_eq_of_lt hrms hthreshold))

theorem above_loud (hthreshold : recorder.rmsThreshold ≤ 32767) (start n : ℕ) :
    recorder.above (loud start n) = true := by
  have hrms : calculateRms (loud 0 0).pcm = 32767 := by decide +kernel
  exact decide_eq_true (le_of_le_of_eq hthreshold hrms.symm)

theorem above_loudNegative (hthreshold : recorder.rmsThreshold ≤ 32767) (start n : ℕ) :
    recorder.above (loudNegative start n) = true := by
  have hrms : calculateRms (loudNegative 0 0).pcm = 32767 := by decide +kernel
  exact decide_eq_true (le_of_le_of_eq hthreshold hrms.symm)

theorem loudRun_append (q : List AudioChunk) {r : List AudioChunk}
    (hr : ∀ c ∈ r, recorder.above c = true) :
    recorder.loudRun (q ++ r) = recorder.loudRun q ++ r := by
  induction r using List.reverseRecOn with
  | nil => rw [List.append_nil, List.append_nil]
  | append_singleton r c ih =>
    rw [← List.append_assoc, loudRun_append_loud _ (hr c (by simp)),
      ih fun d hd => hr d (List.mem_append_left _ hd), List.append_assoc]

/-- No run is longer than there are loud chunks. -/
theorem length_loudRun_le (l : List AudioChunk) :
    (recorder.loudRun l).length ≤ (l.filter recorder.above).length := by
  have hrun : (recorder.loudRun l).filter recorder.above = recorder.loudRun l :=
    List.filter_eq_self.mpr fun _ hc => List.mem_rtakeWhile_imp hc
  rw [← hrun]
  exact ((List.rtakeWhile_suffix recorder.above l).sublist.filter recorder.above).length_le

/-- The run of an onset. -/
theorem loudRun_onset (hlow : 0 < recorder.rmsThreshold) (hhigh : recorder.rmsThreshold ≤ 32767)
    (start a n : ℕ) : recorder.loudRun (onset start a n) =
      (List.range' a n).map (loud start) ++ [loudNegative start (a + n)] := by
  rw [onset, loudRun_append]
  · have hquiet : recorder.loudRun ((List.range a).map (quiet start)) = [] := by
      rw [loudRun, List.rtakeWhile_eq_nil_iff]
      intro hne
      obtain ⟨i, -, hi⟩ := List.mem_map.mp (List.getLast_mem hne)
      rw [← hi, above_quiet hlow start i]
      exact Bool.false_ne_true
    rw [hquiet, List.nil_append]
  · intro c hc
    rcases List.mem_append.mp hc with hc | hc
    · obtain ⟨i, -, rfl⟩ := List.mem_map.mp hc
      exact above_loud hhigh start i
    · rw [List.mem_singleton.mp hc]
      exact above_loudNegative hhigh start _

/-- Only the whole onset starts a recording. -/
theorem triggered_onset (hlow : 0 < recorder.rmsThreshold)
    (hhigh : recorder.rmsThreshold ≤ 32767) (start a : ℕ) {n : ℕ} (hn : recorder.startFrames = n + 1) :
    recorder.Triggered (onset start a n) where
  loud := by simp [loudRun_onset hlow hhigh, hn]
  first := by
    intro q hq hne
    rw [onset, ← List.append_assoc] at hq hne
    have hinit := (List.prefix_concat_iff.mp hq).resolve_left hne
    have hcount := (hinit.sublist.filter recorder.above).length_le
    have hquiet : ((List.range a).map (quiet start)).filter recorder.above = [] := by
      rw [List.filter_eq_nil_iff]
      intro c hc
      obtain ⟨i, -, rfl⟩ := List.mem_map.mp hc
      simp [above_quiet hlow start i]
    have hloud := List.length_filter_le recorder.above ((List.range' a n).map (loud start))
    rw [List.filter_append, hquiet, List.nil_append] at hcount
    rw [List.length_map, List.length_range'] at hloud
    have hrun : (recorder.loudRun q).length ≤ _ := length_loudRun_le q
    omega

/-- Chunks that start no recording are waited out. -/
theorem loop_waits (hstart : 1 ≤ recorder.startFrames) {deadline : ℚ} (polls : List Poll)
    {q : List AudioChunk} : ∀ {l : List AudioChunk}, recorder.NoTrigger (l ++ q) →
      (∀ c ∈ q, c.capturedAt < deadline) →
      recorder.loop deadline (.detecting (recorder.detectionOf l)) l
          (q.map (fun c => ⟨c.capturedAt, some c⟩) ++ polls) =
        recorder.loop deadline (.detecting (recorder.detectionOf (l ++ q))) (l ++ q) polls := by
  induction q with
  | nil =>
    intro l _ _
    rw [List.append_nil]
    rfl
  | cons c q ih =>
    intro l hno hbefore
    have hnow : ¬ deadline ≤ c.capturedAt := not_le.mpr (hbefore c List.mem_cons_self)
    have hfew : (recorder.loudRun (l ++ [c])).length < recorder.startFrames :=
      hno _ ((List.prefix_append_right_inj l).mpr (by simp))
    rw [List.append_cons] at hno ⊢
    rw [← ih hno fun d hd => hbefore d (List.mem_cons_of_mem c hd)]
    change recorder.loop deadline _ l (⟨c.capturedAt, some c⟩ :: _) = _
    rw [loop, if_neg (by simpa [expired] using hnow), round, detect_chunk hstart, if_pos hfew]
    rfl

/-- A stream that starts a recording, and then ends. -/
theorem record_pollsOf (hstart : 1 ≤ recorder.startFrames) {deadline : ℚ} {p : List AudioChunk}
    (hp : recorder.Triggered p) (hbefore : ∀ c ∈ p, c.capturedAt < deadline) :
    recorder.record deadline [] 0 (pollsOf deadline p) =
      some (recorder.finish ((recorder.kept p []).map (·.pcm)) (recorder.speechStart p)
        (recorder.lastHigh p) .maxDuration, p) := by
  obtain ⟨first, -, -, hfirst, -⟩ := hp.run_eq hstart
  obtain ⟨q, c, rfl⟩ := (p.eq_nil_or_concat').resolve_left (List.ne_nil_of_mem hfirst)
  have hno : recorder.NoTrigger ([] ++ q) := by
    intro r hr
    refine hp.first r (hr.trans (List.prefix_append q [c])) ?_
    intro heq
    have hle := hr.length_le
    rw [heq] at hle
    simp at hle
  have hnow : ¬ deadline ≤ c.capturedAt := not_le.mpr (hbefore c (by simp))
  have hinitial : recorder.initial [] 0 = .detecting (recorder.detectionOf []) := rfl
  rw [record, hinitial, pollsOf, List.map_append, List.append_assoc,
    loop_waits hstart _ hno fun d hd => hbefore d (List.mem_append_left _ hd), List.nil_append]
  change recorder.loop deadline _ q (⟨c.capturedAt, some c⟩ :: _) = _
  rw [loop, if_neg (by simpa [expired] using hnow), round, detect_chunk hstart,
    if_neg (not_lt.mpr hp.loud)]
  by_cases hfull : recorder.maxFrames ≤ (recorder.kept (q ++ [c]) []).length
  · rw [if_pos hfull]
    rfl
  · rw [if_neg hfull]
    change recorder.loop deadline _ (q ++ [c]) [⟨_, none⟩] = _
    rw [loop, if_neg (by simp [expired]), round]
    simp [extend, recordingOf]

/-- Two files of whole frames with the same bytes have the same frames. -/
theorem buildWav_inj {xs ys : List AudioChunk}
    (h : buildWav (xs.map (·.pcm)) = buildWav (ys.map (·.pcm))) :
    xs.map (·.pcm) = ys.map (·.pcm) := by
  have hpcm : (xs.map (·.pcm)).flatten = (ys.map (·.pcm)).flatten := congrArg AudioUtterance.pcm h
  have hlengths : ∀ l : List AudioChunk,
      (l.map (·.pcm)).map List.length = List.replicate l.length inputFrameBytes := by
    intro l
    rw [List.map_map, ← List.map_const']
    exact List.map_congr_left fun c _ => c.length_pcm
  have hcount := congrArg List.length hpcm
  rw [List.length_flatten, List.length_flatten, hlengths, hlengths, List.sum_replicate,
    List.sum_replicate] at hcount
  have hlength : xs.length = ys.length := by
    simpa [inputFrameBytes, inputFrameSamples] using hcount
  rw [List.eq_iff_flatten_eq, hlengths, hlengths, hlength]
  exact ⟨hpcm, rfl⟩

/-- No other part of what was read starts a recording. -/
theorem Triggered.unique {p q : List AudioChunk} (hp : recorder.Triggered p)
    (hq : recorder.Triggered q) (h : q <+: p) : q = p := by
  by_contra hne
  exact absurd (hp.first q h hne) (not_lt.mpr hq.loud)

theorem lastHigh_onset (hhigh : recorder.rmsThreshold ≤ 32767) (start a n : ℕ) :
    recorder.lastHigh (onset start a n) = 2 * ((start : ℚ) + (a + n : ℕ)) := by
  rw [onset, ← List.append_assoc, lastHigh_append_loud _ (above_loudNegative hhigh start _)]
  rfl

theorem head_loudRun_onset (hlow : 0 < recorder.rmsThreshold)
    (hhigh : recorder.rmsThreshold ≤ 32767) (start a n : ℕ) :
    (recorder.loudRun (onset start a (n + 1))).head?.map (·.capturedAt) =
      some (2 * ((start : ℚ) + a)) := by
  rw [loudRun_onset hlow hhigh]
  rfl

/-- The recording of an onset is long enough. -/
theorem finish_onset (hlow : 0 < recorder.rmsThreshold) (hhigh : recorder.rmsThreshold ≤ 32767)
    (hmin : recorder.minSeconds ≤ 2) (start a n : ℕ) (frames : List (List UInt8))
    (reason : RecordingEnd) :
    recorder.finish frames (recorder.speechStart (onset (start + 1) a (n + 1)))
        (recorder.lastHigh (onset (start + 1) a (n + 1))) reason =
      (some (buildWav (frames.take recorder.maxFrames)), reason) := by
  have hspeech : recorder.speechStart (onset (start + 1) a (n + 1)) =
      2 * (((start + 1 : ℕ) : ℚ) + a) := by
    rw [speechStart, head_loudRun_onset hlow hhigh]
    exact if_neg (by positivity)
  have hframe : (0 : ℚ) ≤ inputFrameSeconds := by decide +kernel
  have hn : (0 : ℚ) ≤ n := Nat.cast_nonneg n
  rw [lastHigh_onset hhigh, hspeech]
  refine if_neg fun hlt => ?_
  have hspan := lt_of_voiced_lt (by push_cast; linarith) hmin hlt
  push_cast at hspan
  linarith

/-- A run that starts at the zero of the clock is thrown away, however long it is. -/
theorem not_whole_zero (hlow : 0 < recorder.rmsThreshold) (hhigh : recorder.rmsThreshold ≤ 32767)
    (hmin : Ieee.double (16 / 100) ≤ recorder.minSeconds) (hmax : recorder.minSeconds ≤ 2) {n : ℕ}
    (hn : recorder.startFrames = n + 2) (frames : List (List UInt8)) (reason : RecordingEnd) :
    ¬ recorder.Whole (onset 0 0 (n + 1))
      (recorder.finish frames (recorder.speechStart (onset 0 0 (n + 1)))
        (recorder.lastHigh (onset 0 0 (n + 1))) reason) := by
  have hspeech : recorder.speechStart (onset 0 0 (n + 1)) =
      recorder.lastHigh (onset 0 0 (n + 1)) := by
    rw [speechStart, head_loudRun_onset hlow hhigh]
    exact if_pos (by norm_num)
  rw [finish, hspeech, if_pos (voiced_lt_of_eq _ hmin)]
  rintro (⟨hreason, -⟩ | ⟨-, p, hp, hpart, hspan⟩)
  · cases hreason
  · obtain rfl := (triggered_onset hlow hhigh 0 0 hn).unique hp hpart
    have hframe : (0 : ℚ) ≤ inputFrameSeconds := by decide +kernel
    have hnonneg : (0 : ℚ) ≤ n := Nat.cast_nonneg n
    rw [voicedSpan, head_loudRun_onset hlow hhigh, lastHigh_onset hhigh, Option.getD_some] at hspan
    push_cast at hspan
    linarith

/-- The last frame of an onset differs from all that come before it. -/
theorem pcm_ne_last {start a n : ℕ} {c : AudioChunk}
    (hc : c ∈ (List.range a).map (quiet start) ++ (List.range' a n).map (loud start)) (k : ℕ) :
    c.pcm ≠ (loudNegative start k).pcm := by
  rcases List.mem_append.mp hc with hc | hc
  · obtain ⟨i, -, rfl⟩ := List.mem_map.mp hc
    have hne : (quiet 0 0).pcm ≠ (loudNegative 0 0).pcm := by decide
    exact hne
  · obtain ⟨i, -, rfl⟩ := List.mem_map.mp hc
    have hne : (loud 0 0).pcm ≠ (loudNegative 0 0).pcm := by decide
    exact hne

/-- **The cut recording.**  Where the settings do not keep utterances whole, this stream is
recorded without its start or without its end. -/
theorem not_whole_onset (hlow : 0 < recorder.rmsThreshold) (hhigh : recorder.rmsThreshold ≤ 32767)
    (hmin : recorder.minSeconds ≤ 2) {n : ℕ} (hn : recorder.startFrames = n + 2)
    (hcut : recorder.prerollFrames < recorder.startFrames ∨
      recorder.maxFrames < recorder.prerollFrames)
    (start : ℕ) {p : List AudioChunk}
    (hp : p = onset (start + 1) (recorder.prerollFrames - recorder.startFrames) (n + 1)) :
    ¬ recorder.Whole p
      (recorder.finish ((recorder.kept p []).map (·.pcm)) (recorder.speechStart p)
        (recorder.lastHigh p) .maxDuration) := by
  have htrigger :=
    triggered_onset hlow hhigh (start + 1) (recorder.prerollFrames - recorder.startFrames) hn
  have hlength := length_onset (start + 1) (recorder.prerollFrames - recorder.startFrames) (n + 1)
  rw [← hp] at htrigger hlength
  have hfinish : recorder.finish ((recorder.kept p []).map (·.pcm)) (recorder.speechStart p)
      (recorder.lastHigh p) .maxDuration =
        (some (buildWav (((recorder.kept p []).take recorder.maxFrames).map (·.pcm))),
          .maxDuration) := by
    rw [List.map_take, hp]
    exact finish_onset hlow hhigh hmin start _ n _ _
  rw [hfinish]
  rintro ⟨q, before, block, hwhole⟩
  obtain rfl := htrigger.unique hwhole.triggered hwhole.trigger_heard
  have hpcm := buildWav_inj hwhole.wav_eq
  have hkept : recorder.kept q [] = q.drop (q.length - recorder.prerollFrames) :=
    List.append_nil _
  have hblock := congrArg List.length hpcm
  have hheard := congrArg List.length hwhole.heard_eq
  rw [hkept, List.length_map, List.length_map, List.length_take, List.length_drop] at hblock
  rw [List.length_append] at hheard
  have hkeeps := hwhole.keeps_run
  have hnonempty := hwhole.nonempty
  rcases lt_or_ge recorder.prerollFrames recorder.startFrames with hfew | hmany
  · omega
  · have hfull := hcut.resolve_left (not_lt.mpr hmany)
    rw [hkept, show q.length - recorder.prerollFrames = 0 by omega, List.drop_zero] at hpcm
    set init := (List.range (recorder.prerollFrames - recorder.startFrames)).map (quiet (start + 1)) ++
      (List.range' (recorder.prerollFrames - recorder.startFrames) (n + 1)).map (loud (start + 1))
    set last := loudNegative (start + 1) (recorder.prerollFrames - recorder.startFrames + (n + 1))
    have hq : q = init ++ [last] := by rw [hp, onset, ← List.append_assoc]
    have hlastBlock : last ∈ block := by
      have hsuffix : block <:+ init ++ [last] := ⟨before, hq ▸ hwhole.heard_eq.symm⟩
      rcases List.suffix_concat_iff.mp hsuffix with hnil | ⟨t, rfl, -⟩
      · rw [hnil] at hnonempty
        exact absurd hnonempty (by simp)
      · simp
    have hlastTake : last.pcm ∈ (q.take recorder.maxFrames).map (·.pcm) :=
      hpcm ▸ List.mem_map_of_mem hlastBlock
    obtain ⟨c, hc, heq⟩ := List.mem_map.mp hlastTake
    have hshort : recorder.maxFrames ≤ init.length := by
      have hle := congrArg List.length hq
      rw [List.length_append, List.length_singleton] at hle
      omega
    rw [hq, List.take_append_of_le_length hshort] at hc
    exact pcm_ne_last (List.mem_of_mem_take hc) _ heq

/-- A pre-roll holds a frame. -/
theorem prerollFrames_pos (settings : VoiceSettings) : 1 ≤ settings.recorder.prerollFrames := by
  have hframe : Ieee.double (8 / 100) = inputFrameSeconds := by decide +kernel
  have hsmall : (7 / 100 : ℚ) ≤ inputFrameSeconds := by decide +kernel
  have hrange := settings.preroll_range
  rw [hframe] at hrange
  have hlow : 1 ≤ settings.followupPrerollSeconds / inputFrameSeconds :=
    (one_le_div (by linarith)).mpr hrange.1
  have hhigh : settings.followupPrerollSeconds / inputFrameSeconds ≤ 15 := by
    rw [div_le_iff₀ (by linarith)]
    linarith [hrange.2]
  have hclose := (Ieee.double_close (by linarith) (by linarith)).1
  exact Nat.ceil_pos.mpr (by linarith)

/-- **Whole utterances.**  For accepted settings, and a clock that is at `start` or later:
every recording of a stream is whole exactly if the pre-roll holds the frames that start a
recording and is not longer than a recording, and no chunk has the time zero.  (If one frame
starts a recording, the latter two do not matter.) -/
theorem recorder_whole_iff (settings : VoiceSettings) (start : ℚ) :
    (∀ (deadline : ℚ) (polls : List Poll) (result : RecordingResult) (heard : List AudioChunk),
      Stream start (chunksOf polls) →
      settings.recorder.record deadline [] 0 polls = some (result, heard) →
      settings.recorder.Whole heard result) ↔
    settings.recorder.KeepsWhole ∧ (0 < start ∨ settings.recorder.startFrames = 1) := by
  have hstart : 1 ≤ settings.recorder.startFrames := settings.startFrames_range.1
  have hmin := settings.minUtterance_range.1
  have hmax : settings.recorder.minSeconds ≤ 2 := settings.minUtterance_range.2
  have hlow := settings.threshold_range.1
  have hhigh := settings.threshold_range.2
  constructor
  · intro hwhole
    by_contra hcut
    have hpreroll := prerollFrames_pos settings
    obtain ⟨n, hn⟩ : ∃ n, settings.recorder.startFrames = n + 2 := by
      refine ⟨settings.recorder.startFrames - 2, ?_⟩
      rw [KeepsWhole] at hcut
      omega
    by_cases hkeeps : settings.recorder.KeepsWhole
    · have hzero : start ≤ 0 := not_lt.mp fun hpositive => hcut ⟨hkeeps, .inl hpositive⟩
      have hrecord := record_pollsOf hstart (triggered_onset hlow hhigh 0 0 hn)
        fun c hc => (capturedAt_onset hc).2
      refine not_whole_zero hlow hhigh hmin hmax hn _ _ (hwhole _ _ _ _ ?_ hrecord)
      rw [chunksOf_pollsOf]
      exact (stream_onset 0 0 (n + 1)).of_le (by exact_mod_cast hzero)
    · have hcut' : settings.recorder.prerollFrames < settings.recorder.startFrames ∨
          settings.recorder.maxFrames < settings.recorder.prerollFrames := by
        rw [KeepsWhole] at hkeeps
        omega
      have hrecord := record_pollsOf hstart
        (triggered_onset hlow hhigh (⌈start⌉₊ + 1)
          (settings.recorder.prerollFrames - settings.recorder.startFrames) hn)
        fun c hc => (capturedAt_onset hc).2
      refine not_whole_onset hlow hhigh hmax hn hcut' ⌈start⌉₊ rfl (hwhole _ _ _ _ ?_ hrecord)
      rw [chunksOf_pollsOf]
      refine (stream_onset _ _ _).of_le ?_
      have hle := Nat.le_ceil start
      push_cast
      linarith
  · rintro ⟨hkeeps, hzero⟩ deadline polls result heard hstream hrecord
    obtain ⟨more, rfl, hpart⟩ := heard_prefix hrecord
    exact whole_of_ends hzero hstart hkeeps hmin hmax (hstream.mono hpart)
      (loop_detecting hstart (noTrigger_nil hstart) hrecord)

/-- The defaults, but for five loud chunks that start a recording, and a pre-roll of one. -/
def narrowPreroll : VoiceSettings :=
  { VoiceSettings.default with
    speechStartConsecutiveFrames := 5
    followupPrerollSeconds := Ieee.double (8 / 100)
    startFrames_range := by decide
    preroll_range := by decide +kernel
    preroll_lt_queue := by decide +kernel }

/-- The recording of five loud chunks is the last of them. -/
theorem onset_cut : Stream 1 (onset 1 0 4) ∧ ∃ result,
    narrowPreroll.recorder.record 12 [] 0 (pollsOf 12 (onset 1 0 4)) = some (result, onset 1 0 4) ∧
      ¬ narrowPreroll.recorder.Whole (onset 1 0 4) result := by
  have hlow := narrowPreroll.threshold_range.1
  have hhigh := narrowPreroll.threshold_range.2
  have hframes : narrowPreroll.recorder.prerollFrames = 1 := by decide +kernel
  have hpreroll : narrowPreroll.recorder.prerollFrames - narrowPreroll.recorder.startFrames = 0 := by
    rw [hframes]
    rfl
  have htrigger : narrowPreroll.recorder.Triggered (onset 1 0 4) :=
    triggered_onset hlow hhigh 1 0 rfl
  have hbefore : ∀ c ∈ onset 1 0 4, c.capturedAt < 12 := by
    intro c hc
    have hlt := (capturedAt_onset hc).2
    norm_num at hlt
    exact hlt
  exact ⟨by exact_mod_cast stream_onset 1 0 4, _, record_pollsOf (by decide) htrigger hbefore,
    not_whole_onset hlow hhigh narrowPreroll.minUtterance_range.2 rfl
      (.inl (by rw [hframes]; decide)) 0 (by rw [hpreroll])⟩

end RmsRecorder

end SmartDesk.Voice

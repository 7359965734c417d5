import SmartDesk.Lib.FlatJson

/-!
# The display reader

`firmware/segment-reader/src/display_reader.cpp`: an Arduino looks at the wires of the multiplexed
display of the desk, and prints a report every 50 ms.  Each look at a wire or at the clock is a
moment of its own.

* `Wire`, `Moment` — the wires, and what is found at a moment.
* `takeSample` — the readings of `sampleSelectedDigit()`.
* `DisplayReader`, `Board`, `update` — the fields of the reader, with the reports that it has
  printed, and one call of `update()`.
* `Clean` — a sample that is accepted is what a digit shows; `clean_of_multiplexed` — **three equal
  readings are enough for that, where the display changes at most once in their time.**
-/

namespace SmartDesk.Display

/-- `SEGMENT_PINS` from A to G, `SEG_DP`, and `DIGIT_PINS`. -/
inductive Wire where
  | segment (i : Fin 7)
  | point
  | digit (i : Fin 3)
  deriving DecidableEq

/-- The digits on the pins 8, 9 and 10. -/
abbrev digit8 : Fin 3 := 2

abbrev digit9 : Fin 3 := 1

abbrev digit10 : Fin 3 := 0

/-- What a moment finds: which wires are HIGH, and `millis()`. -/
structure Moment where
  high : Wire → Bool
  millis : UInt32

/-- The segments of a digit, A in bit 6 to G in bit 0, and its point. -/
structure Glyph where
  mask : UInt8
  point : Bool
  deriving DecidableEq

/-! ## Samples -/

section Readings

variable (env : ℕ → Moment)

/-- `digitalRead(pin)`. -/
def digitalRead (wire : Wire) (pos : ℕ) : Bool × ℕ := ((env pos).high wire, pos + 1)

def millis (pos : ℕ) : UInt32 × ℕ := ((env pos).millis, pos + 1)

/-- The loop of `selectedDigit()` over the digits. -/
def countLow : List (Fin 3) → ℕ → Option (Fin 3) → ℕ → Option (Fin 3) × ℕ
  | [], lowCount, lowIndex, pos => (if lowCount = 1 then lowIndex else none, pos)
  | i :: rest, lowCount, lowIndex, pos =>
      let level := digitalRead env (.digit i) pos
      if level.1 then countLow rest lowCount lowIndex level.2
      else countLow rest (lowCount + 1) (some i) level.2

/-- `selectedDigit()`; none is -1. -/
def selectedDigit (pos : ℕ) : Option (Fin 3) × ℕ := countLow env [0, 1, 2] 0 none pos

/-- The loop of `readSegmentMask()`. -/
def maskFrom : List (Fin 7) → UInt8 → ℕ → UInt8 × ℕ
  | [], mask, pos => (mask, pos)
  | i :: rest, mask, pos =>
      let level := digitalRead env (.segment i) pos
      maskFrom rest (if level.1 then mask ||| (1 <<< UInt8.ofNat (6 - i.val)) else mask) level.2

/-- `readSegmentMask()`. -/
def readSegmentMask (pos : ℕ) : UInt8 × ℕ := maskFrom env [0, 1, 2, 3, 4, 5, 6] 0 pos

/-- `readSegmentMask()` and the point. -/
def readGlyph (pos : ℕ) : Glyph × ℕ :=
  let mask := readSegmentMask env pos
  let point := digitalRead env .point mask.2
  (⟨mask.1, point.1⟩, point.2)

/-- The readings of `sampleSelectedDigit()`: the digit and what it shows, unless it returns early. -/
def takeSample (pos : ℕ) : Option (Fin 3 × Glyph) × ℕ :=
  let first := selectedDigit env pos
  match first.1 with
  | none => (none, first.2)
  | some firstDigit =>
      let again := selectedDigit env first.2
      if again.1 ≠ some firstDigit then (none, again.2)
      else
        let firstGlyph := readGlyph env again.2
        let secondGlyph := readGlyph env firstGlyph.2
        let thirdGlyph := readGlyph env secondGlyph.2
        let last := selectedDigit env thirdGlyph.2
        if last.1 ≠ some firstDigit ∨ firstGlyph.1 ≠ secondGlyph.1 ∨
            secondGlyph.1 ≠ thirdGlyph.1 then
          (none, last.2)
        else (some (firstDigit, firstGlyph.1), last.2)

end Readings

/-! ## The reader -/

/-- The fields of the class. -/
structure DisplayReader where
  lastReportMs : UInt32 := 0
  digitMasks : Fin 3 → UInt8 := fun _ => 0
  digitPoints : Fin 3 → Bool := fun _ => false
  freshDigits : UInt8 := 0
  candidateMasks : Fin 3 → UInt8 := fun _ => 0
  candidatePoints : Fin 3 → Bool := fun _ => false
  candidateCounts : Fin 3 → UInt8 := fun _ => 0

namespace DisplayReader

/-- The candidate of a digit is counted, or replaced. -/
def countCandidate (i : Fin 3) (g : Glyph) (r : DisplayReader) : DisplayReader :=
  if r.candidateMasks i = g.mask ∧ r.candidatePoints i = g.point then
    if r.candidateCounts i < 3 then
      { r with candidateCounts := Function.update r.candidateCounts i (r.candidateCounts i + 1) }
    else r
  else
    { r with
      candidateMasks := Function.update r.candidateMasks i g.mask
      candidatePoints := Function.update r.candidatePoints i g.point
      candidateCounts := Function.update r.candidateCounts i 1 }

/-- A digit that was seen three times is confirmed. -/
def confirm (i : Fin 3) (g : Glyph) (r : DisplayReader) : DisplayReader :=
  if 3 ≤ r.candidateCounts i then
    { r with
      digitMasks := Function.update r.digitMasks i g.mask
      digitPoints := Function.update r.digitPoints i g.point
      freshDigits := r.freshDigits ||| (1 <<< UInt8.ofNat i.val) }
  else r

/-- What `sampleSelectedDigit()` does with a sample. -/
def note (i : Fin 3) (g : Glyph) (r : DisplayReader) : DisplayReader :=
  (r.countCandidate i g).confirm i g

end DisplayReader

/-- A report: the levels that it has found, the reader, and the moments between the end of the
report before it and its own. -/
structure Report where
  since : ℕ
  upto : ℕ
  levels : FlatJson.Object
  reader : DisplayReader

/-- The reader, the next moment, and the reports so far. -/
structure Board where
  reader : DisplayReader := {}
  pos : ℕ := 0
  since : ℕ := 0
  reports : List Report := []

/-- A field with a number. -/
def numberField (name : String) (n : ℕ) : List Char × FlatJson.Value := (name.toList, .integer n)

/-- The fields with the levels of the wires. -/
def levelFields : List (String × Wire) :=
  [("a", .segment 0), ("b", .segment 1), ("c", .segment 2), ("d", .segment 3), ("e", .segment 4),
    ("f", .segment 5), ("g", .segment 6), ("dp", .point), ("d10", .digit 0), ("d9", .digit 1),
    ("d8", .digit 2)]

/-- The fields with what was confirmed. -/
def DisplayReader.slotFields (r : DisplayReader) : FlatJson.Object :=
  [numberField "m10" (r.digitMasks 0).toNat, numberField "p10" (r.digitPoints 0).toNat,
    numberField "m9" (r.digitMasks 1).toNat, numberField "p9" (r.digitPoints 1).toNat,
    numberField "m8" (r.digitMasks 2).toNat, numberField "p8" (r.digitPoints 2).toNat,
    numberField "fresh" r.freshDigits.toNat]

section Board

variable (env : ℕ → Moment)

def readLevels : List (String × Wire) → ℕ → FlatJson.Object × ℕ
  | [], pos => ([], pos)
  | (name, wire) :: rest, pos =>
      let level := digitalRead env wire pos
      let levels := readLevels rest level.2
      (numberField name level.1.toNat :: levels.1, levels.2)

namespace Board

/-- `sampleSelectedDigit()`. -/
def sampleSelectedDigit (b : Board) : Board :=
  let sample := takeSample env b.pos
  match sample.1 with
  | none => { b with pos := sample.2 }
  | some (i, g) => { b with reader := b.reader.note i g, pos := sample.2 }

/-- The report itself. -/
def report (now : UInt32) (b : Board) : Board :=
  let levels := readLevels env levelFields b.pos
  { reader := { b.reader with lastReportMs := now, freshDigits := 0 }
    pos := levels.2
    since := levels.2
    reports := b.reports ++ [⟨b.since, levels.2, levels.1, b.reader⟩] }

/-- `reportIfDue()`. -/
def reportIfDue (b : Board) : Board :=
  let due := millis env b.pos
  if due.1 - b.reader.lastReportMs < 50 then { b with pos := due.2 }
  else
    let now := millis env due.2
    { b with pos := now.2 }.report env now.1

/-- `update()`. -/
def update (b : Board) : Board := (b.sampleSelectedDigit env).reportIfDue env

/-- The board after `n` updates. -/
def afterUpdates (n : ℕ) : Board := (update env)^[n] {}

end Board

end Board

/-- What `begin()` prints. -/
def started : FlatJson.Object :=
  [("status".toList, .string "reader_started".toList),
    ("firmware".toList, .string "smartdesk-fin-segment-reader-1.0.0".toList),
    ("baudrate".toList, .integer 115200)]

/-- The object of a report. -/
def Report.members (r : Report) : FlatJson.Object := r.levels ++ r.reader.slotFields

/-! ## What a sample is of -/

section Samples

variable {env : ℕ → Moment}

/-- In a look that begins at this moment only one digit is LOW. -/
def Selects (env : ℕ → Moment) (pos : ℕ) (i : Fin 3) : Prop :=
  ∀ j : Fin 3, (env (pos + j)).high (.digit j) = decide (j ≠ i)

theorem countLow_snd (digits : List (Fin 3)) (lowCount : ℕ) (lowIndex : Option (Fin 3)) (pos : ℕ) :
    (countLow env digits lowCount lowIndex pos).2 = pos + digits.length := by
  induction digits generalizing lowCount lowIndex pos with
  | nil => rfl
  | cons i digits ih =>
    cases hlevel : (env pos).high (.digit i) <;>
      simp only [countLow, digitalRead, hlevel, Bool.false_eq_true, if_true, if_false, ih,
        List.length_cons] <;> omega

theorem selectedDigit_snd (pos : ℕ) : (selectedDigit env pos).2 = pos + 3 := countLow_snd _ _ _ _

theorem selects_of_selectedDigit {pos : ℕ} {i : Fin 3} (h : (selectedDigit env pos).1 = some i) :
    Selects env pos i := by
  have h₁ : pos + 1 + 1 = pos + 2 := rfl
  simp only [selectedDigit, countLow, digitalRead, h₁] at h
  have hall : ∀ j : Fin 3, j = 0 ∨ j = 1 ∨ j = 2 := by decide
  intro j
  rcases hall j with rfl | rfl | rfl <;> split_ifs at h <;> cases h <;> simp_all

/-- The mask of seven levels. -/
def maskOf (bits : Fin 7 → Bool) : UInt8 :=
  ([0, 1, 2, 3, 4, 5, 6] : List (Fin 7)).foldl
    (fun mask i => if bits i then mask ||| (1 <<< UInt8.ofNat (6 - i.val)) else mask) 0

theorem readGlyph_eq (pos : ℕ) :
    readGlyph env pos = (⟨maskOf fun s => (env (pos + s)).high (.segment s),
      (env (pos + 7)).high .point⟩, pos + 8) := rfl

/-- Whether a segment is on. -/
def Glyph.segment (g : Glyph) (s : Fin 7) : Bool := g.mask.toNat.testBit (6 - s)

/-- Seven segments are a mask. -/
theorem maskOf_segment {g : Glyph} (h : g.mask < 128) : maskOf g.segment = g.mask := by
  have hall : ∀ m : Fin 128, maskOf (Glyph.segment ⟨UInt8.ofNat m, false⟩) = UInt8.ofNat m := by
    decide
  have hlt : g.mask.toNat < 128 := h
  have hmask := hall ⟨g.mask.toNat, hlt⟩
  rw [UInt8.ofNat_toNat] at hmask
  exact hmask

/-- The wires carry what the digit shows. -/
structure Drives (m : Moment) (g : Glyph) : Prop where
  segment : ∀ s, m.high (.segment s) = g.segment s
  point : m.high .point = g.point

theorem readGlyph_of_drives {pos : ℕ} {g : Glyph} (hg : g.mask < 128)
    (h : ∀ k, pos ≤ k → k < pos + 8 → Drives (env k) g) : (readGlyph env pos).1 = g := by
  have hmask : (fun s : Fin 7 => (env (pos + s)).high (.segment s)) = g.segment := by
    funext s
    exact (h (pos + s) (Nat.le_add_right _ _) (by omega)).segment s
  rw [readGlyph_eq, hmask, maskOf_segment hg, (h (pos + 7) (by omega) (by omega)).point]

/-- A sample that is accepted is what its digit shows at some moment of the sample. -/
def Clean (env : ℕ → Moment) (shown : ℕ → Fin 3 → Glyph) : Prop :=
  ∀ pos i g, (takeSample env pos).1 = some (i, g) →
    ∃ k, pos ≤ k ∧ k < (takeSample env pos).2 ∧ shown k i = g

/-- A display that is multiplexed: between two looks that find one digit selected the wires carry
what this digit shows, and that changes at most once. -/
structure Multiplexed (env : ℕ → Moment) (shown : ℕ → Fin 3 → Glyph) : Prop where
  segments : ∀ k i, (shown k i).mask < 128
  driven : ∀ pos i, Selects env pos i → Selects env (pos + 27) i →
    ∀ k, pos + 3 ≤ k → k < pos + 27 → Drives (env k) (shown k i)
  once : ∀ pos i, ∃ c, (∀ k, pos ≤ k → k < c → shown k i = shown pos i) ∧
    ∀ k, c ≤ k → k < pos + 24 → shown k i = shown (pos + 23) i

/-- What an accepted sample has found. -/
theorem sample_eq_some {pos : ℕ} {i : Fin 3} {g : Glyph}
    (h : (takeSample env pos).1 = some (i, g)) :
    Selects env (pos + 3) i ∧ (readGlyph env (pos + 6)).1 = g ∧ (readGlyph env (pos + 22)).1 = g ∧
      Selects env (pos + 30) i ∧ (takeSample env pos).2 = pos + 33 := by
  have hglyph (q : ℕ) : (readGlyph env q).2 = q + 8 := rfl
  unfold takeSample at h ⊢
  dsimp only at h ⊢
  split at h
  · cases h
  · next first hfirst =>
    simp only [selectedDigit_snd, hglyph] at h ⊢
    split_ifs at h with hagain hsame
    cases h
    simp only [not_or, ne_eq, Decidable.not_not] at hagain hsame
    obtain ⟨hlast, hequal, hequal'⟩ := hsame
    refine ⟨selects_of_selectedDigit hagain, rfl, ?_, selects_of_selectedDigit hlast, ?_⟩
    · exact (hequal.trans hequal').symm
    · rw [if_neg (by simpa using hagain), if_neg (by simp [hlast, hequal, hequal'])]

/-- **Three equal readings are what the digit shows**, where that changes at most once in their
time. -/
theorem clean_of_multiplexed {shown : ℕ → Fin 3 → Glyph} (h : Multiplexed env shown) :
    Clean env shown := by
  intro pos i g hsample
  obtain ⟨hbefore, hfirst, hthird, hafter, hend⟩ := sample_eq_some hsample
  have hdriven := h.driven (pos + 3) i hbefore hafter
  obtain ⟨c, hold, hnew⟩ := h.once (pos + 6) i
  rcases Nat.lt_or_ge c (pos + 14) with hc | hc
  · -- The change is over before the third reading.
    have hread : (readGlyph env (pos + 22)).1 = shown (pos + 29) i := by
      refine readGlyph_of_drives (h.segments _ i) fun k hlow hhigh => ?_
      have hdrives := hdriven k (by omega) (by omega)
      rwa [hnew k (by omega) (by omega)] at hdrives
    exact ⟨pos + 29, by omega, by omega, hread.symm.trans hthird⟩
  · -- The change comes after the first reading.
    have hread : (readGlyph env (pos + 6)).1 = shown (pos + 6) i := by
      refine readGlyph_of_drives (h.segments _ i) fun k hlow hhigh => ?_
      have hdrives := hdriven k (by omega) (by omega)
      rwa [hold k (by omega) (by omega)] at hdrives
    exact ⟨pos + 6, by omega, by omega, hread.symm.trans hfirst⟩

end Samples

/-! ## What a report is of -/

namespace DisplayReader

/-- What is confirmed of a digit. -/
def glyph (r : DisplayReader) (i : Fin 3) : Glyph := ⟨r.digitMasks i, r.digitPoints i⟩

/-- The digit was confirmed since the last report. -/
def Fresh (r : DisplayReader) (i : Fin 3) : Prop := r.freshDigits.toNat.testBit i = true

/-- One more digit is fresh. -/
theorem freshDigits_or {f : UInt8} (h : f < 8) (i : Fin 3) :
    f ||| (1 <<< UInt8.ofNat i.val) < 8 ∧ ∀ j : Fin 3,
      (f ||| (1 <<< UInt8.ofNat i.val)).toNat.testBit j = true →
        f.toNat.testBit j = true ∨ j = i := by
  have hall : ∀ (f : Fin 8) (i : Fin 3), UInt8.ofNat f ||| (1 <<< UInt8.ofNat i.val) < 8 ∧
      ∀ j : Fin 3, (UInt8.ofNat f ||| (1 <<< UInt8.ofNat i.val)).toNat.testBit j = true →
        (UInt8.ofNat f).toNat.testBit j = true ∨ j = i := by
    decide
  have hlt : f.toNat < 8 := h
  have hf := hall ⟨f.toNat, hlt⟩ i
  rwa [UInt8.ofNat_toNat] at hf

theorem countCandidate_kept (r : DisplayReader) (i : Fin 3) (g : Glyph) :
    (r.countCandidate i g).glyph = r.glyph ∧
      (r.countCandidate i g).freshDigits = r.freshDigits := by
  unfold countCandidate
  split_ifs <;> exact ⟨rfl, rfl⟩

/-- **What is fresh was fresh before, and is the same, or it is the sample.** -/
theorem fresh_note {r : DisplayReader} {i : Fin 3} {g : Glyph} (h : r.freshDigits < 8) :
    (r.note i g).freshDigits < 8 ∧ ∀ j, (r.note i g).Fresh j →
      (r.Fresh j ∧ (r.note i g).glyph j = r.glyph j) ∨ (j = i ∧ (r.note i g).glyph j = g) := by
  obtain ⟨hglyph, hfresh⟩ := countCandidate_kept r i g
  unfold note confirm Fresh
  split_ifs with hcount
  · have hor := freshDigits_or h i
    rw [← hfresh] at hor
    refine ⟨hor.1, fun j hj => ?_⟩
    by_cases hji : j = i
    · subst hji
      exact .inr ⟨rfl, by simp [glyph]⟩
    · have hold := (hor.2 j hj).resolve_right hji
      rw [hfresh] at hold
      refine .inl ⟨hold, ?_⟩
      have hj := congrFun hglyph j
      simp only [glyph, Function.update_of_ne hji] at hj ⊢
      exact hj
  · rw [hfresh]
    exact ⟨h, fun j hj => .inl ⟨hj, congrFun hglyph j⟩⟩

end DisplayReader

/-- The levels of a report: their names, and 0 or 1. -/
def LevelsOf (names : List (String × Wire)) (o : FlatJson.Object) : Prop :=
  List.Forall₂ (fun name m => m = numberField name.1 0 ∨ m = numberField name.1 1) names o

theorem levelsOf_readLevels (env : ℕ → Moment) (names : List (String × Wire)) (pos : ℕ) :
    LevelsOf names (readLevels env names pos).1 := by
  induction names generalizing pos with
  | nil => exact .nil
  | cons name names ih =>
    refine .cons ?_ (ih (pos + 1))
    simp only [digitalRead]
    cases (env pos).high name.2
    · exact .inl rfl
    · exact .inr rfl

theorem readLevels_snd (env : ℕ → Moment) (names : List (String × Wire)) (pos : ℕ) :
    (readLevels env names pos).2 = pos + names.length := by
  induction names generalizing pos with
  | nil => rfl
  | cons name names ih =>
    rw [readLevels]
    exact (ih (pos + 1)).trans (by rw [List.length_cons]; omega)

/-- What a report says of a fresh digit was shown since the last report. -/
structure Report.Current (shown : ℕ → Fin 3 → Glyph) (r : Report) : Prop where
  levels : LevelsOf levelFields r.levels
  fresh : r.reader.freshDigits < 8
  digits : ∀ i, r.reader.Fresh i →
    ∃ k, r.since ≤ k ∧ k < r.upto ∧ shown k i = r.reader.glyph i

/-- What the reader keeps. -/
structure Tracks (shown : ℕ → Fin 3 → Glyph) (b : Board) : Prop where
  order : b.since ≤ b.pos
  fresh : b.reader.freshDigits < 8
  digits : ∀ i, b.reader.Fresh i →
    ∃ k, b.since ≤ k ∧ k < b.pos ∧ shown k i = b.reader.glyph i
  reports : ∀ r ∈ b.reports, r.Current shown

section Tracks

variable {env : ℕ → Moment} {shown : ℕ → Fin 3 → Glyph} {b : Board}

/-- Time passes. -/
theorem Tracks.later {pos : ℕ} (h : Tracks shown b) (hpos : b.pos ≤ pos) :
    Tracks shown { b with pos := pos } := by
  refine ⟨h.order.trans hpos, h.fresh, fun i hi => ?_, h.reports⟩
  obtain ⟨k, hlow, hhigh, hshown⟩ := h.digits i hi
  exact ⟨k, hlow, Nat.lt_of_lt_of_le hhigh hpos, hshown⟩

theorem takeSample_le (env : ℕ → Moment) (pos : ℕ) : pos ≤ (takeSample env pos).2 := by
  have hglyph (q : ℕ) : (readGlyph env q).2 = q + 8 := rfl
  unfold takeSample
  dsimp only
  split
  · rw [selectedDigit_snd]
    omega
  · simp only [selectedDigit_snd, hglyph]
    split_ifs <;> omega

theorem Tracks.sample (h : Tracks shown b) (hclean : Clean env shown) :
    Tracks shown (b.sampleSelectedDigit env) := by
  have hle := takeSample_le env b.pos
  unfold Board.sampleSelectedDigit
  dsimp only
  split
  · exact h.later hle
  · next i g hsample =>
    obtain ⟨k, hlow, hhigh, hshown⟩ := hclean b.pos i g hsample
    obtain ⟨hfresh, hnote⟩ := DisplayReader.fresh_note (i := i) (g := g) h.fresh
    refine ⟨h.order.trans hle, hfresh, fun j hj => ?_, h.reports⟩
    rcases hnote j hj with ⟨hold, hsame⟩ | ⟨rfl, hnew⟩
    · obtain ⟨k, hlow, hhigh, hshown⟩ := h.digits j hold
      exact ⟨k, hlow, Nat.lt_of_lt_of_le hhigh hle, hshown.trans hsame.symm⟩
    · exact ⟨k, h.order.trans hlow, hhigh, hshown.trans hnew.symm⟩

theorem Tracks.report (h : Tracks shown b) (env : ℕ → Moment) (now : UInt32) :
    Tracks shown (b.report env now) := by
  have hend := readLevels_snd env levelFields b.pos
  have hle : b.pos ≤ (readLevels env levelFields b.pos).2 := by
    rw [hend]
    exact Nat.le_add_right _ _
  refine ⟨Nat.le_refl _, (by decide : (0 : UInt8) < 8), fun i hi => ?_, fun r hr => ?_⟩
  · have hnone : ∀ i : Fin 3, (0 : UInt8).toNat.testBit i = false := by decide
    have hfresh : (0 : UInt8).toNat.testBit i = true := hi
    rw [hnone i] at hfresh
    cases hfresh
  · rcases List.mem_append.mp hr with hr | hr
    · exact h.reports r hr
    · rw [List.mem_singleton.mp hr]
      refine ⟨levelsOf_readLevels env levelFields b.pos, h.fresh, fun i hi => ?_⟩
      obtain ⟨k, hlow, hhigh, hshown⟩ := h.digits i hi
      exact ⟨k, hlow, Nat.lt_of_lt_of_le hhigh hle, hshown⟩

theorem Tracks.update (h : Tracks shown b) (hclean : Clean env shown) :
    Tracks shown (b.update env) := by
  have hsampled := h.sample hclean
  unfold Board.update Board.reportIfDue
  dsimp only
  split
  · exact hsampled.later (Nat.le_succ _)
  · exact (hsampled.later (Nat.le_add_right _ 2)).report env _

/-- **Every report is current**, after any number of updates. -/
theorem tracks_afterUpdates (hclean : Clean env shown) (n : ℕ) :
    Tracks shown (Board.afterUpdates env n) := by
  induction n with
  | zero =>
    refine ⟨Nat.le_refl _, (by decide : (0 : UInt8) < 8), fun i hi => ?_, by nofun⟩
    have hnone : ∀ i : Fin 3, ¬ DisplayReader.Fresh {} i := by
      unfold DisplayReader.Fresh
      decide
    exact absurd hi (hnone i)
  | succ n ih =>
    rw [Board.afterUpdates, Function.iterate_succ_apply']
    exact ih.update hclean

end Tracks

end SmartDesk.Display

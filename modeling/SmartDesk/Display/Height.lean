import Mathlib
import SmartDesk.Desk.Segment
import SmartDesk.Display.Reader
import SmartDesk.Lib.LoadsFlat

/-!
# From the display to the height

What the host reads of the lines of the display reader.

* `displayed` — the number that three digits show.
* `decode_report` — **the height of a line is the number that its report has**, if all its digits
  are fresh.
* `height_current` — **each digit of a decoded height was shown since the report before it, and the
  height itself if the display then changed in one digit only**, however the bytes are cut.
* `height_torn` — a carry in between can be read as a height that was never shown.
-/

namespace SmartDesk.Display

open PyText PyJson FlatJson Desk

/-- The figure that a digit shows. -/
def Glyph.figure (g : Glyph) : Option Char := maskToDigit.lookup (g.mask.toNat : ℤ)

/-- The number that the digits show; the first of them is on pin 8. -/
def displayed (shown : Fin 3 → Glyph) : Option ℚ :=
  match (shown digit8).figure, (shown digit9).figure, (shown digit10).figure with
  | some a, some b, some c =>
      let n : ℚ := FlatJson.digitsValue [a, b, c]
      match (shown digit8).point, (shown digit9).point, (shown digit10).point with
      | false, false, false => some n
      | true, false, false => some (n / 10 ^ 2)
      | false, true, false => some (n / 10 ^ 1)
      | _, _, _ => none
  | _, _, _ => none

/-- The `float` of a number, if it is in the measurement range. -/
def heightOf (settings : DeskSettings) (q : ℚ) : Option Ieee :=
  let height := Ieee.float64 q
  if height.isFinite = true ∧ Ieee.finite settings.measurementMinCm ≤ height ∧
      height ≤ Ieee.finite settings.measurementMaxCm then some height
  else none

/-! ## Packets -/

/-- The interpreter reads an object, and has no limit for digits below the least that it allows. -/
structure Ordinary (limits : Limits) : Prop where
  depth : 0 < limits.depth
  intDigits : limits.intDigits = 0 ∨ 640 ≤ limits.intDigits

variable {settings : DeskSettings} {limits : Limits} {r : Report}

theorem digit_of_lookup {mask : ℤ} {c : Char} (h : maskToDigit.lookup mask = some c) :
    c.isDigit = true ∧ (c != '.') = true := by
  obtain ⟨before, after, heq, -⟩ := List.lookup_eq_some_iff.mp h
  have hmem : (mask, c) ∈ maskToDigit := by
    rw [heq]
    exact List.mem_append_right _ List.mem_cons_self
  simp only [maskToDigit, List.mem_cons, List.not_mem_nil, or_false, Prod.mk.injEq] at hmem
  rcases hmem with h | h | h | h | h | h | h | h | h | h <;> rw [h.2] <;> exact ⟨rfl, rfl⟩

theorem names_of_levelsOf {names : List (String × Wire)} {o : Object} (h : LevelsOf names o) :
    o.map Prod.fst = names.map fun name => name.1.toList := by
  induction h with
  | nil => rfl
  | cons hm _ ih =>
    rw [List.map_cons, List.map_cons, ih]
    rcases hm with rfl | rfl <;> rfl

/-- The fields of the slots are found behind the levels. -/
theorem lookup_slot {levels slots : Object} (h : LevelsOf levelFields levels) {key : List Char}
    (hkey : key ∉ levelFields.map fun name => name.1.toList) :
    (ofObject (levels ++ slots)).lookup (PyText.decode key) =
      (ofObject slots).lookup (PyText.decode key) := by
  have hnone : (ofObject levels).lookup (PyText.decode key) = none := by
    rw [List.lookup_eq_none_iff]
    intro m hm
    obtain ⟨x, hx, rfl⟩ := List.mem_map.mp hm
    rw [bne_iff_ne]
    intro heq
    refine hkey ?_
    rw [← names_of_levelsOf h, decode_injective heq]
    exact List.mem_map_of_mem hx
  have happend : ofObject (levels ++ slots) = ofObject levels ++ ofObject slots := List.map_append
  rw [happend, List.lookup_append, hnone, Option.none_or]

/-- What the host takes from a report. -/
structure Slots (packet : Packet) (r : DisplayReader) : Prop where
  fresh : packet.plainInt freshField = some (r.freshDigits.toNat : ℤ)
  mask₈ : packet.plainInt (fieldName 'm' 8) = some ((r.glyph 2).mask.toNat : ℤ)
  point₈ : packet.plainInt (fieldName 'p' 8) = some ((r.glyph 2).point.toNat : ℤ)
  mask₉ : packet.plainInt (fieldName 'm' 9) = some ((r.glyph 1).mask.toNat : ℤ)
  point₉ : packet.plainInt (fieldName 'p' 9) = some ((r.glyph 1).point.toNat : ℤ)
  mask₁₀ : packet.plainInt (fieldName 'm' 10) = some ((r.glyph 0).mask.toNat : ℤ)
  point₁₀ : packet.plainInt (fieldName 'p' 10) = some ((r.glyph 0).point.toNat : ℤ)

theorem slots_members (h : LevelsOf levelFields r.levels) :
    Slots (ofObject r.members) r.reader := by
  have hslot (key : List Char) (hkey : key ∉ levelFields.map fun name => name.1.toList) :
      (ofObject r.members).lookup (PyText.decode key) =
        (ofObject r.reader.slotFields).lookup (PyText.decode key) := lookup_slot h hkey
  refine ⟨?_, ?_, ?_, ?_, ?_, ?_, ?_⟩
  · rw [Packet.plainInt, freshField, hslot _ (by decide)]
    rfl
  · rw [Packet.plainInt, fieldName, hslot _ (by decide)]
    rfl
  · rw [Packet.plainInt, fieldName, hslot _ (by decide)]
    rfl
  · rw [Packet.plainInt, fieldName, hslot _ (by decide)]
    rfl
  · rw [Packet.plainInt, fieldName, hslot _ (by decide)]
    rfl
  · rw [Packet.plainInt, fieldName, hslot _ (by decide)]
    rfl
  · rw [Packet.plainInt, fieldName, hslot _ (by decide)]
    rfl

/-- All the fields are there. -/
theorem required_members (r : Report) :
    (requiredFields.all fun field => (ofObject r.members).any (·.1 = field)) = true := by
  have hslots : ∀ field ∈ requiredFields,
      ((ofObject r.reader.slotFields).any (·.1 = field)) = true := by
    have hnames : (ofObject r.reader.slotFields).map Prod.fst =
        [fieldName 'm' 10, fieldName 'p' 10, fieldName 'm' 9, fieldName 'p' 9, fieldName 'm' 8,
          fieldName 'p' 8, freshField] := rfl
    intro field hfield
    have hmem : field ∈ (ofObject r.reader.slotFields).map Prod.fst := by
      rw [hnames]
      revert field
      decide
    obtain ⟨m, hm, rfl⟩ := List.mem_map.mp hmem
    exact List.any_eq_true.mpr ⟨m, hm, by simp⟩
  have happend : ofObject r.members = ofObject r.levels ++ ofObject r.reader.slotFields :=
    List.map_append
  rw [List.all_eq_true]
  intro field hfield
  rw [happend, List.any_append, hslots field hfield, Bool.or_true]

/-! ## Decoding -/

/-- `float` of three figures, with a point behind one of them or none. -/
theorem floatOfDigits_figures {a b c : Char} (ha : a.isDigit = true ∧ (a != '.') = true)
    (hb : b.isDigit = true ∧ (b != '.') = true) (hc : c.isDigit = true ∧ (c != '.') = true) :
    floatOfDigits [a, b, c] = some (Ieee.float64 (FlatJson.digitsValue [a, b, c] : ℚ)) ∧
      floatOfDigits [a, '.', b, c] =
        some (Ieee.float64 ((FlatJson.digitsValue [a, b, c] : ℚ) / 10 ^ 2)) ∧
      floatOfDigits [a, b, '.', c] =
        some (Ieee.float64 ((FlatJson.digitsValue [a, b, c] : ℚ) / 10 ^ 1)) := by
  refine ⟨?_, ?_, ?_⟩
  · simp [floatOfDigits, ha.1, ha.2, hb.1, hb.2, hc.1, hc.2]
  · simp [floatOfDigits, ha.1, ha.2, hb.1, hc.1]
  · simp [floatOfDigits, ha.1, ha.2, hb.1, hb.2, hc.1]

/-- The digits of a packet, as they are displayed. -/
theorem readDigits_packet {packet : Packet} {r : DisplayReader} (h : Slots packet r) :
    (SegmentDecoder.readDigits packet digitNumbers [] 0).bind floatOfDigits =
      (displayed r.glyph).map Ieee.float64 := by
  have hfigure (i : Fin 3) :
      maskToDigit.lookup ((r.glyph i).mask.toNat : ℤ) = (r.glyph i).figure := rfl
  simp only [digitNumbers, SegmentDecoder.readDigits, h.mask₈, h.point₈, h.mask₉, h.point₉,
    h.mask₁₀, h.point₁₀, hfigure, lastDigitNumber, displayed]
  cases h₈ : (r.glyph 2).figure with
  | none => rfl
  | some a =>
    cases h₉ : (r.glyph 1).figure with
    | none => cases (r.glyph 2).point <;> rfl
    | some b =>
      cases h₁₀ : (r.glyph 0).figure with
      | none => cases (r.glyph 2).point <;> cases (r.glyph 1).point <;> rfl
      | some c =>
        obtain ⟨hnone, hfirst, hsecond⟩ := floatOfDigits_figures (digit_of_lookup h₈)
          (digit_of_lookup h₉) (digit_of_lookup h₁₀)
        cases (r.glyph 2).point <;> cases (r.glyph 1).point <;> cases (r.glyph 0).point <;>
          simp [hnone, hfirst, hsecond]

/-! ## Lines -/

theorem names_members (h : LevelsOf levelFields r.levels) :
    r.members.map Prod.fst = ["a", "b", "c", "d", "e", "f", "g", "dp", "d10", "d9", "d8", "m10",
      "p10", "m9", "p9", "m8", "p8", "fresh"].map String.toList := by
  rw [Report.members, List.map_append, names_of_levelsOf h]
  rfl

theorem value_of_levelsOf {names : List (String × Wire)} {o : Object} (h : LevelsOf names o) :
    ∀ m ∈ o, ∃ n : ℕ, n < 256 ∧ m.2 = .integer n := by
  induction h with
  | nil => nofun
  | cons hm _ ih =>
    intro m hmem
    rcases List.mem_cons.mp hmem with rfl | hmem
    · rcases hm with rfl | rfl
      · exact ⟨0, by decide, rfl⟩
      · exact ⟨1, by decide, rfl⟩
    · exact ih m hmem

theorem value_members (h : LevelsOf levelFields r.levels) :
    ∀ m ∈ r.members, ∃ n : ℕ, n < 256 ∧ m.2 = .integer n := by
  intro m hm
  rcases List.mem_append.mp hm with hm | hm
  · exact value_of_levelsOf h m hm
  · have hmask (i : Fin 3) := UInt8.toNat_lt (r.reader.digitMasks i)
    have hpoint (i : Fin 3) : (r.reader.digitPoints i).toNat < 256 :=
      Nat.lt_of_lt_of_le (Bool.toNat_lt _) (by decide)
    simp only [DisplayReader.slotFields, List.mem_cons, List.not_mem_nil, or_false] at hm
    rcases hm with rfl | rfl | rfl | rfl | rfl | rfl | rfl
    · exact ⟨_, hmask 0, rfl⟩
    · exact ⟨_, hpoint 0, rfl⟩
    · exact ⟨_, hmask 1, rfl⟩
    · exact ⟨_, hpoint 1, rfl⟩
    · exact ⟨_, hmask 2, rfl⟩
    · exact ⟨_, hpoint 2, rfl⟩
    · exact ⟨_, UInt8.toNat_lt r.reader.freshDigits, rfl⟩

/-- What is printed is plain text of small numbers. -/
theorem plain_members (h : LevelsOf levelFields r.levels) :
    Plain r.members ∧ (r.members.map Prod.fst).Nodup ∧ ∀ m ∈ r.members, UnbracedMember m := by
  have hnames : ∀ m ∈ r.members, PlainString m.1 ∧ Unbraced m.1 := by
    intro m hm
    have hname : m.1 ∈ r.members.map Prod.fst := List.mem_map_of_mem hm
    rw [names_members h] at hname
    revert hname
    generalize m.1 = name
    revert name
    decide
  refine ⟨fun m hm => ⟨(hnames m hm).1, ?_⟩, ?_, fun m hm => ⟨(hnames m hm).2, ?_⟩⟩
  · obtain ⟨n, -, hvalue⟩ := value_members h m hm
    rw [hvalue]
    trivial
  · rw [names_members h]
    decide
  · obtain ⟨n, -, hvalue⟩ := value_members h m hm
    rw [hvalue]
    have hdigits : ∀ c ∈ natText n, c.isDigit = true := fun _ => isDigit_of_mem_natText
    intro c hc
    have hdigit := hdigits c hc
    constructor <;> rintro rfl <;> cases hdigit

theorem fits_members (hl : Ordinary limits) (h : LevelsOf levelFields r.levels) :
    ∀ m ∈ r.members, Fits limits m.2 := by
  intro m hm
  obtain ⟨n, hn, hvalue⟩ := value_members h m hm
  have hlength : (natText n).length ≤ 3 := length_natText_le (by decide) (by omega)
  rw [hvalue]
  exact hl.intDigits.imp_right fun hdigits => hlength.trans ((by decide : 3 ≤ 640).trans hdigits)

theorem decodePacket_members (h : LevelsOf levelFields r.levels) :
    SegmentDecoder.decodePacket settings (.dict (ofObject r.members)) =
      if r.reader.freshDigits = 7 then (displayed r.reader.glyph).bind (heightOf settings)
      else none := by
  have hslots := slots_members h
  have hdigits := readDigits_packet hslots
  have hseven : Packet.plainInt (ofObject r.members) freshField = some 7 ↔
      r.reader.freshDigits = 7 := by
    rw [hslots.fresh, Option.some.injEq, ← UInt8.toNat_inj]
    exact Int.natCast_inj
  unfold SegmentDecoder.decodePacket
  dsimp only
  rw [if_pos (required_members r)]
  by_cases hfresh : r.reader.freshDigits = 7
  · rw [if_pos (hseven.mpr hfresh), if_pos hfresh]
    cases hread : SegmentDecoder.readDigits (ofObject r.members) digitNumbers [] 0 with
    | none =>
      rw [hread] at hdigits
      cases hshown : displayed r.reader.glyph with
      | none => rfl
      | some q =>
        rw [hshown] at hdigits
        cases hdigits
    | some digits =>
      rw [hread] at hdigits
      dsimp only [Option.bind_some] at hdigits ⊢
      rw [hdigits]
      cases displayed r.reader.glyph <;> rfl
  · rw [if_neg fun hc => hfresh (hseven.mp hc), if_neg hfresh]

/-- **The height of a line is the number that its report has**, if all its digits are fresh. -/
theorem decode_report (settings : DeskSettings) (hl : Ordinary limits)
    (h : LevelsOf levelFields r.levels) {tail : List Char}
    (htail : ∀ c ∈ tail, isJsonSpace (.scalar c) = true) :
    SegmentDecoder.decode limits settings (.bytes (render r.members ++ tail).utf8Encode) =
      .ok (if r.reader.freshDigits = 7 then (displayed r.reader.glyph).bind (heightOf settings)
        else none) := by
  obtain ⟨hplain, hnodup, -⟩ := plain_members h
  have htext : SegmentDecoder.decodeText (.bytes (render r.members ++ tail).utf8Encode) =
      some (PyText.decode (render r.members) ++ PyText.decode tail) := by
    rw [SegmentDecoder.decodeText, List.utf8Decode?_utf8Encode, ← decode_append]
    rfl
  have hload := loads_render (PyText.decode tail) hplain hnodup (fits_members hl h) hl.depth
    fun c hc => by
      obtain ⟨d, hd, rfl⟩ := List.mem_map.mp hc
      exact htail d hd
  unfold SegmentDecoder.decode
  rw [htext]
  dsimp only
  rw [hload]
  exact congrArg Except.ok (decodePacket_members h)

/-! ## What the host reads -/

/-- `Serial.println`. -/
def lineText (o : Object) : List Char := render o ++ ['\r', '\n']

/-- A height is decoded from an object. -/
theorem loads_of_decode {fragment : List Char} {height : Ieee}
    (h : SegmentDecoder.decode limits settings (.bytes fragment.utf8Encode) = .ok (some height)) :
    ∃ members, loads limits (PyText.decode fragment) = .ok (.dict members) ∧
      SegmentDecoder.decodePacket settings (.dict members) = some height := by
  have htext : SegmentDecoder.decodeText (.bytes fragment.utf8Encode) =
      some (PyText.decode fragment) := by
    rw [SegmentDecoder.decodeText, List.utf8Decode?_utf8Encode]
    rfl
  unfold SegmentDecoder.decode at h
  rw [htext] at h
  dsimp only at h
  split at h
  · cases h
  · cases h
  · next packet hload =>
    have hpacket := Except.ok.inj h
    cases packet with
    | dict members => exact ⟨members, hload, hpacket⟩
    | _ => cases hpacket

/-- What follows an object in its line. -/
theorem isJsonSpace_of_isPrefix {rest : List Char} (h : rest <+: ['\r', '\n']) :
    ∀ c ∈ rest, isJsonSpace (.scalar c) = true := by
  have hall : ['\r', '\n'].all (fun c => isJsonSpace (.scalar c)) = true := rfl
  exact fun c hc => List.all_eq_true.mp hall c (h.subset hc)

/-- The first line is no packet. -/
theorem decode_started (hl : Ordinary limits) {fragment : List Char} {height : Ieee}
    (hfragment : fragment <:+: lineText started) :
    SegmentDecoder.decode limits settings (.bytes fragment.utf8Encode) ≠ .ok (some height) := by
  intro hdecode
  obtain ⟨members, hload, hpacket⟩ := loads_of_decode hdecode
  have hunbraced : ∀ m ∈ started, UnbracedMember m := by decide
  have hend : Unbraced ['\r', '\n'] := by decide
  have hfits : ∀ m ∈ started, Fits limits m.2 := by
    have hlength : (natText 115200).length ≤ 640 := by decide
    intro m hm
    simp only [started, List.mem_cons, List.not_mem_nil, or_false] at hm
    rcases hm with rfl | rfl | rfl
    · trivial
    · trivial
    · exact hl.intDigits.imp_right fun hdigits => hlength.trans hdigits
  obtain ⟨rest, rfl, hrest⟩ := whole_of_fragment hunbraced hend hfragment hload
  have hread := loads_render (PyText.decode rest) (by decide : Plain started) (by decide)
    hfits hl.depth fun c hc => by
      obtain ⟨d, hd, rfl⟩ := List.mem_map.mp hc
      exact isJsonSpace_of_isPrefix hrest d hd
  rw [decode_append, hread] at hload
  have hnone : SegmentDecoder.decodePacket settings (.dict (ofObject started)) = none := rfl
  obtain rfl : ofObject started = members := by simpa using hload
  rw [hnone] at hpacket
  cases hpacket

/-- Digits that were shown when any two displays differ in one place at most are one of these
displays. -/
theorem exists_common {α : Type} {v : Fin 3 → Fin 3 → α}
    (h : ∀ a b, ∃ p, ∀ i, i ≠ p → v a i = v b i) : ∃ a, ∀ i, v a i = v i i := by
  have hother {a b i j : Fin 3} (hne : v a i ≠ v b i) (hj : j ≠ i) : v a j = v b j := by
    obtain ⟨p, hp⟩ := h a b
    obtain rfl : i = p := by
      by_contra hip
      exact hne (hp i hip)
    exact hp j hj
  have hall (a : Fin 3) (h₀ : v a 0 = v 0 0) (h₁ : v a 1 = v 1 1) (h₂ : v a 2 = v 2 2) :
      ∀ i, v a i = v i i := by
    intro i
    match i with
    | 0 => exact h₀
    | 1 => exact h₁
    | 2 => exact h₂
  by_cases h₁ : v 0 1 = v 1 1
  · by_cases h₂ : v 0 2 = v 2 2
    · exact ⟨0, hall 0 rfl h₁ h₂⟩
    · exact ⟨2, hall 2 (hother h₂ (by decide)).symm ((hother h₂ (by decide)).symm.trans h₁) rfl⟩
  · by_cases h₂ : v 1 2 = v 2 2
    · exact ⟨1, hall 1 (hother h₁ (by decide)).symm rfl h₂⟩
    · -- The first and the third display differ in two places.
      have hsecond : v 0 1 ≠ v 2 1 := fun heq => h₁ (heq.trans (hother h₂ (by decide)).symm)
      have hthird : v 0 2 = v 2 2 := hother hsecond (by decide)
      exact absurd ((hother h₁ (by decide)).symm.trans hthird) h₂

variable {env : ℕ → Moment} {shown : ℕ → Fin 3 → Glyph}

/-- **A decoded height has digits that were shown since the report before it**, and was shown itself
if the display then changed in one digit at most; however the bytes of a line are cut, and for
every report whose line they can be from. -/
theorem height_current (hclean : Clean env shown) (hl : Ordinary limits) {n : ℕ}
    {fragment : List Char} {height : Ieee}
    (hdecode : SegmentDecoder.decode limits settings (.bytes fragment.utf8Encode) =
      .ok (some height)) :
    ¬ fragment <:+: lineText started ∧
      ∀ r ∈ (Board.afterUpdates env n).reports, fragment <:+: lineText r.members →
        (∃ k : Fin 3 → ℕ, (∀ i, r.since ≤ k i ∧ k i < r.upto) ∧
          (displayed fun i => shown (k i) i).bind (heightOf settings) = some height) ∧
        ((∀ j k, r.since ≤ j → j < r.upto → r.since ≤ k → k < r.upto →
            ∃ p, ∀ i, i ≠ p → shown j i = shown k i) →
          ∃ k, r.since ≤ k ∧ k < r.upto ∧
            (displayed (shown k)).bind (heightOf settings) = some height) := by
  refine ⟨fun hfragment => decode_started hl hfragment hdecode, fun r hr hfragment => ?_⟩
  have hcurrent := (tracks_afterUpdates hclean n).reports r hr
  obtain ⟨-, -, hunbraced⟩ := plain_members hcurrent.levels
  obtain ⟨members, hload, -⟩ := loads_of_decode hdecode
  have hend : Unbraced ['\r', '\n'] := by decide
  obtain ⟨rest, rfl, hrest⟩ := whole_of_fragment hunbraced hend hfragment hload
  rw [decode_report settings hl hcurrent.levels (isJsonSpace_of_isPrefix hrest)] at hdecode
  have hread := Except.ok.inj hdecode
  split_ifs at hread with hfresh
  have hbits : ∀ i : Fin 3, (7 : UInt8).toNat.testBit i = true := by decide
  have hdigits (i : Fin 3) : ∃ k, r.since ≤ k ∧ k < r.upto ∧ shown k i = r.reader.glyph i := by
    refine hcurrent.digits i ?_
    unfold DisplayReader.Fresh
    rw [hfresh]
    exact hbits i
  choose k hlow hhigh hshown using hdigits
  have hglyph : r.reader.glyph = fun i => shown (k i) i := funext fun i => (hshown i).symm
  rw [hglyph] at hread
  refine ⟨⟨k, fun i => ⟨hlow i, hhigh i⟩, hread⟩, fun hone => ?_⟩
  obtain ⟨a, ha⟩ := exists_common (v := fun a => shown (k a)) fun a b =>
    hone (k a) (k b) (hlow a) (hhigh a) (hlow b) (hhigh b)
  refine ⟨k a, hlow a, hhigh a, ?_⟩
  rw [show shown (k a) = fun i => shown (k i) i from funext ha]
  exact hread

/-! ## A display that changes while it is read -/

/-- The digits are looked at one after the other, three times each. -/
def selected (pos : ℕ) : Fin 3 :=
  if pos < 102 then digit8 else if pos < 204 then digit9 else digit10

/-- The display changes after the first digit. -/
def changing (old new : Fin 3 → Glyph) (pos : ℕ) : Fin 3 → Glyph := if pos < 102 then old else new

/-- The wires of a display, and a clock at which one report is due. -/
def wired (shown : ℕ → Fin 3 → Glyph) (pos : ℕ) : Moment where
  high
    | .segment s => (shown pos (selected pos)).segment s
    | .point => (shown pos (selected pos)).point
    | .digit i => decide (i ≠ selected pos)
  millis := if pos < 306 then 0 else 50

/-- Three figures, with a point behind the second. -/
def figures (a b c : UInt8) : Fin 3 → Glyph
  | 2 => ⟨a, false⟩
  | 1 => ⟨b, true⟩
  | 0 => ⟨c, false⟩

theorem selected_of_selects {shown : ℕ → Fin 3 → Glyph} {pos : ℕ} {i : Fin 3}
    (h : Selects (wired shown) pos i) : selected (pos + i) = i := by
  have hi : decide (i ≠ selected (pos + i)) = decide (i ≠ i) := h i
  have hself : decide (i ≠ i) = false := decide_eq_false fun hne => hne rfl
  exact (not_not.mp (of_decide_eq_false (hi.trans hself))).symm

/-- One digit after the other. -/
theorem selected_between {a b c : ℕ} {i : Fin 3} (ha : selected a = i) (hb : selected b = i)
    (hlow : a ≤ c) (hhigh : c ≤ b) : selected c = i := by
  unfold selected digit8 digit9 digit10 at ha hb ⊢
  subst ha
  split_ifs at hb ⊢ <;> first | rfl | omega

theorem clean_wired {old new : Fin 3 → Glyph} (hold : ∀ i, (old i).mask < 128)
    (hnew : ∀ i, (new i).mask < 128) : Clean (wired (changing old new)) (changing old new) := by
  refine clean_of_multiplexed ⟨fun k i => ?_, fun pos i hbefore hafter k hlow hhigh => ?_,
    fun pos i => ⟨102, fun k hlow hk => ?_, fun k hk hhigh => ?_⟩⟩
  · unfold changing
    split
    · exact hold i
    · exact hnew i
  · have hi := i.isLt
    have hselected := selected_between (c := k) (selected_of_selects hbefore)
      (selected_of_selects hafter) (by omega) (by omega)
    refine ⟨fun s => ?_, ?_⟩
    · show (changing old new k (selected k)).segment s = _
      rw [hselected]
    · show (changing old new k (selected k)).point = _
      rw [hselected]
  · unfold changing
    rw [if_pos hk, if_pos (Nat.lt_of_le_of_lt hlow hk)]
  · unfold changing
    rw [if_neg (by omega), if_neg (by omega)]

/-- The limits of an interpreter as it is installed. -/
def usualLimits : Limits := ⟨4300, 1000⟩

theorem ordinary_usualLimits : Ordinary usualLimits := ⟨by decide, .inr (by decide)⟩

/-- What the report of a run gives: whether its digits are fresh, their number, and the height. -/
def outcome (old new : Fin 3 → Glyph) : List (UInt8 × Option ℚ × Option Ieee) :=
  (Board.afterUpdates (wired (changing old new)) 10).reports.map fun r =>
    (r.reader.freshDigits, displayed r.reader.glyph,
      (displayed r.reader.glyph).bind (heightOf .default))

/-- The line of a report is decoded. -/
theorem decode_of_outcome {old new : Fin 3 → Glyph} {q : ℚ} {height : Ieee}
    (hclean : Clean (wired (changing old new)) (changing old new))
    (h : outcome old new = [(7, some q, some height)]) :
    ∃ r ∈ (Board.afterUpdates (wired (changing old new)) 10).reports,
      SegmentDecoder.decode usualLimits .default (.bytes (lineText r.members).utf8Encode) =
        .ok (some height) := by
  have hmem : (7, some q, some height) ∈ outcome old new := by
    rw [h]
    exact List.mem_cons_self
  obtain ⟨r, hr, hread⟩ := List.mem_map.mp hmem
  simp only [Prod.mk.injEq] at hread
  have hcurrent := (tracks_afterUpdates hclean 10).reports r hr
  have hdecode := decode_report .default ordinary_usualLimits hcurrent.levels
    (isJsonSpace_of_isPrefix (List.prefix_refl _))
  rw [if_pos hread.1, hread.2.2] at hdecode
  exact ⟨r, hr, hdecode⟩

/-- A display that stands at 80.5 is read so. -/
theorem height_current_still :
    let still := figures 0x7F 0x7E 0x5B
    ∃ k, (displayed (changing still still k)).bind (heightOf .default) =
      some (Ieee.float64 (805 / 10)) := by
  intro still
  have hmask : ∀ i, (still i).mask < 128 := by decide
  have hclean := clean_wired hmask hmask
  have houtcome : outcome still still = [(7, some (805 / 10), some (Ieee.float64 (805 / 10)))] := by
    decide +kernel
  obtain ⟨r, hr, hdecode⟩ := decode_of_outcome hclean houtcome
  obtain ⟨-, hshown⟩ := (height_current hclean ordinary_usualLimits hdecode).2 r hr
    (List.infix_refl _)
  obtain ⟨k, -, -, hheight⟩ := hshown fun j k _ _ _ _ => ⟨0, fun i _ => by
    unfold changing
    rw [ite_self, ite_self]⟩
  exact ⟨k, hheight⟩

/-- **A carry can be read as a height that was never shown**: 80.0 while 89.9 becomes 90.0. -/
theorem height_torn :
    let old := figures 0x7F 0x7B 0x7B
    let new := figures 0x7B 0x7E 0x7E
    Clean (wired (changing old new)) (changing old new) ∧
      (∃ r ∈ (Board.afterUpdates (wired (changing old new)) 10).reports,
        SegmentDecoder.decode usualLimits .default (.bytes (lineText r.members).utf8Encode) =
          .ok (some (Ieee.float64 80))) ∧
      ∀ k, displayed (changing old new k) = some (899 / 10) ∨
        displayed (changing old new k) = some 90 := by
  intro old new
  have hold : ∀ i, (old i).mask < 128 := by decide
  have hnew : ∀ i, (new i).mask < 128 := by decide
  have hclean := clean_wired hold hnew
  refine ⟨hclean, decode_of_outcome (q := 80) hclean (by decide +kernel), fun k => ?_⟩
  unfold changing
  split
  · exact .inl (by decide +kernel)
  · exact .inr (by decide +kernel)

end SmartDesk.Display

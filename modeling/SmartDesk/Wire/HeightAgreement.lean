import Mathlib
import SmartDesk.Wire.HeightLease
import SmartDesk.Display.Height

/-!
# The height that the host publishes and the height that the firmware takes

`HeightMessage` of `modules/desk/messages.py` on one side, `parseHeight` of the relay firmware on
the other.

* `publishHeight` — the text of `_publish_height`, or the error of the message model.
* `exists_tenths` — **a decoded height is a number of millimetres**, rounded to a `float`.
* `DeserializesNear` — what the firmware relies on for numbers with one decimal.
* `height_agreement` — **every decoded height is published and accepted**, with its own timestamp,
  to within a ten-thousandth of a millimetre; timestamps stay distinct and heights in order.
-/

namespace SmartDesk.Wire

open SmartDesk.Desk SmartDesk.Firmware

/-! ## Heights that can be decoded -/

/-- A step of the loop over the digits reads a digit, and a point behind it at most once. -/
theorem readDigits_cons {packet : Packet} {number : ℕ} {numbers : List ℕ} {read digits : List Char}
    {points : ℕ}
    (h : SegmentDecoder.readDigits packet (number :: numbers) read points = some digits) :
    ∃ d : Char, (d.isDigit = true ∧ (d != '.') = true) ∧
      (SegmentDecoder.readDigits packet numbers (read ++ [d]) points = some digits ∨
        (points = 0 ∧ number ≠ lastDigitNumber) ∧
          SegmentDecoder.readDigits packet numbers (read ++ [d, '.']) 1 = some digits) := by
  unfold SegmentDecoder.readDigits at h
  split at h
  · next mask point _ _ =>
    split at h
    · cases h
    · next d hd =>
      refine ⟨d, Display.digit_of_lookup hd, ?_⟩
      split_ifs at h with hzero hone hbad
      · exact .inl h
      · obtain ⟨hpoints, hlast⟩ := not_or.mp hbad
        have hpoints : points = 0 := by omega
        subst hpoints
        exact .inr ⟨⟨rfl, hlast⟩, h⟩
  · cases h

/-- The text that the loop gives: three digits with one point between them, or none. -/
theorem readDigits_shape {packet : Packet} {digits : List Char}
    (h : SegmentDecoder.readDigits packet digitNumbers [] 0 = some digits) :
    ∃ a b c : Char, (a.isDigit = true ∧ (a != '.') = true) ∧
      (b.isDigit = true ∧ (b != '.') = true) ∧ (c.isDigit = true ∧ (c != '.') = true) ∧
      (digits = [a, b, c] ∨ digits = [a, '.', b, c] ∨ digits = [a, b, '.', c]) := by
  obtain ⟨a, ha, h⟩ := readDigits_cons h
  rcases h with h | ⟨-, h⟩ <;> obtain ⟨b, hb, h⟩ := readDigits_cons h
  · rcases h with h | ⟨-, h⟩ <;> obtain ⟨c, hc, h⟩ := readDigits_cons h
    · rcases h with h | ⟨⟨-, hlast⟩, -⟩
      · exact ⟨a, b, c, ha, hb, hc, .inl (Option.some.inj h).symm⟩
      · exact absurd rfl hlast
    · rcases h with h | ⟨⟨hpoints, -⟩, -⟩
      · exact ⟨a, b, c, ha, hb, hc, .inr (.inr (Option.some.inj h).symm)⟩
      · cases hpoints
  · rcases h with h | ⟨⟨hpoints, -⟩, -⟩
    · obtain ⟨c, hc, h⟩ := readDigits_cons h
      rcases h with h | ⟨⟨hpoints, -⟩, -⟩
      · exact ⟨a, b, c, ha, hb, hc, .inr (.inl (Option.some.inj h).symm)⟩
      · cases hpoints
    · cases hpoints

/-- Three digits stand for less than a thousand. -/
theorem digitsValue_three {a b c : Char} (ha : a.isDigit = true) (hb : b.isDigit = true)
    (hc : c.isDigit = true) : FlatJson.digitsValue [a, b, c] < 1000 := by
  have hdigit {d : Char} (hd : d.isDigit = true) : d.toNat - '0'.toNat ≤ 9 := by
    have hle : d.toNat ≤ 57 := (Char.isDigit_iff_toNat.mp hd).2
    have hzero : '0'.toNat = 48 := rfl
    omega
  have ha' := hdigit ha
  have hb' := hdigit hb
  have hc' := hdigit hc
  rw [FlatJson.digitsValue, Nat.ofDigitChars_cons, Nat.ofDigitChars_cons, Nat.ofDigitChars_cons,
    Nat.ofDigitChars_nil]
  omega

/-- A rounded number of millimetres that lies in the physical range was there before. -/
theorem tenths_of_float64 {m : ℕ} {q : ℚ} (hm : m ≤ 9990) (h : Ieee.float64 (m / 10) = .finite q)
    (hlow : 73 ≤ q) (hhigh : q ≤ 118) : 730 ≤ m ∧ m ≤ 1180 := by
  have hdouble : Ieee.double ((m : ℚ) / 10) = q := by
    rw [Ieee.double, h]
  have hbound : (m : ℚ) ≤ 9990 := by exact_mod_cast hm
  obtain ⟨hclose, hclose'⟩ := Ieee.double_close (q := (m : ℚ) / 10) (by positivity)
    (by norm_num; linarith)
  rw [hdouble] at hclose hclose'
  constructor
  · by_contra hlt
    have hle : (m : ℚ) ≤ 729 := by exact_mod_cast (by omega : m ≤ 729)
    norm_num at hclose'
    linarith
  · by_contra hlt
    have hle : (1181 : ℚ) ≤ m := by exact_mod_cast (by omega : 1181 ≤ m)
    norm_num at hclose
    linarith

/-- A decoded height was read from digits. -/
theorem digits_of_decode {limits : PyJson.Limits} {settings : DeskSettings} {raw : RawMessage}
    {height : Ieee} (h : SegmentDecoder.decode limits settings raw = .ok (some height)) :
    ∃ packet digits, SegmentDecoder.readDigits packet digitNumbers [] 0 = some digits ∧
      floatOfDigits digits = some height := by
  unfold SegmentDecoder.decode at h
  split at h
  · cases h
  · split at h
    · cases h
    · cases h
    · have hpacket := Except.ok.inj h
      unfold SegmentDecoder.decodePacket at hpacket
      split at hpacket
      · next packet _ =>
        split_ifs at hpacket
        split at hpacket
        · cases hpacket
        · next digits hdigits =>
          split at hpacket
          · cases hpacket
          · next height' hheight =>
            split_ifs at hpacket
            cases hpacket
            exact ⟨packet, digits, hdigits, hheight⟩
      · cases hpacket

/-- **A decoded height is a number of millimetres**, rounded to a `float`. -/
theorem exists_tenths {limits : PyJson.Limits} {settings : DeskSettings} {raw : RawMessage}
    {height : Ieee} (h : SegmentDecoder.decode limits settings raw = .ok (some height)) :
    ∃ m : ℕ, (730 ≤ m ∧ m ≤ 1180) ∧ height = .finite (Ieee.double (m / 10)) := by
  obtain ⟨packet, digits, hdigits, hheight⟩ := digits_of_decode h
  obtain ⟨q, rfl, hlow, hhigh⟩ := SegmentDecoder.measured_of_decode h
  have hlow : 73 ≤ q := settings.measurement_low.trans hlow
  have hhigh : q ≤ 118 := hhigh.trans settings.measurement_high
  -- It is enough to write the value that was rounded with one decimal.
  have htenths {m : ℕ} (hm : m ≤ 9990) (hvalue : Ieee.float64 ((m : ℚ) / 10) = .finite q) :
      ∃ m : ℕ, (730 ≤ m ∧ m ≤ 1180) ∧ Ieee.finite q = .finite (Ieee.double (m / 10)) :=
    ⟨m, tenths_of_float64 hm hvalue hlow hhigh, by rw [Ieee.double, hvalue]⟩
  obtain ⟨a, b, c, ha, hb, hc, hshape⟩ := readDigits_shape hdigits
  obtain ⟨hwhole, hhundredths, htenth⟩ := Display.floatOfDigits_figures ha hb hc
  have hsmall := digitsValue_three ha.1 hb.1 hc.1
  generalize FlatJson.digitsValue [a, b, c] = n at hwhole hhundredths htenth hsmall
  rcases hshape with rfl | rfl | rfl
  · rw [hwhole] at hheight
    refine htenths (m := 10 * n) (by omega) ?_
    rw [← Option.some.inj hheight]
    congr 1
    push_cast
    ring
  · -- Two decimals leave room for one digit in front of the point.
    rw [hhundredths] at hheight
    have hn : (n : ℚ) ≤ 999 := by exact_mod_cast (by omega : n ≤ 999)
    have hclose := (Ieee.double_close (q := (n : ℚ) / 10 ^ 2) (by positivity)
      (by norm_num; linarith)).2
    rw [Ieee.double, Option.some.inj hheight] at hclose
    norm_num at hclose
    linarith
  · rw [htenth, pow_one] at hheight
    exact htenths (by omega) (Option.some.inj hheight)

/-! ## The message of a height -/

/-- `HeightMessage(observed_at=observed_at, height_cm=height)` of a finite height. -/
def heightObject (observedAt : Timestamp) (height : ℚ) : FlatJson.Object :=
  let digits := floatDigits height
  [("schema".toList, .string "smartdesk.height.v1".toList),
    ("observed_at".toList, .string observedAt.text),
    ("height_cm".toList, .decimal digits.1 digits.2)]

/-- `_publish_height(height, observed_at)`: the text handed to MQTT.  The message model takes finite
heights only. -/
def publishHeight (observedAt : Timestamp) : Ieee → Except ClientError (List Char)
  | .finite height => .ok (FlatJson.render (heightObject observedAt height))
  | _ => .error .invalidMessage

/-- Rounding a number of millimetres to a `float` moves it very little. -/
theorem double_tenths {m : ℕ} (hhigh : m ≤ 1180) :
    |Ieee.double ((m : ℚ) / 10) - (m : ℚ) / 10| ≤ 1 / 10 ^ 6 := by
  have hm : (m : ℚ) ≤ 1180 := by exact_mod_cast hhigh
  obtain ⟨hlow, hhigh⟩ := Ieee.double_close (q := (m : ℚ) / 10) (by positivity)
    (by norm_num; linarith)
  norm_num at hlow hhigh
  rw [abs_le]
  constructor <;> norm_num <;> linarith

/-- The shortest text of a rounded number of millimetres has one decimal. -/
theorem floatDigits_tenths {m : ℕ} (hlow : 730 ≤ m) (hhigh : m ≤ 1180) :
    floatDigits (Ieee.double (m / 10)) = ((m : ℤ), 0) := by
  have hlowRat : (730 : ℚ) ≤ m := by exact_mod_cast hlow
  have hhighRat : (m : ℚ) ≤ 1180 := by exact_mod_cast hhigh
  have hclose := double_tenths hhigh
  have hfloat : Ieee.float64 ((m : ℚ) / 10) = .finite (Ieee.double (m / 10)) := by
    rw [Ieee.double, Ieee.float64_of_mem_binade (by linarith) (by linarith)]
  have hagain := Ieee.float64_idempotent (by linarith) (by linarith) hfloat
  generalize Ieee.double ((m : ℚ) / 10) = q at hclose hfloat hagain
  have hround : Ieee.roundHalfEven (q * 10 ^ (0 + 1)) = m := by
    refine Ieee.roundHalfEven_eq_of_near ?_
    rw [abs_le] at hclose
    rw [abs_lt]
    push_cast
    constructor <;> linarith
  unfold floatDigits
  dsimp only
  have hfind : (List.range 16).find? (fun k => decide (Ieee.float64
      (Ieee.roundHalfEven (q * 10 ^ (k + 1)) / 10 ^ (k + 1)) = Ieee.float64 q)) = some 0 := by
    refine List.find?_eq_some_iff_append.mpr
      ⟨?_, [], (List.range 15).map (· + 1), by decide, by simp⟩
    rw [hround, hagain, decide_eq_true_iff, ← hfloat]
    push_cast
    norm_num
  rw [hfind, Option.getD_some, hround]

/-- So the message is the one of an observation. -/
theorem heightObject_tenths (t : Timestamp) {m : ℕ} (hlow : 730 ≤ m) (hhigh : m ≤ 1180) :
    heightObject t (Ieee.double (m / 10)) = heightMessage ⟨t, m, hlow, hhigh⟩ := by
  rw [heightObject, floatDigits_tenths hlow hhigh]
  rfl

/-! ## What the firmware takes -/

/-- A number with one decimal is read to within one unit in the last place of a `float` in the
binade from 64 to 128. -/
def Near : FlatJson.Value → JsonScalar → Prop
  | .decimal m 0, v => 64 ≤ (m : ℚ) / 10 → (m : ℚ) / 10 ≤ 127 →
      ∃ r : ℚ, v = .float (.finite r) ∧ |r - (m : ℚ) / 10| ≤ 1 / 2 ^ 17
  | _, _ => True

/-- `deserializeJson` gives a flat object as its members, and numbers with one decimal nearly. -/
def DeserializesNear (deserializeJson : Bytes → Option JsonDocument) : Prop :=
  ∀ o : FlatJson.Object, WireObject o →
    ∃ members, deserializeJson (ascii (FlatJson.render o)) = some (.object members) ∧
      List.Forall₂ (fun m j => j.1 = ascii m.1 ∧ Denotes m.2 j.2 ∧ Near m.2 j.2) o members

variable {deserializeJson : Bytes → Option JsonDocument}

/-- The firmware takes the message of a height: its timestamp as it is, and a number that is close
to the height. -/
def Takes (deserializeJson : Bytes → Option JsonDocument) (t : Timestamp) (height : Ieee)
    (taken : Height) : Prop :=
  ∃ text, publishHeight t height = .ok text ∧ text.length ≤ maxHeightPayloadBytes ∧
    parseHeight deserializeJson (ascii text) maxHeightPayloadBytes maxObservedAtBytes {} =
      .ok taken ∧
    taken.observedAt = ascii t.text ∧
    ∃ q r : ℚ, height = .finite q ∧ taken.heightCm = .finite r ∧ |r - q| ≤ 1 / 10 ^ 5

/-- What is taken of a number of millimetres. -/
theorem takes_tenths (hd : DeserializesNear deserializeJson) (t : Timestamp) {m : ℕ}
    (hlow : 730 ≤ m) (hhigh : m ≤ 1180) :
    ∃ r : ℚ, |r - (m : ℚ) / 10| ≤ 1 / 2 ^ 17 ∧
      Takes deserializeJson t (.finite (Ieee.double (m / 10)))
        { heightCm := .finite r, observedAt := ascii t.text } := by
  have hlowRat : (730 : ℚ) ≤ m := by exact_mod_cast hlow
  have hhighRat : (m : ℚ) ≤ 1180 := by exact_mod_cast hhigh
  obtain ⟨members, hread, hmembers⟩ := hd _ (wireObject_height ⟨t, m, hlow, hhigh⟩)
  cases hmembers with
  | @cons _ schema _ _ hschema hmembers =>
  cases hmembers with
  | @cons _ observed _ _ hobserved hmembers =>
  cases hmembers with
  | @cons _ height _ _ hheight hmembers =>
    cases hmembers
    obtain ⟨schemaKey, schemaValue⟩ := schema
    obtain ⟨observedKey, observedValue⟩ := observed
    obtain ⟨heightKey, heightValue⟩ := height
    obtain ⟨rfl, rfl, -⟩ : schemaKey = _ ∧ schemaValue = _ ∧ _ := hschema
    obtain ⟨rfl, rfl, -⟩ : observedKey = _ ∧ observedValue = _ ∧ _ := hobserved
    obtain ⟨rfl, hdenotes, hnear⟩ : heightKey = _ ∧ Denotes (.decimal m 0) heightValue ∧
      Near (.decimal m 0) heightValue := hheight
    obtain ⟨r, rfl, hclose⟩ := hnear (by push_cast; linarith) (by push_cast; linarith)
    rw [Int.cast_natCast] at hclose
    -- The whole numbers at the ends of the measured range separate it from what is refused.
    obtain ⟨x, hx, hbounds⟩ := hdenotes
    cases hx
    obtain ⟨r', hr', hr⟩ := hbounds 73 118 (by decide) (by decide) (by push_cast; linarith)
      (by push_cast; linarith)
    cases hr'
    have hm : measuredHeightAllowed (.finite r) = true :=
      measuredHeightAllowed_iff.mpr ⟨r, rfl, by exact_mod_cast hr.1, by exact_mod_cast hr.2⟩
    have htext := length_timestamp t
    have hlength := length_height ⟨t, m, hlow, hhigh⟩
    have hpublish : publishHeight t (.finite (Ieee.double (m / 10))) =
        .ok (FlatJson.render (heightMessage ⟨t, m, hlow, hhigh⟩)) := by
      rw [publishHeight, heightObject_tenths t hlow hhigh]
    have hpayload : ¬ ((ascii (FlatJson.render (heightMessage ⟨t, m, hlow, hhigh⟩))).length = 0 ∨
        maxHeightPayloadBytes <
          (ascii (FlatJson.render (heightMessage ⟨t, m, hlow, hhigh⟩))).length) := by
      have hpos : (FlatJson.render (heightMessage ⟨t, m, hlow, hhigh⟩)).length ≠ 0 := by
        simp [heightMessage, FlatJson.render]
      rw [ascii, List.length_map, maxHeightPayloadBytes]
      omega
    refine ⟨r, hclose, _, hpublish, hlength.trans (by decide), ?_, rfl, _, _, rfl, rfl, ?_⟩
    · rw [parseHeight, if_neg hpayload, hread]
      exact parseObservation_height (cString_ascii (ascii_timestamp _) (plain_timestamp _))
        (by simpa [ascii] using htext.1) (by simp only [ascii, List.length_map]; omega) hm
    · have hround := double_tenths hhigh
      calc |r - Ieee.double ((m : ℚ) / 10)|
          ≤ |r - (m : ℚ) / 10| + |(m : ℚ) / 10 - Ieee.double ((m : ℚ) / 10)| := abs_sub_le _ _ _
        _ ≤ 1 / 2 ^ 17 + 1 / 10 ^ 6 := by
            rw [abs_sub_comm ((m : ℚ) / 10)]
            exact add_le_add hclose hround
        _ ≤ 1 / 10 ^ 5 := by norm_num

/-- Numbers that are close to different millimetres are ordered as these are. -/
theorem lt_of_near {m n : ℕ} {r s ε : ℚ} (hlt : m < n) (hε : ε < 1 / 20)
    (hr : |r - (m : ℚ) / 10| ≤ ε) (hs : |s - (n : ℚ) / 10| ≤ ε) : r < s := by
  rw [abs_le] at hr hs
  have : (m : ℚ) + 1 ≤ n := by exact_mod_cast hlt
  linarith

/-- Rounding keeps the order of the millimetres. -/
theorem lt_of_double_lt {m n : ℕ} (hm : m ≤ 1180) (hn : n ≤ 1180)
    (h : Ieee.finite (Ieee.double (m / 10)) < .finite (Ieee.double (n / 10))) : m < n := by
  by_contra hle
  rcases (not_lt.mp hle).eq_or_lt with rfl | hgt
  · exact lt_irrefl _ (Ieee.finite_lt_finite.mp h)
  · have hlt := lt_of_near hgt (by norm_num) (double_tenths hn) (double_tenths hm)
    exact lt_asymm hlt (Ieee.finite_lt_finite.mp h)

/-- **Every decoded height is published and accepted**, with its own timestamp and nearly as it is;
the firmware tells two timestamps apart and has two heights in their order. -/
theorem height_agreement (hd : DeserializesNear deserializeJson) {limits : PyJson.Limits}
    {settings : DeskSettings} {raw₁ raw₂ : RawMessage} {height₁ height₂ : Ieee}
    (h₁ : SegmentDecoder.decode limits settings raw₁ = .ok (some height₁))
    (h₂ : SegmentDecoder.decode limits settings raw₂ = .ok (some height₂)) (t₁ t₂ : Timestamp) :
    ∃ taken₁ taken₂, Takes deserializeJson t₁ height₁ taken₁ ∧
      Takes deserializeJson t₂ height₂ taken₂ ∧
      (taken₁.observedAt = taken₂.observedAt ↔ t₁ = t₂) ∧
      (height₁ < height₂ → taken₁.heightCm < taken₂.heightCm) := by
  obtain ⟨m, ⟨hlow, hhigh⟩, rfl⟩ := exists_tenths h₁
  obtain ⟨n, ⟨hlow', hhigh'⟩, rfl⟩ := exists_tenths h₂
  obtain ⟨r, hr, htakes⟩ := takes_tenths hd t₁ hlow hhigh
  obtain ⟨s, hs, htakes'⟩ := takes_tenths hd t₂ hlow' hhigh'
  refine ⟨_, _, htakes, htakes', ⟨fun heq => ?_, fun heq => by rw [heq]⟩, fun hlt => ?_⟩
  · have htext := congrArg asciiText heq
    dsimp only at htext
    rw [asciiText_ascii (ascii_timestamp t₁), asciiText_ascii (ascii_timestamp t₂)] at htext
    exact text_injective htext
  · exact Ieee.finite_lt_finite.mpr
      (lt_of_near (lt_of_double_lt hhigh hhigh' hlt) (by norm_num) hr hs)

/-! ## The reader of flat objects -/

theorem near_scalarOf (v : FlatJson.Value) : Near v (scalarOf v) := by
  cases v with
  | string => trivial
  | integer => trivial
  | decimal m k =>
    cases k with
    | succ => trivial
    | zero =>
      intro hlow hhigh
      have hfloat : scalarOf (.decimal m 0) =
          .float (.finite (Ieee.roundHalfEven ((m : ℚ) / 10 * 2 ^ 17) / 2 ^ 17)) := by
        rw [scalarOf, zero_add, pow_one, Ieee.float32_of_mem_binade hlow hhigh]
      refine ⟨_, hfloat, ?_⟩
      have hround := Ieee.abs_roundHalfEven_sub_le ((m : ℚ) / 10 * 2 ^ 17)
      rw [abs_le] at hround ⊢
      constructor
      · rw [le_sub_iff_add_le, le_div_iff₀ (by norm_num)]
        linarith
      · rw [sub_le_iff_le_add, div_le_iff₀ (by norm_num)]
        linarith

theorem deserializesNear_deserializeFlat : DeserializesNear deserializeFlat := by
  intro o ho
  refine ⟨o.map fun m => (ascii m.1, scalarOf m.2), ?_, ?_⟩
  · rw [deserializeFlat, asciiText_ascii ho.ascii, FlatJson.parse_render ho.plain]
    rfl
  · rw [List.forall₂_map_right_iff]
    exact List.forall₂_same.mpr fun m _ => ⟨rfl, denotes_scalarOf m.2, near_scalarOf m.2⟩

/-- A line of the display reader with the masks of three digits, and a point behind the second. -/
def lineOf (first second third : ℕ) : RawMessage :=
  .str (PyText.decode (FlatJson.render
    [("fresh".toList, .integer 7), ("m8".toList, .integer first), ("p8".toList, .integer 0),
      ("m9".toList, .integer second), ("p9".toList, .integer 1), ("m10".toList, .integer third),
      ("p10".toList, .integer 0)]))

/-- The displays 80.5 and 80.6 are taken in their order, with the two timestamps. -/
theorem height_agreement_flat :
    ∃ taken₁ taken₂, Takes deserializeFlat earlier.observedAt (Ieee.float64 (805 / 10)) taken₁ ∧
      Takes deserializeFlat later.observedAt (Ieee.float64 (806 / 10)) taken₂ ∧
      taken₁.observedAt ≠ taken₂.observedAt ∧ taken₁.heightCm < taken₂.heightCm := by
  have hdecode : SegmentDecoder.decode Display.usualLimits .default (lineOf 0x7F 0x7E 0x5B) =
        .ok (some (Ieee.float64 (805 / 10))) ∧
      SegmentDecoder.decode Display.usualLimits .default (lineOf 0x7F 0x7E 0x5F) =
        .ok (some (Ieee.float64 (806 / 10))) ∧
      Ieee.float64 (805 / 10) < Ieee.float64 (806 / 10) := by decide +kernel
  obtain ⟨taken₁, taken₂, h₁, h₂, hobserved, hlt⟩ :=
    height_agreement deserializesNear_deserializeFlat hdecode.1 hdecode.2.1
      earlier.observedAt later.observedAt
  have hdistinct : earlier.observedAt ≠ later.observedAt := by decide
  exact ⟨taken₁, taken₂, h₁, h₂, fun heq => hdistinct (hobserved.mp heq), hlt hdecode.2.2⟩

end SmartDesk.Wire

import SmartDesk.Desk.Models
import SmartDesk.Firmware.Protocol

/-!
# The host side of the wire

`modules/desk/relay.py` and `modules/desk/messages.py`: the JSON texts that the
host publishes.

* `RelayClient.pulse`, `RelayClient.sendStop`, `RelayClient.wake` — the payload,
  or the error that is raised instead.
* `HostCommand`, `HostCommand.publish` — the three commands as one type.
* `floatDigits` — the shortest decimal that is read back as a given `float`.
* `Timestamp`, `Observation` — what the height monitor publishes.
* `wireObject_publish`, `wireObject_height` — **all of these texts are flat
  objects that need no escapes.**
-/

namespace SmartDesk.Wire

open SmartDesk.Desk SmartDesk.Firmware

/-! ## Numbers -/

/-- The digits that `repr` writes for a finite `float` of this magnitude: the
fewest decimals (at least one) that are read back as the same value. -/
def floatDigits (q : ℚ) : ℤ × ℕ :=
  let candidate (k : ℕ) : ℤ × ℕ := (Ieee.roundHalfEven (q * 10 ^ (k + 1)), k)
  let exact (k : ℕ) : Bool :=
    Ieee.float64 ((candidate k).1 / 10 ^ (k + 1)) = Ieee.float64 q
  candidate (((List.range 16).find? exact).getD 16)

/-! ## Relay commands -/

inductive ClientError where
  /-- `ValueError`: the hold is out of range. -/
  | invalidHold
  /-- `ValidationError` of the message model. -/
  | invalidMessage
  deriving DecidableEq, Repr

/-- `RelayPulseMessage(command=direction, hold_ms=hold_ms)`. -/
def pulseMessage (direction : Direction) (holdMs : ℤ) : FlatJson.Object :=
  [("command".toList, .string direction.value.toList),
    ("source".toList, .string "desk_service".toList), ("hold_ms".toList, .integer holdMs)]

/-- `RelayStopMessage()`. -/
def stopMessage : FlatJson.Object := [("command".toList, .string "STOP".toList)]

/-- `RelayWakeMessage(direction=direction, basis_height_cm=basis_height_cm)`. -/
def wakeMessage (direction : Direction) (basisHeightCm : ℚ) : FlatJson.Object :=
  let digits := floatDigits basisHeightCm
  [("command".toList, .string "WAKE".toList), ("source".toList, .string "desk_service".toList),
    ("direction".toList, .string direction.value.toList), ("hold_ms".toList, .integer 100),
    ("basis_height_cm".toList, .decimal digits.1 digits.2)]

namespace RelayClient

/-- `pulse(direction, hold_ms)`: the payload handed to MQTT. -/
def pulse (direction : Direction) (holdMs : ℤ) : Except ClientError (List Char) :=
  if 50 ≤ holdMs ∧ holdMs ≤ 500 then .ok (FlatJson.render (pulseMessage direction holdMs))
  else .error .invalidHold

/-- `send_stop()`: the payload handed to MQTT. -/
def sendStop : Except ClientError (List Char) := .ok (FlatJson.render stopMessage)

/-- `wake(direction, basis_height_cm)`: the payload handed to MQTT. -/
def wake (direction : Direction) (basisHeightCm : Ieee) : Except ClientError (List Char) :=
  match basisHeightCm with
  | .finite q =>
      if 73 ≤ q ∧ q ≤ 118 then .ok (FlatJson.render (wakeMessage direction q))
      else .error .invalidMessage
  | _ => .error .invalidMessage

end RelayClient

/-- A command of the relay client. -/
inductive HostCommand where
  | pulse (direction : Direction) (holdMs : ℤ)
  | stop
  | wake (direction : Direction) (basisHeightCm : Ieee)
  deriving DecidableEq

/-- The text that a command publishes, if it publishes one. -/
def HostCommand.publish : HostCommand → Except ClientError (List Char)
  | .pulse direction holdMs => RelayClient.pulse direction holdMs
  | .stop => RelayClient.sendStop
  | .wake direction basisHeightCm => RelayClient.wake direction basisHeightCm

/-! ## Heights -/

/-- A `datetime` in UTC. -/
structure Timestamp where
  year : ℕ
  month : ℕ
  day : ℕ
  hour : ℕ
  minute : ℕ
  second : ℕ
  microsecond : ℕ
  year_le : year ≤ 9999
  month_le : month ≤ 12
  day_le : day ≤ 31
  hour_le : hour ≤ 23
  minute_le : minute ≤ 59
  second_le : second ≤ 59
  microsecond_le : microsecond ≤ 999999
  deriving DecidableEq

/-- The order of two timestamps, field by field. -/
def Timestamp.fields (t : Timestamp) : List ℕ :=
  [t.year, t.month, t.day, t.hour, t.minute, t.second, t.microsecond]

/-- `t < u`. -/
def Timestamp.Before (t u : Timestamp) : Prop := t.fields < u.fields

instance (t u : Timestamp) : Decidable (t.Before u) :=
  inferInstanceAs (Decidable (t.fields < u.fields))

/-- The ISO 8601 text; the fraction is written only if there is one. -/
def Timestamp.text (t : Timestamp) : List Char :=
  FlatJson.fixedText 4 t.year ++ ('-' :: (FlatJson.fixedText 2 t.month ++
    ('-' :: (FlatJson.fixedText 2 t.day ++ ('T' :: (FlatJson.fixedText 2 t.hour ++
      (':' :: (FlatJson.fixedText 2 t.minute ++ (':' :: (FlatJson.fixedText 2 t.second ++
        ((if t.microsecond = 0 then [] else '.' :: FlatJson.fixedText 6 t.microsecond) ++
          ['Z'])))))))))))

/-- A valid observation of the height monitor.  The decoder reads three digits
with one decimal point, or without one, and accepts 73 cm to 118 cm. -/
structure Observation where
  observedAt : Timestamp
  millimetres : ℕ
  low : 730 ≤ millimetres
  high : millimetres ≤ 1180

/-- `HeightMessage(observed_at=observed_at, height_cm=height)`. -/
def heightMessage (o : Observation) : FlatJson.Object :=
  [("schema".toList, .string "smartdesk.height.v1".toList),
    ("observed_at".toList, .string o.observedAt.text),
    ("height_cm".toList, .decimal o.millimetres 0)]

/-- The payload of `_publish_height`. -/
def heightPayload (o : Observation) : Bytes := ascii (FlatJson.render (heightMessage o))

/-! ## The texts are flat objects -/

theorem asciiMember_string {key value : String} (h : Ascii key.toList ∧ Ascii value.toList) :
    AsciiMember (key.toList, .string value.toList) :=
  ⟨h.1, fun _ heq => by cases heq; exact h.2⟩

theorem asciiMember_number {key : String} {v : FlatJson.Value} (h : Ascii key.toList)
    (hv : ∀ s, v ≠ .string s) : AsciiMember (key.toList, v) :=
  ⟨h, fun s heq => absurd heq (hv s)⟩

theorem ascii_direction (d : Direction) : Ascii d.value.toList := by cases d <;> decide

theorem plain_direction (d : Direction) : FlatJson.PlainString d.value.toList := by
  cases d <;> decide

theorem length_direction (d : Direction) : d.value.toList.length ≤ 4 := by cases d <;> decide

theorem wireObject_stop : WireObject stopMessage where
  plain := by decide
  ascii := by decide
  nodup := by decide
  fits := by decide

/-- A hold in milliseconds has at most three digits. -/
theorem length_hold {holdMs : ℤ} (hlow : 50 ≤ holdMs) (hhigh : holdMs ≤ 500) :
    (FlatJson.valueText (.integer holdMs)).length ≤ 3 := by
  have hlen : (FlatJson.natText holdMs.natAbs).length ≤ 3 :=
    FlatJson.length_natText_le (by decide) (by omega)
  simpa [FlatJson.valueText, FlatJson.signText, not_lt.mpr (by omega : 0 ≤ holdMs)] using hlen

theorem length_pulse {direction : Direction} {holdMs : ℤ} (hlow : 50 ≤ holdMs)
    (hhigh : holdMs ≤ 500) :
    (FlatJson.render (pulseMessage direction holdMs)).length ≤ 100 := by
  have hd := length_direction direction
  have hh := length_hold hlow hhigh
  simp only [pulseMessage, FlatJson.render, FlatJson.memberText, FlatJson.tailText,
    FlatJson.quoted, FlatJson.valueText, List.length_cons, List.length_append, List.length_nil]
    at hh ⊢
  simp only [show "command".toList.length = 7 from rfl, show "source".toList.length = 6 from rfl,
    show "desk_service".toList.length = 12 from rfl, show "hold_ms".toList.length = 7 from rfl]
  omega

theorem wireObject_pulse {direction : Direction} {holdMs : ℤ} (hlow : 50 ≤ holdMs)
    (hhigh : holdMs ≤ 500) : WireObject (pulseMessage direction holdMs) where
  plain := by
    simp only [FlatJson.Plain, pulseMessage, List.forall_mem_cons]
    exact ⟨⟨by decide, plain_direction direction⟩, ⟨by decide, by decide⟩, ⟨by decide, trivial⟩,
      by simp⟩
  ascii := by
    refine ascii_render ?_
    simp only [pulseMessage, List.forall_mem_cons]
    exact ⟨asciiMember_string ⟨by decide, ascii_direction direction⟩,
      asciiMember_string (by decide), asciiMember_number (by decide) (by simp), by simp⟩
  nodup := by
    show ["command".toList, "source".toList, "hold_ms".toList].Nodup
    decide
  fits := le_trans (length_pulse hlow hhigh) (by decide)

theorem floatDigits_scale (q : ℚ) : (floatDigits q).2 ≤ 16 := by
  unfold floatDigits
  dsimp only
  cases h : (List.range 16).find? _ with
  | none => simp
  | some k =>
    have := List.mem_range.mp (List.mem_of_find?_eq_some h)
    simp only [Option.getD_some]
    omega

/-- The text of a height in the physical range is short. -/
theorem length_basis {q : ℚ} (hlow : 73 ≤ q) (hhigh : q ≤ 118) :
    (FlatJson.valueText (.decimal (floatDigits q).1 (floatDigits q).2)).length ≤ 21 := by
  have hscale := floatDigits_scale q
  obtain ⟨k, hk⟩ : ∃ k, floatDigits q = (Ieee.roundHalfEven (q * 10 ^ (k + 1)), k) := ⟨_, rfl⟩
  rw [hk] at hscale ⊢
  have hpos : (0 : ℚ) < 10 ^ (k + 1) := by positivity
  have hq : (0 : ℚ) ≤ q := by linarith
  have hnonneg : 0 ≤ Ieee.roundHalfEven (q * 10 ^ (k + 1)) := by
    refine Ieee.le_roundHalfEven ?_
    rw [Int.cast_zero]
    positivity
  have hbound : Ieee.roundHalfEven (q * 10 ^ (k + 1)) ≤ 118 * 10 ^ (k + 1) :=
    Ieee.roundHalfEven_le (by push_cast; nlinarith)
  have hwhole : (Ieee.roundHalfEven (q * 10 ^ (k + 1))).natAbs / 10 ^ (k + 1) < 10 ^ 3 := by
    have hle : (Ieee.roundHalfEven (q * 10 ^ (k + 1))).natAbs ≤ 118 * 10 ^ (k + 1) := by
      zify
      rw [abs_of_nonneg hnonneg]
      exact hbound
    have hdiv : (Ieee.roundHalfEven (q * 10 ^ (k + 1))).natAbs / 10 ^ (k + 1) ≤ 118 :=
      Nat.div_le_of_le_mul (hle.trans_eq (mul_comm _ _))
    omega
  have hlen := FlatJson.length_natText_le (by decide) hwhole
  simp only [FlatJson.valueText, FlatJson.signText, if_neg (not_lt.mpr hnonneg),
    List.length_append, List.length_cons, FlatJson.length_fixedText]
  omega

theorem length_wake {direction : Direction} {q : ℚ} (hlow : 73 ≤ q) (hhigh : q ≤ 118) :
    (FlatJson.render (wakeMessage direction q)).length ≤ 160 := by
  have hd := length_direction direction
  have hb := length_basis hlow hhigh
  have hh : (FlatJson.valueText (.integer 100)).length = 3 := by decide
  simp only [wakeMessage, FlatJson.render, FlatJson.memberText, FlatJson.tailText,
    FlatJson.quoted, List.length_cons, List.length_append, List.length_nil, hh]
  simp only [FlatJson.valueText, FlatJson.quoted, List.length_cons, List.length_append,
    List.length_nil] at hb ⊢
  simp only [show "command".toList.length = 7 from rfl, show "source".toList.length = 6 from rfl,
    show "desk_service".toList.length = 12 from rfl, show "hold_ms".toList.length = 7 from rfl,
    show "WAKE".toList.length = 4 from rfl, show "direction".toList.length = 9 from rfl,
    show "basis_height_cm".toList.length = 15 from rfl]
  omega

theorem wireObject_wake {direction : Direction} {q : ℚ} (hlow : 73 ≤ q) (hhigh : q ≤ 118) :
    WireObject (wakeMessage direction q) where
  plain := by
    simp only [FlatJson.Plain, wakeMessage, List.forall_mem_cons]
    exact ⟨⟨by decide, by decide⟩, ⟨by decide, by decide⟩, ⟨by decide, plain_direction direction⟩,
      ⟨by decide, trivial⟩, ⟨by decide, trivial⟩, by simp⟩
  ascii := by
    refine ascii_render ?_
    simp only [wakeMessage, List.forall_mem_cons]
    exact ⟨asciiMember_string (by decide), asciiMember_string (by decide),
      asciiMember_string ⟨by decide, ascii_direction direction⟩,
      asciiMember_number (by decide) (by simp), asciiMember_number (by decide) (by simp), by simp⟩
  nodup := by
    show ["command".toList, "source".toList, "direction".toList, "hold_ms".toList,
      "basis_height_cm".toList].Nodup
    decide
  fits := le_trans (length_wake hlow hhigh) (by decide)

theorem ascii_timestamp (t : Timestamp) : Ascii t.text := by
  unfold Timestamp.text
  split <;> simp [ascii_fixedText]

theorem plain_timestamp (t : Timestamp) : FlatJson.PlainString t.text := by
  unfold Timestamp.text
  split <;> simp [FlatJson.plainString_cons, FlatJson.plainString_append,
    FlatJson.plainString_fixedText, FlatJson.plainString_nil]

/-- A timestamp has at most 27 characters. -/
theorem length_timestamp (t : Timestamp) : 1 ≤ t.text.length ∧ t.text.length ≤ 27 := by
  unfold Timestamp.text
  split <;> simp

/-- **Different timestamps have different texts.** -/
theorem text_injective {t u : Timestamp} (h : t.text = u.text) : t = u := by
  obtain ⟨y, mo, d, hh, mi, se, us, hy, hmo, hd, hhh, hmi, hse, hus⟩ := t
  obtain ⟨y', mo', d', hh', mi', se', us', hy', hmo', hd', hhh', hmi', hse', hus'⟩ := u
  have fields {width n n' : ℕ} {c c' : Char} {rest rest' : List Char}
      (heq : FlatJson.fixedText width n ++ c :: rest =
        FlatJson.fixedText width n' ++ c' :: rest') (hn : n < 10 ^ width)
      (hn' : n' < 10 ^ width) : n = n' ∧ rest = rest' := by
    obtain ⟨hfirst, hrest⟩ := List.append_inj heq (by simp)
    exact ⟨FlatJson.fixedText_injective hn hn' hfirst, (List.cons.inj hrest).2⟩
  unfold Timestamp.text at h
  dsimp only at h
  obtain ⟨rfl, h⟩ := fields h (by omega) (by omega)
  obtain ⟨rfl, h⟩ := fields h (by omega) (by omega)
  obtain ⟨rfl, h⟩ := fields h (by omega) (by omega)
  obtain ⟨rfl, h⟩ := fields h (by omega) (by omega)
  obtain ⟨rfl, h⟩ := fields h (by omega) (by omega)
  obtain ⟨hseconds, h⟩ := List.append_inj h (by simp)
  have hsecond : se = se' := FlatJson.fixedText_injective (by omega) (by omega) hseconds
  subst hsecond
  obtain ⟨hfraction, _⟩ := List.append_inj' h rfl
  have hmicro : us = us' := by
    split_ifs at hfraction with hz hz'
    · omega
    · exact FlatJson.fixedText_injective (by omega) (by omega) (List.cons.inj hfraction).2
  subst hmicro
  rfl

theorem length_height (o : Observation) :
    (FlatJson.render (heightMessage o)).length ≤ 130 := by
  have ht := (length_timestamp o.observedAt).2
  have hhigh := o.high
  have hwhole : (FlatJson.natText (o.millimetres / 10)).length ≤ 3 :=
    FlatJson.length_natText_le (by decide) (by omega)
  have hdecimal : (FlatJson.valueText (.decimal o.millimetres 0)).length ≤ 5 := by
    simp only [FlatJson.valueText, FlatJson.signText, Int.natAbs_natCast,
      if_neg (not_lt.mpr (Int.natCast_nonneg o.millimetres)), zero_add, pow_one,
      List.length_append, List.length_cons, FlatJson.length_fixedText]
    omega
  simp only [heightMessage, FlatJson.render, FlatJson.memberText, FlatJson.tailText,
    FlatJson.quoted, List.length_cons, List.length_append, List.length_nil]
  simp only [FlatJson.valueText, FlatJson.quoted, List.length_cons, List.length_append,
    List.length_nil] at hdecimal ⊢
  simp only [show "schema".toList.length = 6 from rfl,
    show "smartdesk.height.v1".toList.length = 19 from rfl,
    show "observed_at".toList.length = 11 from rfl, show "height_cm".toList.length = 9 from rfl]
  omega

theorem wireObject_height (o : Observation) : WireObject (heightMessage o) where
  plain := by
    simp only [FlatJson.Plain, heightMessage, List.forall_mem_cons]
    exact ⟨⟨by decide, by decide⟩, ⟨by decide, plain_timestamp _⟩, ⟨by decide, trivial⟩, by simp⟩
  ascii := by
    refine ascii_render ?_
    simp only [heightMessage, List.forall_mem_cons]
    have hobserved : AsciiMember ("observed_at".toList, .string o.observedAt.text) :=
      ⟨show Ascii "observed_at".toList by decide, fun s heq => by
        cases heq
        exact ascii_timestamp _⟩
    exact ⟨asciiMember_string (by decide), hobserved, asciiMember_number (by decide) (by simp),
      by simp⟩
  nodup := by
    show ["schema".toList, "observed_at".toList, "height_cm".toList].Nodup
    decide
  fits := le_trans (length_height o) (by decide)

example : RelayClient.wake .up (.finite 80) = .ok
    ("\x7b\"command\":\"WAKE\",\"source\":\"desk_service\",\"direction\":\"UP\",\"hold_ms\":100," ++
      "\"basis_height_cm\":80.0\x7d").toList := by decide +kernel

end SmartDesk.Wire

import Mathlib.Data.List.TakeWhile
import SmartDesk.Wire.Messages
import SmartDesk.Firmware.Handler
import SmartDesk.Lib.Transition

/-!
# Which observations refresh the height lease

The host publishes its heights with strictly increasing timestamps, but the
broker may deliver one again, and the retained copy late.  The firmware compares
a timestamp with the last accepted one only, for equality.

* `parseHeight_heightPayload` — a published height is accepted by the parser.
* `handleHeight_heightPayload` — so `handleHeight` has three outcomes for it.
* `LeaseState`, `leaseStep` — the firmware together with the observations that it
  has accepted in the current session.
* `lease_refreshed_by_newer` — **in a run in which no delivery is older than the
  newest accepted one, only newer observations change the session.**
* `lease_refreshed_by_older` — an older delivery does replace the height and the
  lease.
-/

namespace SmartDesk.Wire

open SmartDesk.Firmware

/-! ## A published height on the firmware side -/

theorem cString_ascii {text : List Char} (hascii : Ascii text) (hplain : FlatJson.PlainString text) :
    cString (ascii text) = ascii text := by
  rw [cString, List.takeWhile_eq_self_iff]
  intro b hb
  obtain ⟨c, hc, rfl⟩ := List.mem_map.mp hb
  have hlow := (hplain c hc).2.2
  have hhigh := hascii c hc
  rw [decide_eq_true_iff]
  intro hzero
  have hnat := congrArg UInt8.toNat hzero
  rw [UInt8.toNat_ofNat'] at hnat
  have : (0 : UInt8).toNat = 0 := rfl
  omega

variable {P : Platform}

/-- What the parser sees of the three members of a height. -/
theorem parseObservation_height {observedAt : Bytes} {height : Ieee}
    (hcstring : cString observedAt = observedAt) (hlow : 1 ≤ observedAt.length)
    (hhigh : observedAt.length ≤ 40) (hm : measuredHeightAllowed height = true) :
    parseObservation maxObservedAtBytes
        [(ascii "schema".toList, .string (ascii "smartdesk.height.v1".toList)),
          (ascii "observed_at".toList, .string observedAt),
          (ascii "height_cm".toList, .float height)] {} =
      .ok { heightCm := height, observedAt := observedAt } := by
  generalize hobject : ([(ascii "schema".toList, .string (ascii "smartdesk.height.v1".toList)),
    (ascii "observed_at".toList, .string observedAt),
    (ascii "height_cm".toList, .float height)] : List (Bytes × JsonScalar)) = object
  have hkeys : hasExactKeys object
      [literal "schema", literal "observed_at", literal "height_cm"] = true := by
    subst hobject
    rfl
  have hschema : (lookup object (literal "schema")).asCString =
      some (literal "smartdesk.height.v1") := by
    subst hobject
    rfl
  have hobserved : (lookup object (literal "observed_at")).asCString = some observedAt := by
    subst hobject
    exact congrArg some hcstring
  have hheight : (lookup object (literal "height_cm")).asFloat = some height := by
    subst hobject
    rfl
  have hlength : ¬ (observedAt.length = 0 ∨ maxObservedAtBytes < observedAt.length ∨
      48 ≤ observedAt.length) := by
    rw [maxObservedAtBytes]
    omega
  rw [parseObservation, if_neg (fun h => h hkeys), if_neg (fun h => h hschema), hobserved, hheight]
  simp only [if_neg hlength]
  exact if_neg fun h => h hm

/-- **A published height is accepted**, with its own timestamp. -/
theorem parseHeight_heightPayload (hd : Deserializes P.deserializeJson) (o : Observation) :
    ∃ height, measuredHeightAllowed height = true ∧
      parseHeight P.deserializeJson (heightPayload o) maxHeightPayloadBytes maxObservedAtBytes {} =
        .ok { heightCm := height, observedAt := ascii o.observedAt.text } := by
  obtain ⟨members, hread, hmembers⟩ := hd _ (wireObject_height o)
  have hlen := length_height o
  cases hmembers with
  | @cons _ schema _ _ hschema hmembers =>
  cases hmembers with
  | @cons _ observed _ _ hobserved hmembers =>
  cases hmembers with
  | @cons _ height _ _ hheight hmembers =>
    cases hmembers
    obtain ⟨schemaKey, schemaValue⟩ := schema
    obtain ⟨observedKey, observedValue⟩ := observed
    obtain ⟨heightKey, heightValue⟩ := height
    obtain ⟨rfl, rfl⟩ : schemaKey = _ ∧ schemaValue = _ := hschema
    obtain ⟨rfl, rfl⟩ : observedKey = _ ∧ observedValue = _ := hobserved
    obtain ⟨rfl, x, rfl, hx⟩ : heightKey = _ ∧ Denotes (.decimal o.millimetres 0) heightValue :=
      hheight
    have hlow : ((730 : ℕ) : ℚ) ≤ o.millimetres := by exact_mod_cast o.low
    have hhigh : (o.millimetres : ℚ) ≤ (1180 : ℕ) := by exact_mod_cast o.high
    obtain ⟨r, rfl, hr⟩ := hx 73 118 (by decide) (by decide) (by push_cast at *; linarith)
      (by push_cast at *; linarith)
    have hm : measuredHeightAllowed (.finite r) = true :=
      measuredHeightAllowed_iff.mpr ⟨r, rfl, by exact_mod_cast hr.1, by exact_mod_cast hr.2⟩
    have htext := length_timestamp o.observedAt
    refine ⟨.finite r, hm, ?_⟩
    have hpayload : ¬ ((heightPayload o).length = 0 ∨
        maxHeightPayloadBytes < (heightPayload o).length) := by
      have hpos : (FlatJson.render (heightMessage o)).length ≠ 0 := by
        simp [heightMessage, FlatJson.render]
      rw [heightPayload, ascii, List.length_map, maxHeightPayloadBytes]
      omega
    rw [parseHeight, if_neg hpayload, heightPayload, hread]
    exact parseObservation_height (cString_ascii (ascii_timestamp _) (plain_timestamp _))
      (by simpa [ascii] using htext.1) (by simp only [ascii, List.length_map]; omega) hm

/-! ## What the other methods do to the session -/

/-- A session that still has its baseline has the same last timestamp. -/
def KeepsObserved (w w' : World P) : Prop :=
  w'.session.hasBaseline = true →
    w.session.hasBaseline = true ∧ w'.session.lastObservedAt = w.session.lastObservedAt

namespace KeepsObserved

variable {w w' w'' : World P}

theorem of_session (h : w'.session = w.session) : KeepsObserved w w' := by
  intro hb
  rw [h] at hb ⊢
  exact ⟨hb, rfl⟩

theorem of_lost (h : w'.session.hasBaseline = false) : KeepsObserved w w' :=
  fun hb => absurd (h.symm.trans hb) (by decide)

theorem trans (h : KeepsObserved w w') (h' : KeepsObserved w' w'') : KeepsObserved w w'' := by
  intro hb
  obtain ⟨hmiddle, hlast⟩ := h' hb
  obtain ⟨hfirst, hlast'⟩ := h hmiddle
  exact ⟨hfirst, hlast.trans hlast'⟩

theorem failClosed (w : World P) : KeepsObserved w w.failClosed := by
  refine of_lost ?_
  unfold World.failClosed
  dsimp only
  split_ifs <;> rfl

theorem session_publishStatus (w : World P) (event code detail : String) :
    (w.publishStatus event code detail).2.session = w.session := by
  unfold World.publishStatus
  dsimp only
  split_ifs <;> rfl

theorem publishOrFail (w : World P) (event code detail : String) :
    KeepsObserved w (w.publishOrFail event code detail) := by
  have hsent : KeepsObserved w (w.publishStatus event code detail).2 :=
    of_session (session_publishStatus w event code detail)
  unfold World.publishOrFail
  dsimp only
  split_ifs
  · exact hsent
  · exact hsent.trans (failClosed _)

theorem publishIfConnected (w : World P) (event code detail : String) :
    KeepsObserved w (w.publishIfConnected event code detail) := by
  have hup : KeepsObserved w w.mqttConnected.2 := of_session rfl
  unfold World.publishIfConnected
  dsimp only
  split_ifs
  · exact hup.trans (publishOrFail _ _ _ _)
  · exact hup

theorem relayCall (w : World P) (op : RelayOp) : KeepsObserved w (w.relayCall op).2 :=
  of_session rfl

theorem reject (w : World P) (code detail : String) : KeepsObserved w (w.reject code detail) :=
  (relayCall w .stop).trans (publishOrFail _ _ _ _)

theorem stopAndPublish (w : World P) (code detail : String) :
    KeepsObserved w (w.stopAndPublish code detail) :=
  (relayCall w .stop).trans (publishOrFail _ _ _ _)

theorem updateArming (w : World P) (now : UInt32) : KeepsObserved w (w.updateArming now) := by
  have harmed : KeepsObserved w { w with session := { w.session with armed := true } } :=
    fun hb => ⟨hb, rfl⟩
  unfold World.updateArming
  split_ifs
  · exact of_session rfl
  · exact of_session rfl
  · exact harmed.trans (publishIfConnected _ _ _ _)
  · exact of_session rfl

theorem stopAtLimit (w : World P) (height : Ieee) : KeepsObserved w (w.stopAtLimit height) := by
  have hrising := relayCall w .direction
  have hfalling := hrising.trans (relayCall _ .direction)
  unfold World.stopAtLimit
  dsimp only
  split_ifs
  · exact hrising.trans (stopAndPublish _ _ _)
  · exact hfalling.trans (stopAndPublish _ _ _)
  · exact hfalling

theorem handleMotion (w : World P) (requested : RelayDirection) (holdMs : ℕ) :
    KeepsObserved w (w.handleMotion requested holdMs) := by
  have hnow : KeepsObserved w w.millis.2 := of_session rfl
  unfold World.handleMotion
  dsimp only
  split_ifs
  · exact hnow.trans ((relayCall _ _).trans (publishOrFail _ _ _ _))
  all_goals exact hnow.trans (reject _ _ _)

theorem handleControl (w : World P) (payload : Bytes) :
    KeepsObserved w (w.handleControl payload) := by
  unfold World.handleControl
  split
  · exact reject _ _ _
  · split
    · exact (relayCall w .stop).trans (publishOrFail _ _ _ _)
    · exact handleMotion _ _ _
    · exact handleMotion _ _ _

theorem tick (w : World P) (now : UInt32) : KeepsObserved w (w.tick now) := by
  have harm := updateArming w now
  have hstop := harm.trans (relayCall _ .stop)
  have hdrop : KeepsObserved w (World.relayCall .stop (w.updateArming now)).2.dropLease :=
    hstop.trans fun hb => ⟨hb, rfl⟩
  unfold World.tick
  dsimp only
  split_ifs
  · exact hdrop.trans (publishOrFail _ _ _ _)
  · exact hdrop
  · exact harm

/-- Any call that is not a height keeps the last timestamp or ends the session. -/
theorem run (w : World P) (call : HandlerCall)
    (hcall : ∀ topic payload, call = .handleMessage topic payload →
      cString topic ≠ literal mqttHeightTopic) : KeepsObserved w (call.run w) := by
  cases call with
  | beginSession now => exact of_lost rfl
  | invalidateSession => exact of_lost rfl
  | handleMessage topic payload =>
    show KeepsObserved w (w.handleMessage topic payload)
    unfold World.handleMessage
    rw [if_neg (hcall topic payload rfl)]
    split_ifs
    · exact handleControl w payload
    · exact of_session rfl
  | tick now => exact tick w now
  | publishStatus event code detail => exact of_session (session_publishStatus _ _ _ _)
  | publishHeartbeat now => exact of_session (session_publishStatus _ _ _ _)
  | handleTimeoutEvent => exact publishIfConnected _ _ _ _
  | failClosed => exact failClosed w
  | relayStop => exact relayCall w _
  | takeTimeoutEvent => exact relayCall w _
  | idle => exact relayCall w _

end KeepsObserved

/-! ## Sessions with their accepted observations -/

/-- The firmware and the observations accepted in the current session, newest
acceptance first. -/
structure LeaseState (P : Platform) where
  world : World P
  accepted : List Observation

/-- What can happen: the broker delivers a published height, once more or for
the first time, or any other method is called. -/
inductive LeaseStep where
  | deliver (o : Observation)
  | call (c : HandlerCall)

/-- A height delivered to the handler. -/
def deliver (w : World P) (o : Observation) : World P :=
  w.handleMessage (literal mqttHeightTopic) (heightPayload o)

/-- The observations that count as accepted after a delivery: `handleHeight`
takes the first one as the baseline and skips the last timestamp. -/
def acceptedAfter (s : LeaseState P) (o : Observation) : List Observation :=
  if (deliver s.world o).session.hasBaseline = false then []
  else if s.world.session.hasBaseline = false then [o]
  else if ascii o.observedAt.text = s.world.session.lastObservedAt then s.accepted
  else o :: s.accepted

/-- One step; all heights come from the host. -/
def leaseStep (s : LeaseState P) : LeaseStep → Option (LeaseState P)
  | .deliver o => some { world := deliver s.world o, accepted := acceptedAfter s o }
  | .call (.handleMessage topic payload) =>
      if cString topic = literal mqttHeightTopic then none
      else
        let w := s.world.handleMessage topic payload
        some { world := w, accepted := if w.session.hasBaseline then s.accepted else [] }
  | .call c =>
      let w := c.run s.world
      some { world := w, accepted := if w.session.hasBaseline then s.accepted else [] }

/-- The timestamp of the observation accepted last. -/
def LeaseState.last (s : LeaseState P) : Option Timestamp := s.accepted.head?.map (·.observedAt)

/-- No delivery is older than the newest accepted observation: it is the last
accepted one again, or newer than all of them. -/
def NotOlder (s : LeaseState P) : LeaseStep → Prop
  | .deliver o => s.world.session.hasBaseline = true →
      s.last = some o.observedAt ∨ ∀ a ∈ s.accepted, a.observedAt.Before o.observedAt
  | .call _ => True

instance (s : LeaseState P) : (l : LeaseStep) → Decidable (NotOlder s l)
  | .deliver o => inferInstanceAs (Decidable (s.world.session.hasBaseline = true →
      s.last = some o.observedAt ∨ ∀ a ∈ s.accepted, a.observedAt.Before o.observedAt))
  | .call _ => isTrue trivial

/-- Only a newer observation changes anything of the session behind its
baseline: the height, the lease, the arming. -/
def RefreshedByNewer (s : LeaseState P) : LeaseStep → Prop
  | .deliver o => s.world.session.hasBaseline = true →
      (deliver s.world o).session ≠ s.world.session →
        ∀ a ∈ s.accepted, a.observedAt.Before o.observedAt
  | .call _ => True

instance (s : LeaseState P) : (l : LeaseStep) → Decidable (RefreshedByNewer s l)
  | .deliver o => inferInstanceAs (Decidable (s.world.session.hasBaseline = true →
      (deliver s.world o).session ≠ s.world.session →
        ∀ a ∈ s.accepted, a.observedAt.Before o.observedAt))
  | .call _ => isTrue trivial

/-- The last timestamp is that of the observation accepted last. -/
def LastAccepted (s : LeaseState P) : Prop :=
  s.world.session.hasBaseline = true →
    s.last.map (fun t => ascii t.text) = some s.world.session.lastObservedAt

/-! ## One delivery -/

theorem deliver_eq (w : World P) (o : Observation) :
    deliver w o = w.handleHeight (heightPayload o) := by
  rw [deliver, World.handleMessage, if_pos (by decide)]

theorem copyObservedAt_timestamp (t : Timestamp) (destination : Bytes) :
    copyObservedAt (ascii t.text) destination 48 = ascii t.text := by
  have hlen := length_timestamp t
  rw [copyObservedAt, if_neg]
  rw [ascii, List.length_map]
  omega

/-- The first height of a session becomes the baseline. -/
theorem deliver_baseline (hd : Deserializes P.deserializeJson) {w : World P} (o : Observation)
    (hb : w.session.hasBaseline = false) :
    (deliver w o).session.hasBaseline = true ∧
      (deliver w o).session.lastObservedAt = ascii o.observedAt.text := by
  obtain ⟨height, _, hparse⟩ := parseHeight_heightPayload hd o
  have hb' : ¬ w.millis.2.session.hasBaseline = true := by
    rw [show w.millis.2.session = w.session from rfl, hb]
    decide
  rw [deliver_eq, World.handleHeight, hparse]
  simp only [if_pos hb']
  exact ⟨rfl, copyObservedAt_timestamp _ _⟩

/-- **The last height again changes nothing.** -/
theorem session_deliver_same (hd : Deserializes P.deserializeJson) {w : World P} (o : Observation)
    (hb : w.session.hasBaseline = true)
    (hsame : ascii o.observedAt.text = w.session.lastObservedAt) :
    (deliver w o).session = w.session := by
  obtain ⟨height, _, hparse⟩ := parseHeight_heightPayload hd o
  have hb' : ¬ ¬ w.millis.2.session.hasBaseline = true := fun h => h hb
  rw [deliver_eq, World.handleHeight, hparse]
  simp only [if_neg hb']
  have hsame' : ascii o.observedAt.text = w.millis.2.session.lastObservedAt := hsame
  rw [if_pos hsame']
  rfl

theorem lastObservedAt_acceptHeight (w : World P) (observation : Height) (now : UInt32)
    (hkept : (w.acceptHeight observation now).session.hasBaseline = true) :
    (w.acceptHeight observation now).session.lastObservedAt =
      copyObservedAt observation.observedAt w.session.lastObservedAt 48 := by
  unfold World.acceptHeight at hkept ⊢
  dsimp only at hkept ⊢
  generalize hw : ({ w with session := _ } : World P) = w₁ at hkept ⊢
  have hframe := (KeepsObserved.updateArming w₁ now).trans
    (KeepsObserved.stopAtLimit (w₁.updateArming now) observation.heightCm)
  rw [(hframe hkept).2, ← hw]

/-- **Any other height is accepted**, or ends the session with a failed publish. -/
theorem deliver_other (hd : Deserializes P.deserializeJson) {w : World P} (o : Observation)
    (hb : w.session.hasBaseline = true)
    (hother : ascii o.observedAt.text ≠ w.session.lastObservedAt) :
    (deliver w o).session.hasBaseline = true →
      (deliver w o).session.lastObservedAt = ascii o.observedAt.text := by
  obtain ⟨height, _, hparse⟩ := parseHeight_heightPayload hd o
  have hb' : ¬ ¬ w.millis.2.session.hasBaseline = true := fun h => h hb
  have haccept : deliver w o = w.millis.2.acceptHeight
      { heightCm := height, observedAt := ascii o.observedAt.text } w.millis.1 := by
    rw [deliver_eq, World.handleHeight, hparse]
    simp only [if_neg hb']
    exact if_neg hother
  rw [haccept]
  intro hkept
  rw [lastObservedAt_acceptHeight _ _ _ hkept]
  exact copyObservedAt_timestamp _ _

/-! ## Whole runs -/

/-- **One step keeps the record of the last timestamp.** -/
theorem lastAccepted_step (hd : Deserializes P.deserializeJson) {s s' : LeaseState P}
    {l : LeaseStep} (h : LastAccepted s) (hs : leaseStep s l = some s') : LastAccepted s' := by
  have hother (w : World P) (hkeep : KeepsObserved s.world w) : LastAccepted
      ({ world := w, accepted := if w.session.hasBaseline then s.accepted else [] } :
        LeaseState P) := by
    intro hb
    obtain ⟨hbefore, hlast⟩ := hkeep hb
    have hb' : w.session.hasBaseline = true := hb
    show (LeaseState.last ⟨w, if w.session.hasBaseline then s.accepted else []⟩).map _ = _
    rw [if_pos hb', hlast]
    exact h hbefore
  cases l with
  | deliver o =>
    cases hs
    intro hb
    have hb' : (deliver s.world o).session.hasBaseline = true := hb
    show (LeaseState.last ⟨_, acceptedAfter s o⟩).map _ = _
    unfold acceptedAfter
    rw [if_neg (by rw [hb']; decide)]
    split_ifs with hfirst hsame
    · exact congrArg some (deliver_baseline hd o hfirst).2.symm
    · have hbefore := Bool.eq_true_of_not_eq_false hfirst
      rw [session_deliver_same hd o hbefore hsame]
      exact h hbefore
    · have hbefore := Bool.eq_true_of_not_eq_false hfirst
      exact congrArg some (deliver_other hd o hbefore hsame hb').symm
  | call c =>
    cases c with
    | handleMessage topic payload =>
      by_cases htopic : cString topic = literal mqttHeightTopic
      · simp only [leaseStep, if_pos htopic] at hs
        cases hs
      simp only [leaseStep, if_neg htopic] at hs
      cases hs
      refine hother (s.world.handleMessage topic payload) ?_
      refine KeepsObserved.run s.world (.handleMessage topic payload) ?_
      intro t p heq
      cases heq
      exact htopic
    | _ =>
      cases hs
      exact hother _ (KeepsObserved.run s.world _ fun t p heq => by cases heq)

/-- **One delivery.**  It changes the session for newer observations only, if
and only if it is not older than the newest accepted one. -/
theorem notOlder_iff_refreshedByNewer (hd : Deserializes P.deserializeJson) {s : LeaseState P}
    (h : LastAccepted s) (l : LeaseStep) : NotOlder s l ↔ RefreshedByNewer s l := by
  cases l with
  | call c => exact Iff.rfl
  | deliver o =>
    constructor
    · intro hok hb hchanged
      refine (hok hb).resolve_left fun hlast => hchanged ?_
      have hsame := h hb
      rw [hlast] at hsame
      exact session_deliver_same hd o hb (Option.some.inj hsame)
    · intro hrefresh hb
      by_cases hlast : s.last = some o.observedAt
      · exact .inl hlast
      · refine .inr (hrefresh hb fun hsame => hlast ?_)
        have htext := h hb
        have heq : ascii o.observedAt.text = s.world.session.lastObservedAt := by
          by_contra hother
          have hnew := deliver_other hd o hb hother
          rw [hsame] at hnew
          exact hother (hnew hb).symm
        cases hhead : s.last with
        | none =>
          rw [hhead] at htext
          cases htext
        | some t =>
          rw [hhead, ← heq] at htext
          have hchars := ascii_injective (ascii_timestamp t) (ascii_timestamp _)
            (Option.some.inj htext)
          rw [text_injective hchars]

/-- **Only newer observations refresh the lease**, as far as the firmware
ensures it: along a run, whatever else is called in between, every delivery
changes the session for a newer observation only, if and only if no delivery is
older than the newest observation accepted in the session. -/
theorem lease_refreshed_by_newer (hd : Deserializes P.deserializeJson) (env : ℕ → Reading P)
    (mqtt : P.Client) (steps : List LeaseStep) :
    Transition.Meets leaseStep RefreshedByNewer ⟨World.boot env mqtt, []⟩ steps ↔
      Transition.Meets leaseStep NotOlder ⟨World.boot env mqtt, []⟩ steps := by
  have hboot : LastAccepted (⟨World.boot env mqtt, []⟩ : LeaseState P) :=
    fun hb => absurd hb (by simp [World.boot])
  exact Transition.meets_congr (fun s l s' h hs => lastAccepted_step hd h hs)
    (fun s l h => (notOlder_iff_refreshedByNewer hd h l).symm) hboot

/-- An environment with the link up and a clock that advances by 20 ms. -/
def quietEnv (i : ℕ) : Reading flatPlatform :=
  { millis := UInt32.ofNat (20 * i), wifiStatus := 3, net := ⟨true, true, none⟩
    preempt := fun _ => ⟨10, false⟩, burst := 1 }

/-- A height measured some seconds after noon. -/
def afterNoon (second millimetres : ℕ) (hs : second ≤ 59) (hlow : 730 ≤ millimetres)
    (hhigh : millimetres ≤ 1180) : Observation :=
  { observedAt :=
      { year := 2026, month := 7, day := 1, hour := 12, minute := 0, second := second
        microsecond := 0, year_le := by decide, month_le := by decide, day_le := by decide
        hour_le := by decide, minute_le := by decide, second_le := hs
        microsecond_le := by decide }
    millimetres := millimetres, low := hlow, high := hhigh }

/-- 90 cm at noon. -/
def earlier : Observation := afterNoon 0 900 (by decide) (by decide) (by decide)

/-- 110 cm one second later. -/
def later : Observation := afterNoon 1 1100 (by decide) (by decide) (by decide)

/-- Delivered in order, and the last one twice, only the newer one counts. -/
theorem lease_refreshed_in_order :
    Transition.Meets leaseStep RefreshedByNewer ⟨World.boot quietEnv true, []⟩
      [.deliver earlier, .deliver later, .deliver later] := by
  refine (lease_refreshed_by_newer deserializes_deserializeFlat quietEnv true _).mpr ?_
  decide +kernel

/-- **The older height delivered again after the newer one** replaces it. -/
theorem lease_refreshed_by_older :
    ¬ ∀ (env : ℕ → Reading flatPlatform) (steps : List LeaseStep),
      Transition.Meets leaseStep RefreshedByNewer ⟨World.boot env true, []⟩ steps := by
  intro h
  have hrun := h quietEnv [.deliver earlier, .deliver later, .deliver earlier]
  revert hrun
  decide +kernel

end SmartDesk.Wire

import SmartDesk.Wled.Client

/-!
# What a failed request leaves

Runs of operations on a started client, against any device.

* `OnlyWled` — the checks of a response raise nothing but `WledError`s.
* `Post` — what an operation's body asked, raised and left, with its rule for sequences.
* `Track` — a run, with the response that the last successful state operation has read.
* `errors_recorded_iff` — **an operation returns or raises a `WledError` that the snapshot records,
  over the fields of that one response, exactly when each response that it receives is readable:
  it does not nest too deep, and the state that a colour or an effect starts from has an `on`.**
-/

namespace SmartDesk.Wled

open Effect Effect.Eff PyText

/-! ## The checks -/

/-- What is raised is a `WledError`. -/
def OnlyWled {α : Type} (x : Except Exc α) : Prop := ∀ e, x = .error e → e.isWled = true

namespace OnlyWled

variable {α β : Type}

theorem ok (a : α) : OnlyWled (.ok a) := fun _ h => by cases h

theorem error {e : Exc} (h : e.isWled = true) : OnlyWled (.error e : Except Exc α) := by
  rintro e' ⟨⟩
  exact h

theorem bind {x : Except Exc α} {f : α → Except Exc β} (hx : OnlyWled x)
    (hf : ∀ a, OnlyWled (f a)) : OnlyWled (x >>= f) := by
  cases x with
  | error e => exact error (hx e rfl)
  | ok a => exact hf a

theorem mapM {f : α → Except Exc β} (hf : ∀ a, OnlyWled (f a)) (l : List α) :
    OnlyWled (l.mapM f) := by
  induction l with
  | nil => exact ok []
  | cons a l ih =>
    rw [List.mapM_cons]
    exact (hf a).bind fun b => ih.bind fun bs => ok (b :: bs)

theorem forM {f : α → Except Exc Unit} (hf : ∀ a, OnlyWled (f a)) (l : List α) :
    OnlyWled (l.forM f) := by
  induction l with
  | nil => exact ok ()
  | cons a l ih => exact (hf a).bind fun _ => ih

end OnlyWled

theorem onlyWled_validSegments (state : JsonObject) : OnlyWled (validSegments state) := by
  unfold validSegments
  split
  · exact .error rfl
  · dsimp only
    split
    · exact .error rfl
    · exact .ok _

theorem onlyWled_segmentValues (segment : JsonObject) : OnlyWled (segmentValues segment) := by
  unfold segmentValues
  split
  · split
    · exact .error rfl
    · exact .ok _
  · exact .error rfl

theorem onlyWled_snapshotFromState (capabilities : Option WledCapabilities) (now : Instant)
    (state : JsonObject) : OnlyWled (snapshotFromState capabilities now state) := by
  unfold snapshotFromState
  split
  · exact .error rfl
  · exact .error rfl
  · split
    · exact .error rfl
    · refine .bind (onlyWled_validSegments state) fun segments => ?_
      split
      · refine .bind (.mapM (fun _ => onlyWled_segmentValues _) _) fun values => ?_
        cases values with
        | nil => exact .error rfl
        | cons first rest => exact .ok _
      · exact .ok _

theorem onlyWled_verifyResponse (response : JsonObject) (ids : List ℤ) (wanted : Wanted) :
    OnlyWled (verifyResponse response ids wanted) := by
  unfold verifyResponse
  split
  · exact .error rfl
  · refine .bind (onlyWled_validSegments response) fun segments => .forM (fun id => ?_) ids
    unfold verifySegment
    split
    · exact .error rfl
    · refine .bind (onlyWled_segmentValues _) fun actual => ?_
      split
      · exact .ok _
      · exact .error rfl

theorem onlyWled_parseCapabilities (now : Instant) (data : JsonObject) :
    OnlyWled (parseCapabilities now data) := by
  unfold parseCapabilities
  split
  · split
    · exact .ok _
    · exact .error rfl
  · exact .error rfl

theorem onlyWled_normalizeColor (color : PyStr) : OnlyWled (normalizeColor color) := by
  unfold normalizeColor
  split
  · exact .ok _
  · exact .error rfl

theorem onlyWled_normalizeOptional (color : Option PyStr) :
    OnlyWled (normalizeOptional color) := by
  cases color with
  | none => exact .ok none
  | some color => exact (onlyWled_normalizeColor color).bind fun normalized => .ok (some normalized)

/-- Of a response, only a body that nests too deep raises something else. -/
theorem object_isWled_iff {outcome : HttpOutcome} {e : Exc} (h : outcome.object = .error e) :
    e.isWled = true ↔ e ≠ .recursionError := by
  unfold HttpOutcome.object responseObject at h
  split at h
  · cases h
    decide
  · split at h
    · cases h
      decide
    · split at h
      · cases h
        decide
      · split at h <;> cases h <;> decide

/-! ## What a computation asked -/

/-- The response can be read: it does not nest too deep, and has an `on` where `lights` says that
the operation goes on with the segments of the state. -/
def Exchange.readable (lights : Bool) (x : Exchange) : Bool :=
  match x.outcome.object with
  | .error e => e ≠ .recursionError
  | .ok state =>
      !(lights && decide (x.request = .getState) && (validSegments state).isOk) ||
        (state.lookup (key "on")).isSome

/-- What was raised is no `WledError`. -/
def escaped {α : Type} : Except Exc α → Bool
  | .ok _ => false
  | .error e => !e.isWled

/-- The device was asked something, and one of the responses is unreadable if something
escaped. -/
def Asked (lights : Bool) (w : World) (escaped : Bool) (w' : World) : Prop :=
  ∃ fresh, w'.asked = w.asked ++ fresh ∧ fresh.all (Exchange.readable lights) = !escaped

theorem Asked.refl {lights : Bool} {w w' : World} (h : w'.asked = w.asked) :
    Asked lights w false w' := ⟨[], by rw [h, List.append_nil], rfl⟩

theorem Asked.trans {lights escaped : Bool} {w w₁ w' : World} (h : Asked lights w false w₁)
    (h' : Asked lights w₁ escaped w') : Asked lights w escaped w' := by
  obtain ⟨fresh, hasked, hall⟩ := h
  obtain ⟨fresh', hasked', hall'⟩ := h'
  refine ⟨fresh ++ fresh', by rw [hasked', hasked, List.append_assoc], ?_⟩
  rw [List.all_append, hall, hall']
  rfl

/-- What the body of an operation leaves: `good` when it returns, the snapshot as it was when it
raises. -/
structure Post {α : Type} (lights : Bool) (good : α → World → Prop) (w : World)
    (r : Except Exc α) (w' : World) : Prop where
  asked : Asked lights w (escaped r) w'
  good : ∀ a, r = .ok a → good a w'
  kept : ∀ e, r = .error e → w'.snapshot = w.snapshot

section Rules

variable {α β : Type} {lights : Bool} {w : World}

/-- The rule for a sequence: the first part leaves the snapshot as it was. -/
theorem Post.bind {c : Op α} {f : α → Op β} {good : α → World → Prop} {good' : β → World → Prop}
    (hc : Ensures c w (Post lights good w)) (hgood : ∀ a w₁, good a w₁ → w₁.snapshot = w.snapshot)
    (hf : ∀ a w₁, good a w₁ → Ensures (f a) w₁ (Post lights good' w₁)) :
    Ensures (c >>= f) w (Post lights good' w) := by
  refine ensures_bind.mpr (hc.mono ?_)
  rintro (e | a) w₁ ⟨hasked, ha, hkept⟩
  · exact ⟨hasked, nofun, fun e' _ => hkept e rfl⟩
  · refine (hf a w₁ (ha a rfl)).mono fun r w' h => ⟨hasked.trans h.asked, h.good, fun e he => ?_⟩
    rw [h.kept e he, hgood a w₁ (ha a rfl)]

theorem Post.mono {good good' : α → World → Prop} {r : Except Exc α} {w' : World}
    (h : Post lights good w r w') (hgood : ∀ a, good a w' → good' a w') :
    Post lights good' w r w' := ⟨h.asked, fun a ha => hgood a (h.good a ha), h.kept⟩

theorem post_lift {x : Except Exc α} (hx : OnlyWled x) :
    Ensures (lift x) w (Post lights (fun a w' => x = .ok a ∧ w' = w) w) := by
  refine ⟨?_, fun a ha => ⟨ha, rfl⟩, fun _ _ => rfl⟩
  have hescaped : escaped x = false := by
    cases x with
    | error e => rw [escaped, hx e rfl]; rfl
    | ok a => rfl
  exact hescaped ▸ Asked.refl rfl

theorem post_modify {f : World → World} (hasked : (f w).asked = w.asked) :
    Ensures (modify f) w (Post lights (fun _ w' => w' = f w) w) :=
  ⟨.refl hasked, fun _ _ => rfl, fun _ h => by cases h⟩

theorem post_pure (a : α) : Ensures (pure a) w (Post lights (fun b w' => b = a ∧ w' = w) w) :=
  ⟨.refl rfl, fun _ h => by cases h; exact ⟨rfl, rfl⟩, fun _ h => by cases h⟩

end Rules

/-! ## The parts of the operations -/

/-- The object of the last response. -/
def World.lastState (w : World) : Option JsonObject :=
  w.asked.getLast?.bind fun x => x.outcome.object.toOption

/-- A state response, with what else a snapshot was made from. -/
structure Reading where
  state : JsonObject
  capabilities : Option WledCapabilities
  observedAt : Instant

/-- The snapshot of the response. -/
def Reading.snapshot (r : Reading) : Except Exc WledSnapshot :=
  snapshotFromState r.capabilities r.observedAt r.state

def World.lastReading (w : World) : Option Reading :=
  w.lastState.map fun state => ⟨state, w.capabilities, w.clock⟩

/-- The client has the snapshot of its last response. -/
def World.Shows (w : World) (snapshot : WledSnapshot) : Prop :=
  w.snapshot = snapshot ∧ ∃ r, w.lastReading = some r ∧ r.snapshot = .ok snapshot

section Parts

variable {lights : Bool} {w : World}

theorem lastState_exchange (request : Request) (w : World) :
    (w.exchange request).lastState = (w.device w.asked.length).object.toOption := by
  simp [World.lastState, World.exchange]

theorem post_fetch {request : Request} (h : lights = false ∨ request ≠ .getState) :
    Ensures (fetch request) w
      (Post lights (fun state w' => w'.snapshot = w.snapshot ∧ w'.lastState = some state) w) := by
  unfold Ensures
  rw [fetch_eq]
  split
  · refine ⟨⟨[⟨request, w.device w.asked.length⟩], rfl, ?_⟩, fun state hstate => ⟨rfl, ?_⟩,
      fun _ _ => rfl⟩
    · rw [List.all_cons, List.all_nil, Bool.and_true]
      have hlights : (lights && decide (request = .getState)) = false := by
        rcases h with rfl | h
        · rfl
        · rw [decide_eq_false h, Bool.and_false]
      unfold Exchange.readable
      cases hobject : (w.device w.asked.length).object with
      | error e =>
        simp only [escaped, Bool.not_not]
        rw [Bool.eq_iff_iff, decide_eq_true_eq]
        exact (object_isWled_iff hobject).symm
      | ok state => simp only [hlights, Bool.false_and, Bool.not_false, Bool.true_or, escaped]
    · have hobject : (w.device w.asked.length).object = .ok state := hstate
      rw [lastState_exchange, hobject]
      rfl
  · exact ⟨.refl rfl, fun _ h => (by cases h), fun _ _ => rfl⟩

theorem post_powerUp (on : Json) :
    Ensures (powerUp on) w (Post lights (fun _ w' => w'.snapshot = w.snapshot) w) := by
  unfold powerUp
  split
  · refine Post.bind (post_fetch (.inr (by decide))) (fun _ _ h => h.1) fun _ w₁ h => ?_
    exact (post_pure ()).mono fun _ _ h' => h'.mono fun _ hw => by rw [hw.2, h.1]
  · exact (post_pure ()).mono fun _ _ h' => h'.mono fun _ hw => by rw [hw.2]

/-- Where an operation goes on with the segments of the state, a missing `on` escapes. -/
theorem post_lightSegments :
    Ensures lightSegments w (Post true (fun _ w' => w'.snapshot = w.snapshot) w) := by
  unfold lightSegments
  rw [ensures_bind]
  unfold Ensures
  rw [fetch_eq]
  split
  swap
  · exact ⟨.refl rfl, fun _ h => (by cases h), fun _ _ => rfl⟩
  -- The response is the only one so far; what follows decides whether it was readable.
  have hasked {r : Except Exc (List Segment)}
      (h : Exchange.readable true ⟨.getState, w.device w.asked.length⟩ = !escaped r) :
      Asked true w (escaped r) (w.exchange .getState) :=
    ⟨_, rfl, by rw [List.all_cons, h, List.all_nil, Bool.and_true]⟩
  unfold Exchange.readable at hasked
  cases hobject : (w.device w.asked.length).object with
  | error e =>
    rw [hobject] at hasked
    refine ⟨hasked ?_, fun _ h => (by cases h), fun _ _ => rfl⟩
    simp only [escaped, Bool.not_not]
    rw [Bool.eq_iff_iff, decide_eq_true_eq]
    exact (object_isWled_iff hobject).symm
  | ok state =>
    rw [hobject] at hasked
    show Ensures (lift (validSegments state) >>= _) _ _
    rw [ensures_bind, ensures_lift]
    cases hsegments : validSegments state with
    | error e =>
      have he := onlyWled_validSegments state e hsegments
      simp only [hsegments] at hasked
      exact ⟨hasked (by simp [escaped, he, Except.isOk, Except.toBool]), fun _ h => (by cases h),
        fun _ _ => rfl⟩
    | ok segments =>
      simp only [hsegments] at hasked
      show Ensures (lift (member state "on") >>= _) _ _
      rw [ensures_bind, ensures_lift, member]
      cases hon : state.lookup (key "on") with
      | none =>
        rw [hon] at hasked
        exact ⟨hasked rfl, fun _ h => (by cases h), fun _ _ => rfl⟩
      | some on =>
        rw [hon] at hasked
        have hreadable : Asked true w false (w.exchange .getState) :=
          hasked (r := .ok segments) rfl
        have hrest : Ensures (powerUp on >>= fun _ => pure segments) (w.exchange .getState)
            (Post true (fun _ w' => w'.snapshot = w.snapshot) (w.exchange .getState)) :=
          Post.bind (post_powerUp on) (fun _ _ h => h) fun _ w₁ h =>
            (post_pure segments).mono fun _ _ h' => h'.mono fun _ hw => by rw [hw.2, h]; rfl
        exact hrest.mono fun r w' h => ⟨hreadable.trans h.asked, h.good, h.kept⟩

theorem post_readSnapshot (state : JsonObject) :
    Ensures (readSnapshot state) w
      (Post lights (fun snapshot w' =>
        snapshotFromState w.capabilities w.clock state = .ok snapshot ∧ w' = w) w) :=
  ensures_get_bind.mpr (post_lift (onlyWled_snapshotFromState _ _ _))

theorem shows_setSnapshot {state : JsonObject} {snapshot : WledSnapshot}
    (hstate : w.lastState = some state)
    (h : snapshotFromState w.capabilities w.clock state = .ok snapshot) :
    (w.setSnapshot snapshot).Shows snapshot :=
  ⟨rfl, ⟨state, w.capabilities, w.clock⟩, congrArg (Option.map _) hstate, h⟩

theorem post_showResponse {state : JsonObject} (hstate : w.lastState = some state) :
    Ensures (showResponse state) w (Post lights (fun snapshot w' => w'.Shows snapshot) w) := by
  refine Post.bind (post_readSnapshot state) (fun _ _ h => by rw [h.2]) ?_
  rintro snapshot w ⟨hsnapshot, rfl⟩
  refine ⟨.refl rfl, fun a ha => ?_, fun _ h => (by cases h)⟩
  cases ha
  exact shows_setSnapshot hstate hsnapshot

theorem post_commandSegments (segments : List Segment) (wanted : Wanted) :
    Ensures (commandSegments segments wanted) w
      (Post lights (fun snapshot w' => w'.Shows snapshot) w) := by
  refine Post.bind (post_fetch (.inr (by simp))) (fun _ _ h => h.1) ?_
  rintro response w₁ ⟨-, hlast⟩
  refine Post.bind (post_lift (onlyWled_verifyResponse _ _ _)) (fun _ _ h => by rw [h.2]) ?_
  rintro - w₁ ⟨-, rfl⟩
  exact post_showResponse hlast

theorem post_readCapabilities :
    Ensures readCapabilities w (Post lights (fun _ w' => w'.snapshot = w.snapshot) w) := by
  refine Post.bind (post_fetch (.inr (by decide))) (fun _ _ h => h.1) ?_
  rintro payload w₁ ⟨hkept, -⟩
  have hparse : Ensures (lift (parseCapabilities w₁.clock payload)) w₁
      (Post lights (fun _ w' => w' = w₁) w₁) :=
    (post_lift (onlyWled_parseCapabilities _ _)).mono fun _ _ h => h.mono fun _ hw => hw.2
  exact ensures_get_bind.mpr (hparse.mono fun _ _ h => h.mono fun _ hw => by rw [hw, hkept])

theorem post_knownCapabilities :
    Ensures knownCapabilities w (Post lights (fun _ w' => w'.snapshot = w.snapshot) w) := by
  refine ensures_get_bind.mpr ?_
  split
  · exact (post_pure _).mono fun _ _ h => h.mono fun _ hw => by rw [hw.2]
  · exact post_readCapabilities

/-- What follows from the same client with other capabilities. -/
theorem post_setCapabilities {α : Type} {good : α → World → Prop} {f : Op α}
    (capabilities : WledCapabilities)
    (hf : ∀ w₁ : World, w₁.snapshot = w.snapshot → Ensures f w₁ (Post lights good w₁)) :
    Ensures (modify (World.setCapabilities capabilities) >>= fun _ => f) w (Post lights good w) :=
  Post.bind (post_modify rfl) (fun _ _ h => by rw [h]; rfl) fun _ w₁ h => hf w₁ (by rw [h]; rfl)

theorem post_validateEffect (effectId paletteId : ℤ) :
    Ensures (validateEffect effectId paletteId) w
      (Post lights (fun _ w' => w'.snapshot = w.snapshot) w) := by
  have hpass {w₁ : World} (h₁ : w₁.snapshot = w.snapshot) : Ensures (pure () : Op Unit) w₁
      (Post lights (fun _ w' => w'.snapshot = w.snapshot) w₁) :=
    (post_pure ()).mono fun _ _ h => h.mono fun _ hw => by rw [hw.2, h₁]
  refine Post.bind post_knownCapabilities (fun _ _ h => h) fun capabilities w₁ h₁ => ?_
  refine post_setCapabilities capabilities fun w₂ h₂ => ?_
  split
  · exact hpass (h₂.trans h₁)
  · refine Post.bind post_readCapabilities (fun _ _ h => h) fun capabilities w₃ h₃ => ?_
    refine post_setCapabilities capabilities fun w₄ h₄ => ?_
    have h := h₄.trans (h₃.trans (h₂.trans h₁))
    split
    · exact hpass h
    · exact (post_lift (OnlyWled.error rfl)).mono fun _ _ h' => h'.mono fun _ hw => by
        rw [hw.2, h]

end Parts

/-! ## The operations -/

/-- What an operation leaves: `good` when it returns, and the failure in the snapshot when it
raises a `WledError`. -/
structure Settled {α : Type} (lights : Bool) (good : α → World → Prop) (w : World)
    (r : Except Exc α) (w' : World) : Prop where
  asked : Asked lights w (escaped r) w'
  good : ∀ a, r = .ok a → good a w'
  recorded : ∀ e, r = .error e → w'.snapshot =
    if e.isWled then ⟨w.snapshot.toObserved, .error, some e.text⟩ else w.snapshot

section Operations

variable {lights : Bool} {w : World}

theorem settled_recording {α : Type} {good : α → World → Prop} {body : Op α}
    (h : Ensures body w (Post lights good w)) :
    Ensures (recording body) w (Settled lights good w) := by
  refine ensures_attempt.mpr (h.mono ?_)
  rintro (e | a) w₁ ⟨hasked, hgood, hkept⟩
  · have hsnapshot := hkept e rfl
    show Ensures (record e >>= fun _ => raise e) w₁ _
    unfold record
    split
    · next he =>
      obtain ⟨fresh, hfresh, hall⟩ := hasked
      refine ⟨⟨fresh, hfresh, hall⟩, fun _ h => (by cases h), fun e' h => ?_⟩
      cases h
      rw [if_pos he, ← hsnapshot]
      rfl
    · next he =>
      refine ⟨hasked, fun _ h => (by cases h), fun e' h => ?_⟩
      cases h
      rw [if_neg he]
      exact hsnapshot
  · exact ⟨hasked, hgood, fun _ h => (by cases h)⟩

/-- After an operation has succeeded, nothing is raised any more. -/
theorem Settled.andThen {α β : Type} {c : Op α} {good : α → World → Prop}
    {good' : β → World → Prop} {f : α → World → World} {g : α → β}
    (hc : Ensures c w (Settled lights good w)) (hasked : ∀ a w', (f a w').asked = w'.asked)
    (hgood : ∀ a w', good a w' → good' (g a) (f a w')) :
    Ensures (c >>= fun a => modify (f a) >>= fun _ => pure (g a)) w (Settled lights good' w) := by
  refine ensures_bind.mpr (hc.mono ?_)
  rintro (e | a) w₁ ⟨hw₁, ha, hrecorded⟩
  · exact ⟨hw₁, fun _ h => (by cases h), fun e' h => hrecorded e' (by cases h; rfl)⟩
  · obtain ⟨fresh, hfresh, hall⟩ := hw₁
    refine ⟨⟨fresh, (hasked a w₁).trans hfresh, hall⟩, fun b hb => ?_, fun _ h => (by cases h)⟩
    cases hb
    exact hgood a w₁ (ha a rfl)

theorem settled_refreshState :
    Ensures refreshState w (Settled false (fun snapshot w' => w'.Shows snapshot) w) := by
  have hbody : Ensures (fetch .getState >>= readSnapshot) w
      (Post false (fun snapshot w' => ∃ state, w'.lastState = some state ∧
        snapshotFromState w'.capabilities w'.clock state = .ok snapshot) w) := by
    refine Post.bind (post_fetch (.inl rfl)) (fun _ _ h => h.1) ?_
    rintro state w₁ ⟨-, hlast⟩
    refine (post_readSnapshot state).mono fun _ _ h => h.mono ?_
    rintro snapshot ⟨hsnapshot, rfl⟩
    exact ⟨state, hlast, hsnapshot⟩
  refine Settled.andThen (g := id) (settled_recording hbody) (fun _ _ => rfl) ?_
  rintro snapshot w' ⟨state, hlast, hsnapshot⟩
  exact shows_setSnapshot hlast hsnapshot

theorem settled_refreshCapabilities :
    Ensures refreshCapabilities w (Settled false (fun _ w' => w'.snapshot = w.snapshot) w) :=
  Settled.andThen (g := id) (settled_recording post_readCapabilities) (fun _ _ => rfl)
    fun _ _ h => h

theorem onlyWled_confirm (confirmed : Bool) (text : String) :
    OnlyWled (confirm confirmed text) := by
  unfold confirm
  split
  · exact .ok ()
  · exact .error rfl

theorem settled_command (payload : Payload) (confirmed : JsonObject → Bool) (text : String) :
    Ensures (command payload confirmed text) w
      (Settled false (fun snapshot w' => w'.Shows snapshot) w) := by
  refine settled_recording (Post.bind (post_fetch (.inr (by simp))) (fun _ _ h => h.1) ?_)
  rintro response w₁ ⟨-, hlast⟩
  refine Post.bind (post_lift (onlyWled_confirm _ _)) (fun _ _ h => by rw [h.2]) ?_
  rintro - w₁ ⟨-, rfl⟩
  exact post_showResponse hlast

theorem settled_setBrightness {brightness : ℤ} (h : 0 ≤ brightness ∧ brightness ≤ 255) :
    Ensures (setBrightness brightness) w
      (Settled false (fun snapshot w' => w'.Shows snapshot) w) := by
  unfold setBrightness
  rw [if_neg (not_not_intro h)]
  exact settled_command ..

theorem settled_setSolid {color normalized : PyStr} (h : normalizeColor? color = some normalized) :
    Ensures (setSolid color) w (Settled true (fun snapshot w' => w'.Shows snapshot) w) := by
  unfold setSolid
  rw [normalizeColor, h]
  exact settled_recording (Post.bind post_lightSegments (fun _ _ h => h) fun segments w₁ _ =>
    post_commandSegments segments (.solid normalized))

theorem settled_setEffect (args : EffectArguments) :
    Ensures (setEffect args) w (Settled true (fun snapshot w' => w'.Shows snapshot) w) := by
  refine settled_recording (Post.bind (post_validateEffect _ _) (fun _ _ h => h) fun _ w₁ _ => ?_)
  refine Post.bind post_lightSegments (fun _ _ h => h) fun segments w₂ _ => ?_
  refine Post.bind (post_lift (onlyWled_normalizeOptional args.color)) (fun _ _ h => by rw [h.2]) ?_
  rintro normalized w₂ ⟨-, rfl⟩
  exact post_commandSegments segments (.effect args normalized)

end Operations

/-! ## Runs -/

/-- An operation with arguments that pass its own checks. -/
inductive Call where
  | refreshState
  | refreshCapabilities
  | turnOn
  | turnOff
  | setBrightness (brightness : ℤ) (valid : 0 ≤ brightness ∧ brightness ≤ 255)
  | setSolid (color normalized : PyStr) (valid : normalizeColor? color = some normalized)
  | setEffect (args : EffectArguments)

/-- The operation; `refresh_capabilities` returns no snapshot. -/
def Call.perform : Call → Op (Option WledSnapshot)
  | .refreshState => some <$> Wled.refreshState
  | .refreshCapabilities => (fun _ => none) <$> Wled.refreshCapabilities
  | .turnOn => some <$> Wled.turnOn
  | .turnOff => some <$> Wled.turnOff
  | .setBrightness brightness _ => some <$> Wled.setBrightness brightness
  | .setSolid color _ _ => some <$> Wled.setSolid color
  | .setEffect args => some <$> Wled.setEffect args

/-- The operation goes on with the segments of a state response. -/
def Call.lights : Call → Bool
  | .setSolid _ _ _ => true
  | .setEffect _ => true
  | _ => false

/-- What the call asks the device, with the responses. -/
def Call.exchanges (call : Call) (w : World) : List Exchange :=
  (call.perform w).2.asked.drop w.asked.length

/-- The responses to the call can be read. -/
def Call.Readable (call : Call) (w : World) : Prop :=
  (call.exchanges w).all (Exchange.readable call.lights) = true

/-- A run, with what the last successful state operation has read. -/
structure Track where
  world : World
  seen : Option Reading

def Track.call (t : Track) (call : Call) : Track :=
  match call.perform t.world with
  | (.ok (some _), w) => ⟨w, w.lastReading⟩
  | (_, w) => ⟨w, t.seen⟩

/-- A client after `start()` and the calls. -/
def Track.run (device : ℕ → HttpOutcome) (now : ℕ → Instant) (calls : List Call) : Track :=
  calls.foldl Track.call ⟨.fresh device now, none⟩

/-- The fields of the response that was seen. -/
def SeenAs : Option Reading → Observed → Prop
  | none, observed => observed = Observed.empty
  | some r, observed => ∃ snapshot, r.snapshot = .ok snapshot ∧ snapshot.toObserved = observed

/-- What a call returns or raises, and what it leaves. -/
def Concludes (seen : Option Reading) (w : World) : Except Exc (Option WledSnapshot) → World → Prop
  | .ok (some snapshot), w' => w'.Shows snapshot
  | .ok none, w' => w'.snapshot = w.snapshot
  | .error e, w' => e.isWled = true ∧ SeenAs seen w'.snapshot.toObserved ∧
      w'.snapshot.status = .error ∧ w'.snapshot.lastError = some e.text

/-- The next call returns or raises a `WledError`, and the snapshot says so. -/
def Track.Recorded (t : Track) (call : Call) : Prop :=
  Ensures call.perform t.world (Concludes t.seen t.world)

/-- What every call leaves when it returns. -/
def Returned (w : World) : Option WledSnapshot → World → Prop
  | some snapshot, w' => w'.Shows snapshot
  | none, w' => w'.snapshot = w.snapshot

section Runs

variable {w : World}

theorem settled_map {α β : Type} {lights : Bool} {c : Op α} {f : α → β}
    {good : α → World → Prop} {good' : β → World → Prop}
    (hc : Ensures c w (Settled lights good w)) (hgood : ∀ a w', good a w' → good' (f a) w') :
    Ensures (f <$> c) w (Settled lights good' w) := by
  show Ensures (c >>= fun a => pure (f a)) w _
  refine ensures_bind.mpr (hc.mono ?_)
  rintro (e | a) w₁ ⟨hasked, ha, hrecorded⟩
  · exact ⟨hasked, fun _ h => (by cases h), fun e' h => hrecorded e' (by cases h; rfl)⟩
  · exact ⟨hasked, fun b hb => by cases hb; exact hgood a w₁ (ha a rfl), fun _ h => (by cases h)⟩

theorem settled_perform (call : Call) (w : World) :
    Ensures call.perform w (Settled call.lights (Returned w) w) := by
  cases call with
  | refreshState => exact settled_map settled_refreshState fun _ _ h => h
  | refreshCapabilities => exact settled_map settled_refreshCapabilities fun _ _ h => h
  | turnOn => exact settled_map (settled_command _ _ _) fun _ _ h => h
  | turnOff => exact settled_map (settled_command _ _ _) fun _ _ h => h
  | setBrightness brightness valid => exact settled_map (settled_setBrightness valid) fun _ _ h => h
  | setSolid color normalized valid => exact settled_map (settled_setSolid valid) fun _ _ h => h
  | setEffect args => exact settled_map (settled_setEffect args) fun _ _ h => h

/-- Only an unreadable response lets something escape. -/
theorem readable_iff (call : Call) (w : World) :
    call.Readable w ↔ escaped (call.perform w).1 = false := by
  obtain ⟨fresh, hfresh, hall⟩ := (settled_perform call w).asked
  rw [Call.Readable, Call.exchanges, hfresh, List.drop_left, hall]
  cases escaped (call.perform w).1 <;> decide

/-- The snapshot has the fields of what was seen. -/
def Track.Faithful (t : Track) : Prop := SeenAs t.seen t.world.snapshot.toObserved

theorem faithful_call {t : Track} (h : t.Faithful) (call : Call) : (t.call call).Faithful := by
  obtain ⟨-, hgood, hrecorded⟩ := settled_perform call t.world
  unfold Track.call
  rcases hresult : call.perform t.world with ⟨e | snapshot, w'⟩
  · rw [hresult] at hrecorded
    have hsnapshot := hrecorded e rfl
    have hsame : w'.snapshot.toObserved = t.world.snapshot.toObserved := by
      rw [hsnapshot]
      split <;> rfl
    show SeenAs t.seen w'.snapshot.toObserved
    rw [hsame]
    exact h
  · rw [hresult] at hgood
    have hreturned := hgood snapshot rfl
    cases snapshot with
    | none =>
      have hsame : w'.snapshot = t.world.snapshot := hreturned
      show SeenAs t.seen w'.snapshot.toObserved
      rw [hsame]
      exact h
    | some snapshot =>
      obtain ⟨hsnapshot, r, hr, hread⟩ := hreturned
      unfold Track.Faithful
      dsimp only
      rw [hr, hsnapshot]
      exact ⟨snapshot, hread, rfl⟩

theorem faithful_run (device : ℕ → HttpOutcome) (now : ℕ → Instant) (calls : List Call) :
    (Track.run device now calls).Faithful := by
  unfold Track.run
  have hstart : (⟨.fresh device now, none⟩ : Track).Faithful := rfl
  generalize (⟨.fresh device now, none⟩ : Track) = t at hstart
  induction calls generalizing t with
  | nil => exact hstart
  | cons call calls ih => exact ih _ (faithful_call hstart call)

/-- What is recorded has not escaped. -/
theorem Track.Recorded.caught {t : Track} {call : Call} (h : t.Recorded call) :
    escaped (call.perform t.world).1 = false := by
  unfold Track.Recorded Ensures at h
  cases hresult : (call.perform t.world).1 with
  | ok snapshot => rfl
  | error e =>
    rw [hresult] at h
    have he : e.isWled = true := h.1
    show (!e.isWled) = false
    rw [he]
    rfl

/-- **A call after any run returns, or raises what the snapshot records, exactly when the
responses to it can be read.** -/
theorem errors_recorded_iff (device : ℕ → HttpOutcome) (now : ℕ → Instant) (calls : List Call)
    (call : Call) :
    (Track.run device now calls).Recorded call ↔
      call.Readable (Track.run device now calls).world := by
  have hfaithful := faithful_run device now calls
  generalize Track.run device now calls = t at hfaithful ⊢
  rw [readable_iff]
  refine ⟨Track.Recorded.caught, fun hcaught => ?_⟩
  obtain ⟨-, hgood, hrecorded⟩ := settled_perform call t.world
  unfold Track.Recorded Ensures
  generalize (call.perform t.world).2 = w' at hgood hrecorded ⊢
  cases hresult : (call.perform t.world).1 with
  | ok snapshot =>
    cases snapshot with
    | none => exact hgood none hresult
    | some snapshot => exact hgood (some snapshot) hresult
  | error e =>
    have hsnapshot := hrecorded e hresult
    have he : e.isWled = true := by
      rw [hresult] at hcaught
      simpa [escaped] using hcaught
    rw [if_pos he] at hsnapshot
    exact ⟨he, by rw [hsnapshot]; exact hfaithful, by rw [hsnapshot], by rw [hsnapshot]⟩

end Runs

/-! ## A state without `on` -/

/-- A segment of one red light. -/
def segmentBody (id fx : ℤ) : JsonObject :=
  [(key "id", .int id), (key "len", .int 1), (key "fx", .int fx), (key "pal", .int 0),
    (key "col", .list [.list [.int 255, .int 0, .int 0]])]

/-- A state with a segment that has the effect, others, and other members. -/
def stateBody (fx : ℤ) (others : List Json) (members : JsonObject) : Json :=
  .dict ((key "seg", .list (.dict (segmentBody 0 fx) :: others)) :: members)

/-- A device that gives one answer to everything. -/
def answering (body : Json) : ℕ → HttpOutcome := fun _ => .response 200 (.json body)

def red : PyStr := key "FF0000"

theorem red_normalized : normalizeColor? red = some red := by decide

/-- Without `on`, a colour raises a `KeyError`, and the snapshot does not say so. -/
theorem error_escapes :
    ¬ ∀ (device : ℕ → HttpOutcome) (now : ℕ → Instant) (calls : List Call) (call : Call),
      (Track.run device now calls).Recorded call := by
  intro h
  have hcall := h (answering (stateBody 0 [] [])) (fun _ => 0) [] (.setSolid red red red_normalized)
  have hcaught := hcall.caught
  revert hcaught
  decide

/-- With `on`, the colour is set and shown. -/
theorem errors_recorded_red :
    (Track.run (answering (stateBody 0 [] [(key "on", .bool true), (key "bri", .int 128)]))
      (fun _ => 0) []).Recorded (.setSolid red red red_normalized) :=
  (errors_recorded_iff _ _ _ _).mpr (by unfold Call.Readable; decide)

end SmartDesk.Wled

import SmartDesk.Wled.Failures

/-!
# What a confirmed command shows

`set_solid` and `set_effect` return after `_verify_response`, which looks at one segment for each
id that it asked for; the snapshot classifies all segments of the same response.

* `unverified` — the segments that `_verify_response` passes over.
* `verifyResponse_ok` — what it has compared.
* `classify_solid`, `classify_effect` — when the snapshot is what was asked for.
* `shown_iff` — **an operation that returns shows what was asked for exactly when the segments
  that were passed over have the values as well.**
-/

namespace SmartDesk.Wled

open Effect Effect.Eff PyText

/-! ## Sequences of checks -/

theorem forM_ok {α ε : Type} {f : α → Except ε Unit} {l : List α} (h : l.forM f = .ok ()) :
    ∀ a ∈ l, f a = .ok () := by
  induction l with
  | nil => exact fun _ hmem => by cases hmem
  | cons a l ih =>
    have hstep : (f a >>= fun _ => l.forM f) = .ok () := h
    cases ha : f a with
    | error e =>
      rw [ha] at hstep
      cases hstep
    | ok u =>
      rw [ha] at hstep
      intro b hmem
      rcases List.mem_cons.mp hmem with rfl | hmem
      · exact ha
      · exact ih hstep b hmem

/-- What holds of all values that were read holds of the value of each item. -/
theorem forall_mapM_iff {α β ε : Type} {f : α → Except ε β} {l : List α} {values : List β}
    (h : l.mapM f = .ok values) (fits : β → Prop) :
    (∀ b ∈ values, fits b) ↔ ∀ a ∈ l, ∃ b, f a = .ok b ∧ fits b := by
  induction l generalizing values with
  | nil =>
    cases h
    simp
  | cons a l ih =>
    rw [List.mapM_cons] at h
    cases ha : f a with
    | error e =>
      rw [ha] at h
      cases h
    | ok b =>
      cases hl : l.mapM f with
      | error e =>
        rw [ha, hl] at h
        cases h
      | ok rest =>
        rw [ha, hl] at h
        cases h
        simp only [List.forall_mem_cons, ih hl, ha, Except.ok.injEq, exists_eq_left']

/-! ## Verification -/

/-- The values of a segment are there, and are as `fits` says. -/
def Segment.Fits (fits : SegmentValues → Prop) (segment : Segment) : Prop :=
  ∃ values, segmentValues segment.object = .ok values ∧ fits values

/-- The segments that were not compared: their id was not asked for, or comes again later. -/
def unverified (ids : List ℤ) : List Segment → List Segment
  | [] => []
  | segment :: rest =>
      if segment.id ∈ ids ∧ ∀ later ∈ rest, later.id ≠ segment.id then unverified ids rest
      else segment :: unverified ids rest

theorem foundSegment_cons {segment : Segment} {rest : List Segment} {id : ℤ} :
    foundSegment (segment :: rest) id =
      (foundSegment rest id).or (if segment.id = id then some segment else none) := by
  unfold foundSegment
  rw [List.reverse_cons, List.find?_append, List.find?_singleton]
  simp

/-- If the segments that were found fit, only those that were passed over are left. -/
theorem forall_fits_iff {fits : SegmentValues → Prop} {ids : List ℤ} {segments : List Segment}
    (h : ∀ id ∈ ids, ∀ segment, foundSegment segments id = some segment → segment.Fits fits) :
    (∀ segment ∈ segments, segment.Fits fits) ↔
      ∀ segment ∈ unverified ids segments, segment.Fits fits := by
  induction segments with
  | nil => exact Iff.rfl
  | cons segment rest ih =>
    have hrest : ∀ id ∈ ids, ∀ found, foundSegment rest id = some found → found.Fits fits := by
      intro id hid found hfound
      refine h id hid found ?_
      rw [foundSegment_cons, hfound]
      rfl
    unfold unverified
    split
    · next hlast =>
      obtain ⟨hid, hlast⟩ := hlast
      have hnone : foundSegment rest segment.id = none := by
        unfold foundSegment
        rw [List.find?_eq_none]
        intro later hlater
        simpa using hlast later (List.mem_reverse.mp hlater)
      have hfits : segment.Fits fits := by
        refine h segment.id hid segment ?_
        rw [foundSegment_cons, hnone, if_pos rfl]
        rfl
      rw [List.forall_mem_cons, ih hrest]
      exact and_iff_right hfits
    · rw [List.forall_mem_cons, List.forall_mem_cons, ih hrest]

/-- **What a verified response says.** -/
theorem verifyResponse_ok {response : JsonObject} {ids : List ℤ} {wanted : Wanted}
    (h : verifyResponse response ids wanted = .ok ()) :
    (response.get "on").bind Json.bool? = some true ∧
      ∃ segments, validSegments response = .ok segments ∧ ∀ id ∈ ids,
        ∃ segment, foundSegment segments id = some segment ∧
          segment.Fits fun values => matchesWanted wanted values = true := by
  unfold verifyResponse at h
  split at h
  · cases h
  · next hon =>
    refine ⟨not_not.mp hon, ?_⟩
    cases hsegments : validSegments response with
    | error e =>
      rw [hsegments] at h
      cases h
    | ok segments =>
      rw [hsegments] at h
      refine ⟨segments, rfl, fun id hid => ?_⟩
      have hverify := forM_ok h id hid
      unfold verifySegment at hverify
      split at hverify
      · cases hverify
      · next segment hfound =>
        refine ⟨segment, hfound, ?_⟩
        cases hvalues : segmentValues segment.object with
        | error e =>
          rw [hvalues] at hverify
          cases hverify
        | ok values =>
          rw [hvalues] at hverify
          refine ⟨values, hvalues, ?_⟩
          change (if matchesWanted wanted values then pure () else throw _) = _ at hverify
          split at hverify
          · assumption
          · cases hverify

/-! ## Classification -/

/-- Powered on with `SOLID` and the colour. -/
def ShowsSolid (normalized : PyStr) (observed : Observed) : Prop :=
  observed.on = some true ∧ observed.mode = some .solid ∧ observed.color = some normalized

/-- Powered on with `EFFECT` and the arguments. -/
def ShowsEffect (args : EffectArguments) (normalized : Option PyStr) (observed : Observed) : Prop :=
  observed.on = some true ∧ observed.mode = some .effect ∧
    observed.effectId = some args.effectId ∧ observed.paletteId = some args.paletteId ∧
    observed.speed = some args.speed ∧ observed.intensity = some args.intensity ∧
    ∀ color, normalized = some color → observed.color = some color

/-- A segment with the effect 0 and the colour. -/
def FitsSolid (normalized : PyStr) (values : SegmentValues) : Prop :=
  values.fx = 0 ∧ values.color = some normalized

/-- A segment with the arguments. -/
def FitsEffect (args : EffectArguments) (normalized : Option PyStr) (values : SegmentValues) :
    Prop :=
  values.effect = (args.effectId, args.paletteId, some args.speed, some args.intensity) ∧
    ∀ color, normalized = some color → values.color = some color

section Classification

variable {capabilities : Option WledCapabilities} {now : Instant} {brightness : ℤ}
  {first : SegmentValues} {rest : List SegmentValues}

theorem classify_solid {normalized : PyStr} :
    ShowsSolid normalized (classify capabilities now brightness first rest) ↔
      ∀ values ∈ first :: rest, FitsSolid normalized values := by
  unfold classify ShowsSolid FitsSolid
  dsimp only
  split
  · next h =>
    simp only [Bool.and_eq_true, List.all_eq_true, decide_eq_true_eq] at h
    obtain ⟨hfx, hcolor⟩ := h
    constructor
    · rintro ⟨-, -, hfirst⟩ values hmem
      refine ⟨hfx values hmem, ?_⟩
      rcases List.mem_cons.mp hmem with rfl | hmem
      · exact hfirst
      · exact (hcolor values hmem).trans hfirst
    · exact fun hall => ⟨rfl, rfl, (hall first List.mem_cons_self).2⟩
  · next h =>
    -- In the other two branches the mode is another one, and the values are not all solid.
    have hnot : ¬ ∀ values ∈ first :: rest, values.fx = 0 ∧ values.color = some normalized := by
      intro hall
      apply h
      simp only [Bool.and_eq_true, List.all_eq_true, decide_eq_true_eq]
      refine ⟨fun values hmem => (hall values hmem).1, fun values hmem => ?_⟩
      rw [(hall values (List.mem_cons_of_mem _ hmem)).2, (hall first List.mem_cons_self).2]
    split
    · exact ⟨fun hshown => (by cases hshown.2.1), fun hall => absurd hall hnot⟩
    · exact ⟨fun hshown => (by cases hshown.2.1), fun hall => absurd hall hnot⟩

theorem classify_effect {args : EffectArguments} {normalized : Option PyStr}
    (heffect : args.effectId ≠ 0) :
    ShowsEffect args normalized (classify capabilities now brightness first rest) ↔
      ∀ values ∈ first :: rest, FitsEffect args normalized values := by
  unfold classify ShowsEffect FitsEffect
  dsimp only
  split
  · next h =>
    simp only [Bool.and_eq_true, List.all_eq_true, decide_eq_true_eq] at h
    constructor
    · intro hshown
      cases hshown.2.1
    · intro hall
      have hfx := h.1 first List.mem_cons_self
      have hfirst := congrArg Prod.fst (hall first List.mem_cons_self).1
      exact absurd (hfirst.symm.trans hfx) heffect
  · split
    · next h =>
      simp only [Bool.and_eq_true, List.all_eq_true, decide_eq_true_eq] at h
      obtain ⟨hsame, -⟩ := h
      constructor
      · rintro ⟨-, -, hfx, hpal, hsx, hix, hcolor⟩
        have hfirst : first.effect =
            (args.effectId, args.paletteId, some args.speed, some args.intensity) := by
          simp only [SegmentValues.effect, Prod.mk.injEq]
          exact ⟨Option.some.inj hfx, Option.some.inj hpal, hsx, hix⟩
        intro values hmem
        refine ⟨?_, fun color hgiven => ?_⟩
        · rcases List.mem_cons.mp hmem with rfl | hmem
          · exact hfirst
          · rw [hsame values hmem, hfirst]
        · have hshown := hcolor color hgiven
          split at hshown
          · next hcolors =>
            rw [List.all_eq_true] at hcolors
            rcases List.mem_cons.mp hmem with rfl | hmem
            · exact hshown
            · exact (of_decide_eq_true (hcolors values hmem)).trans hshown
          · cases hshown
      · intro hall
        obtain ⟨hfirst, hcolor⟩ := hall first List.mem_cons_self
        unfold SegmentValues.effect at hfirst
        simp only [Prod.mk.injEq] at hfirst
        obtain ⟨hfx, hpal, hsx, hix⟩ := hfirst
        refine ⟨rfl, rfl, by rw [hfx], by rw [hpal], hsx, hix, fun color hgiven => ?_⟩
        rw [if_pos, hcolor color hgiven]
        rw [List.all_eq_true]
        intro values hmem
        rw [(hall values (List.mem_cons_of_mem _ hmem)).2 color hgiven, hcolor color hgiven]
        exact decide_eq_true rfl
    · next h =>
      constructor
      · intro hshown
        cases hshown.2.1
      · intro hall
        refine absurd ?_ h
        simp only [Bool.and_eq_true, List.all_eq_true, decide_eq_true_eq]
        obtain ⟨hfirst, -⟩ := hall first List.mem_cons_self
        refine ⟨fun values hmem => ?_, ?_⟩
        · rw [(hall values (List.mem_cons_of_mem _ hmem)).1, hfirst]
        · have hfx : first.fx = args.effectId := congrArg Prod.fst hfirst
          rw [hfx]
          exact heffect

end Classification

/-! ## What is shown -/

section Shown

variable {capabilities : Option WledCapabilities} {now : Instant} {response : JsonObject}
  {snapshot : WledSnapshot} {segments : List Segment}

/-- The snapshot of a response that is on classifies the values of all its segments. -/
theorem snapshot_classify (hon : (response.get "on").bind Json.bool? = some true)
    (hsegments : validSegments response = .ok segments)
    (h : snapshotFromState capabilities now response = .ok snapshot) :
    ∃ brightness first rest,
      snapshot = (classify capabilities now brightness first rest).online ∧
        segments.mapM (fun segment => segmentValues segment.object) = .ok (first :: rest) := by
  unfold snapshotFromState at h
  rw [hon, hsegments] at h
  split at h
  · cases h
  · cases h
  · next on brightness hon' _ =>
    cases hon'
    split at h
    · cases h
    · change (segments.mapM _ >>= summary capabilities now brightness) = _ at h
      cases hvalues : segments.mapM fun segment => segmentValues segment.object with
      | error e =>
        rw [hvalues] at h
        cases h
      | ok values =>
        rw [hvalues] at h
        cases values with
        | nil => cases h
        | cons first rest =>
          cases h
          exact ⟨brightness, first, rest, rfl, rfl⟩

/-- A verified response is shown as it was verified if what was passed over fits. -/
theorem shown_of_verified {shows : Observed → Prop} {fits : SegmentValues → Prop} {ids : List ℤ}
    {wanted : Wanted}
    (hclass : ∀ brightness first rest,
      shows (classify capabilities now brightness first rest) ↔
        ∀ values ∈ first :: rest, fits values)
    (hfits : ∀ values, matchesWanted wanted values = true → fits values)
    (hverify : verifyResponse response ids wanted = .ok ())
    (h : snapshotFromState capabilities now response = .ok snapshot) :
    ∃ segments, validSegments response = .ok segments ∧
      (shows snapshot.toObserved ↔ ∀ segment ∈ unverified ids segments, segment.Fits fits) := by
  obtain ⟨hon, segments, hsegments, hfound⟩ := verifyResponse_ok hverify
  obtain ⟨brightness, first, rest, rfl, hvalues⟩ := snapshot_classify hon hsegments h
  refine ⟨segments, hsegments, ?_⟩
  rw [← forall_fits_iff]
  · exact (hclass brightness first rest).trans (forall_mapM_iff hvalues fits)
  · intro id hid segment hsegment
    obtain ⟨segment', hsegment', values, hvalues, hmatch⟩ := hfound id hid
    rw [hsegment] at hsegment'
    cases hsegment'
    exact ⟨values, hvalues, hfits values hmatch⟩

end Shown

/-! ## The operations -/

/-- The ids of the command that was posted last, and the response to it. -/
def World.lastCommand (w : World) : Option (List ℤ × JsonObject) :=
  match w.asked.getLast? with
  | some ⟨.postState (.segments ids _), outcome⟩ =>
      outcome.object.toOption.map fun response => (ids, response)
  | _ => none

/-- The snapshot is as `shows` says exactly when the segments that were passed over in the
response to the command are as `fits` says. -/
def ShownIff (shows : Observed → Prop) (fits : SegmentValues → Prop) (snapshot : WledSnapshot)
    (w : World) : Prop :=
  ∃ ids response segments, w.lastCommand = some (ids, response) ∧
    validSegments response = .ok segments ∧
      (shows snapshot.toObserved ↔ ∀ segment ∈ unverified ids segments, segment.Fits fits)

section Operations

variable {w : World}

theorem returns_fetch (request : Request) :
    Ensures (fetch request) w (Returns fun state w' =>
      w' = w.exchange request ∧ (w.device w.asked.length).object = .ok state) := by
  unfold Ensures
  rw [fetch_eq]
  split
  · exact fun state hstate => ⟨rfl, hstate⟩
  · exact fun _ h => by cases h

theorem lastCommand_exchange {ids : List ℤ} {wanted : Wanted} {response : JsonObject}
    (h : (w.device w.asked.length).object = .ok response) :
    (w.exchange (.postState (.segments ids wanted))).lastCommand = some (ids, response) := by
  simp [World.lastCommand, World.exchange, h, Except.toOption]

theorem returns_recording {α : Type} {good : α → World → Prop} {body : Op α}
    (h : Ensures body w (Returns good)) : Ensures (recording body) w (Returns good) := by
  refine Returns.attempt h fun e w' => ensures_bind.mpr ?_
  unfold record
  split <;> exact fun _ h => by cases h

/-- **A command that returns shows its verified response.** -/
theorem shown_commandSegments {shows : Observed → Prop} {fits : SegmentValues → Prop}
    {wanted : Wanted} {segments : List Segment}
    (hclass : ∀ capabilities now brightness first rest,
      shows (classify capabilities now brightness first rest) ↔
        ∀ values ∈ first :: rest, fits values)
    (hfits : ∀ values, matchesWanted wanted values = true → fits values) :
    Ensures (commandSegments segments wanted) w (Returns (ShownIff shows fits)) := by
  refine Returns.bind (returns_fetch _) ?_
  rintro response _ ⟨rfl, hresponse⟩
  refine Returns.bind (returns_lift _) ?_
  rintro ⟨⟩ _ ⟨hverify, rfl⟩
  refine Returns.bind (c := readSnapshot response) (ensures_get_bind.mpr (returns_lift _)) ?_
  rintro snapshot _ ⟨hsnapshot, rfl⟩ snapshot' hreturned
  cases hreturned
  obtain ⟨segments', hsegments, hshown⟩ :=
    shown_of_verified (fun _ _ _ => hclass _ _ _ _ _) hfits hverify hsnapshot
  exact ⟨_, response, segments', lastCommand_exchange hresponse, hsegments, hshown⟩

theorem matchesWanted_iff {wanted : Wanted} {values : SegmentValues} :
    matchesWanted wanted values = true ↔
      values.fx = wanted.fx ∧ values.pal = wanted.pal ∧
        (∀ sx, wanted.sx = some sx → values.sx = some sx) ∧
        (∀ ix, wanted.ix = some ix → values.ix = some ix) ∧
        ∀ col, wanted.col = some col → values.color = hexText (col.map some) := by
  obtain ⟨fx, pal, sx, ix, col⟩ := wanted
  cases sx <;> cases ix <;> cases col <;> simp [matchesWanted, and_assoc]

theorem matchesWanted_solid {color normalized : PyStr}
    (hcolor : normalizeColor? color = some normalized) {values : SegmentValues}
    (h : matchesWanted (.solid normalized) values = true) : FitsSolid normalized values := by
  obtain ⟨hfx, -, -, -, hcol⟩ := matchesWanted_iff.mp h
  exact ⟨hfx, (hcol _ rfl).trans (hexText_rgb hcolor)⟩

theorem normalizeOptional_ok {color : Option PyStr} {normalized : PyStr}
    (h : normalizeOptional color = .ok (some normalized)) :
    ∃ given, normalizeColor? given = some normalized := by
  cases color with
  | none => cases h
  | some given =>
    refine ⟨given, ?_⟩
    rw [normalizeOptional, normalizeColor] at h
    cases hgiven : normalizeColor? given with
    | none =>
      rw [hgiven] at h
      cases h
    | some found =>
      rw [hgiven] at h
      cases h
      rfl

theorem matchesWanted_effect {args : EffectArguments} {normalized : Option PyStr}
    (hcolor : normalizeOptional args.color = .ok normalized) {values : SegmentValues}
    (h : matchesWanted (.effect args normalized) values = true) :
    FitsEffect args normalized values := by
  obtain ⟨hfx, hpal, hsx, hix, hcol⟩ := matchesWanted_iff.mp h
  refine ⟨by rw [SegmentValues.effect, hfx, hpal, hsx _ rfl, hix _ rfl]; rfl, ?_⟩
  rintro color rfl
  obtain ⟨given, hgiven⟩ := normalizeOptional_ok hcolor
  exact (hcol _ rfl).trans (hexText_rgb hgiven)

/-- **What returns shows what was asked for exactly when the segments that verification passes
over have the values as well.** -/
theorem shown_iff (w : World) :
    (∀ color normalized, normalizeColor? color = some normalized →
      Ensures (setSolid color) w
        (Returns (ShownIff (ShowsSolid normalized) (FitsSolid normalized)))) ∧
    ∀ (args : EffectArguments) normalized, args.effectId ≠ 0 →
      normalizeOptional args.color = .ok normalized →
        Ensures (setEffect args) w
          (Returns (ShownIff (ShowsEffect args normalized) (FitsEffect args normalized))) := by
  constructor
  · intro color normalized hcolor
    unfold setSolid
    rw [normalizeColor, hcolor]
    refine returns_recording (Returns.after fun segments w' => ?_)
    exact shown_commandSegments (fun _ _ _ _ _ => classify_solid) fun _ =>
      matchesWanted_solid hcolor
  · intro args normalized heffect hcolor
    refine returns_recording (Returns.after fun _ w₁ => Returns.after fun segments w₂ => ?_)
    rw [hcolor]
    exact shown_commandSegments (fun _ _ _ _ _ => classify_effect heffect)
      fun _ => matchesWanted_effect hcolor

end Operations

/-! ## A segment that nobody asked for -/

/-- A device whose state has one segment, and whose response to the command has another one. -/
def growing : ℕ → HttpOutcome
  | 0 => .response 200 (.json (stateBody 0 [] [(key "on", .bool true)]))
  | _ => .response 200 (.json (stateBody 0 [.dict (segmentBody 1 5)]
      [(key "on", .bool true), (key "bri", .int 128)]))

/-- **The other segment is passed over, and the snapshot is `MIXED`.** -/
theorem mixed_returned :
    ¬ ∀ w : World,
      (∀ color normalized, normalizeColor? color = some normalized →
        Ensures (setSolid color) w
          (Returns fun snapshot _ => ShowsSolid normalized snapshot.toObserved)) ∧
      ∀ (args : EffectArguments) normalized, args.effectId ≠ 0 →
        normalizeOptional args.color = .ok normalized →
          Ensures (setEffect args) w
            (Returns fun snapshot _ => ShowsEffect args normalized snapshot.toObserved) := by
  intro h
  have hsolid := (h (.fresh growing fun _ => 0)).1 red red red_normalized
  have hmixed : ((setSolid red (.fresh growing fun _ => 0)).1.toOption.map fun snapshot =>
      snapshot.mode) = some (some .mixed) := by decide
  cases hresult : (setSolid red (.fresh growing fun _ => 0)).1 with
  | error e =>
    rw [hresult] at hmixed
    cases hmixed
  | ok snapshot =>
    obtain ⟨-, hmode, -⟩ := hsolid snapshot hresult
    rw [hresult] at hmixed
    have hmode' : snapshot.mode = some .mixed := Option.some.inj hmixed
    rw [hmode'] at hmode
    cases hmode

/-- Red, and an effect without a colour, on a device with one segment. -/
theorem shown_red :
    Ensures (setSolid red) (.fresh growing fun _ => 0)
        (Returns (ShownIff (ShowsSolid red) (FitsSolid red))) ∧
      Ensures (setEffect ⟨5, 0, 128, 128, none⟩) (.fresh growing fun _ => 0)
        (Returns (ShownIff (ShowsEffect ⟨5, 0, 128, 128, none⟩ none)
          (FitsEffect ⟨5, 0, 128, 128, none⟩ none))) :=
  ⟨(shown_iff _).1 red red red_normalized, (shown_iff _).2 _ none (by decide) rfl⟩

end SmartDesk.Wled

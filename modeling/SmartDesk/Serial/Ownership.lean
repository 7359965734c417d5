import SmartDesk.Serial.Source

/-!
# Who owns the serial port

* `Only`, `Closing`, `Fits` — the one port that may be open, by what the holder of the lock does.
* `Inv` — the invariant, and `inv_step`: a step keeps it if no `start()` finds a port.
* `port_owned` — **one port is open at most, it is closed once at most and not while it is read, and
  after a `stop()` none is open, in every run in which no `start()` finds a port that a cancelled
  `stop()` has left.**
-/

namespace SmartDesk.Serial

namespace World

variable (w : World)

/-! ## Ports -/

/-- Only this port is open, and nobody closes it yet. -/
def Only : Option Port → Prop
  | none => ∀ q < w.ports, w.closed q = true
  | some p => p < w.ports ∧ w.closed p = false ∧ w.closes p = 0 ∧
      ∀ q < w.ports, q ≠ p → w.closed q = true

/-- Only this port is open, and it is being closed. -/
def Closing (p : Port) : Prop :=
  p < w.ports ∧ w.closed p = false ∧ w.closes p = 1 ∧ ∀ q < w.ports, q ≠ p → w.closed q = true

/-- The ports while the holder of the lock waits for its thread. -/
def Fits (purpose : Purpose) (thread : Thread) : Prop :=
  match purpose, thread with
  | .opening, .opened p => w.connection = none ∧ w.Only (some p)
  | .opening, .returned _ => False
  | .opening, _ => w.connection = none ∧ w.Only none
  | _, .opened _ => False
  | .reading p, _ => w.connection = some p ∧ w.Only (some p)
  | purpose, .running => w.connection = none ∧ ∃ p, purpose.closes = some p ∧ w.Closing p
  | _, _ => w.connection = none ∧ w.Only none

/-- The ports, by the job and the phase of a task that holds the lock or has just released it. -/
def PortsFit (job : Job) : Phase → Prop
  | .blocked purpose thread _ =>
      w.Fits purpose thread ∧ ∀ p, purpose = .stopping p → job = .stop
  | _ => w.Only w.connection

end World

def Phase.isBlocked : Phase → Bool
  | .blocked _ _ _ => true
  | _ => false

/-- Numbers that were not given to a port yet, and ports that were closed. -/
structure Counted (w : World) : Prop where
  fresh : ∀ p, w.ports ≤ p → w.closes p = 0 ∧ w.closed p = false
  once : ∀ p, w.closes p ≤ 1

/-- No live `start()`. -/
def NoStart (w : World) : Prop :=
  ∀ t k, w.task t = some k → k.job = .start → k.live = false

/-- A live `start()` and a live `stop()` exclude each other. -/
def Apart (w : World) : Prop :=
  ∀ t u k k', w.task t = some k → w.task u = some k' → k.job = .start → k'.job = .stop →
    k.live = true → k'.live = true → False

/-- The source stays stopped while a `stop()` is on its way. -/
def Stopping (w : World) : Prop :=
  ∀ t k, w.task t = some k → k.job = .stop → k.phase ≠ .ready → k.live = true → w.started = false

structure Inv (w : World) : Prop where
  counted : Counted w
  /-- A task that waits for a thread holds the lock. -/
  blocked : ∀ t k, w.task t = some k → k.phase.isBlocked = true → w.owner = some t
  /-- The holder of the lock waits for a thread. -/
  owned : ∀ t, w.owner = some t → ∃ k, w.task t = some k ∧ k.phase.isBlocked = true ∧
    w.PortsFit k.job k.phase
  free : w.owner = none → w.Only w.connection
  count : ∀ t, w.count ≤ t → w.task t = none
  apart : Apart w
  stopping : Stopping w
  settled : w.settled = true →
    w.started = false ∧ w.connection = none ∧ w.owner = none ∧ NoStart w

/-! ## Changes -/

section Changes

variable {w w' : World} {t : ℕ} {k k' : Task}

theorem noStart_update (h : NoStart w) (ht : w.task t = some k)
    (htask : w'.task = Function.update w.task t (some k')) (hjob : k'.job = k.job)
    (hlive : k'.live = true → k.live = true) : NoStart w' := by
  intro u m hu hm
  rw [htask, Function.update_apply] at hu
  split at hu
  · cases hu
    have hk := h t k ht (hjob ▸ hm)
    cases hk' : k'.live
    · rfl
    · rw [hlive hk'] at hk
      cases hk
  · exact h u m hu hm

theorem apart_update (h : Apart w) (ht : w.task t = some k)
    (htask : w'.task = Function.update w.task t (some k')) (hjob : k'.job = k.job)
    (hlive : k'.live = true → k.live = true) : Apart w' := by
  -- A live task of the new world is one of the old world, with the same job.
  have hback (u : ℕ) (m : Task) (hu : w'.task u = some m) (hm : m.live = true) :
      ∃ m', w.task u = some m' ∧ m'.job = m.job ∧ m'.live = true := by
    rw [htask, Function.update_apply] at hu
    split at hu
    · next heq =>
      cases hu
      exact ⟨k, heq ▸ ht, hjob.symm, hlive hm⟩
    · exact ⟨m, hu, rfl, hm⟩
  intro a b m m' ha hb hm hm' hl hl'
  obtain ⟨n, hn, hnjob, hnlive⟩ := hback a m ha hl
  obtain ⟨n', hn', hnjob', hnlive'⟩ := hback b m' hb hl'
  exact h a b n n' hn hn' (hnjob.trans hm) (hnjob'.trans hm') hnlive hnlive'

theorem stopping_update (h : Stopping w) (ht : w.task t = some k)
    (htask : w'.task = Function.update w.task t (some k')) (hjob : k'.job = k.job)
    (hlive : k'.live = true → k.live = true) (hstarted : w.started = false → w'.started = false)
    (hready : k.job = .stop → k.phase = .ready → k'.phase ≠ .ready → k'.live = true →
      w'.started = false) : Stopping w' := by
  intro u m hu hm hphase hl
  rw [htask, Function.update_apply] at hu
  split at hu
  · cases hu
    by_cases hk : k.phase = .ready
    · exact hready (hjob ▸ hm) hk hphase hl
    · exact hstarted (h t k ht (hjob ▸ hm) hk (hlive hl))
  · exact hstarted (h u m hu hm hphase hl)

/-- A task that does not hold the lock goes on, and the ports are as they were. -/
theorem Inv.frame (h : Inv w) (ht : w.task t = some k)
    (htask : w'.task = Function.update w.task t (some k')) (hjob : k'.job = k.job)
    (hlive : k'.live = true → k.live = true) (hk : k.phase.isBlocked = false)
    (hk' : k'.phase.isBlocked = false) (howner : w'.owner = w.owner) (hcount : w'.count = w.count)
    (hconnection : w'.connection = w.connection) (hports : w'.ports = w.ports)
    (hcloses : w'.closes = w.closes) (hclosed : w'.closed = w.closed)
    (hsettled : w'.settled = w.settled) (hstarted : w.started = false → w'.started = false)
    (hready : k.job = .stop → k.phase = .ready → k'.phase ≠ .ready → k'.live = true →
      w'.started = false) : Inv w' := by
  have honly (c : Option Port) : w'.Only c = w.Only c := by
    cases c <;> simp only [World.Only, hports, hcloses, hclosed]
  have hfits (job : Job) (phase : Phase) :
      w'.PortsFit job phase = w.PortsFit job phase := by
    unfold World.PortsFit World.Fits World.Closing
    simp only [honly, hconnection, hports, hcloses, hclosed]
  have hsame {u : ℕ} (hu : w.owner = some u) : u ≠ t := by
    rintro rfl
    obtain ⟨m, hm, hblocked, -⟩ := h.owned u hu
    rw [ht] at hm
    cases hm
    rw [hk] at hblocked
    cases hblocked
  refine ⟨⟨?_, ?_⟩, ?_, ?_, ?_, ?_, apart_update h.apart ht htask hjob hlive,
    stopping_update h.stopping ht htask hjob hlive hstarted hready, ?_⟩
  · rw [hports, hcloses, hclosed]
    exact h.counted.fresh
  · rw [hcloses]
    exact h.counted.once
  · intro u m hu hm
    rw [howner]
    rw [htask, Function.update_apply] at hu
    split at hu
    · cases hu
      rw [hk'] at hm
      cases hm
    · exact h.blocked u m hu hm
  · intro u hu
    rw [howner] at hu
    obtain ⟨m, hm, hblocked, hfit⟩ := h.owned u hu
    refine ⟨m, ?_, hblocked, by rw [hfits]; exact hfit⟩
    rw [htask, Function.update_of_ne (hsame hu)]
    exact hm
  · intro hfree
    rw [hconnection, honly]
    exact h.free (howner ▸ hfree)
  · intro u hu
    rw [hcount] at hu
    have hne : u ≠ t := by
      rintro rfl
      rw [h.count u hu] at ht
      cases ht
    rw [htask, Function.update_of_ne hne]
    exact h.count u hu
  · intro hs
    obtain ⟨hstart, hconn, hfree, hno⟩ := h.settled (hsettled ▸ hs)
    exact ⟨hstarted hstart, hconnection.trans hconn, howner.trans hfree,
      noStart_update hno ht htask hjob hlive⟩

/-- A task that has the lock goes on, and keeps it while it waits for a thread. -/
theorem Inv.hold (h : Inv w) (ht : w.task t = some k)
    (htask : w'.task = Function.update w.task t (some k')) (hjob : k'.job = k.job)
    (hlive : k'.live = true → k.live = true) (hheld : w.owner = none ∨ w.owner = some t)
    (howner : w'.owner = if k'.phase.isBlocked then some t else none)
    (hcount : w'.count = w.count) (hcounted : Counted w') (hports : w'.PortsFit k'.job k'.phase)
    (hstopping : Stopping w')
    (hsettled : w'.settled = true →
      w'.started = false ∧ w'.connection = none ∧ w'.owner = none ∧ NoStart w') : Inv w' := by
  refine ⟨hcounted, ?_, ?_, ?_, ?_, apart_update h.apart ht htask hjob hlive, hstopping,
    hsettled⟩
  · intro u m hu hm
    rw [htask, Function.update_apply] at hu
    split at hu
    · next heq =>
      cases hu
      rw [howner, if_pos hm, heq]
    · next hne =>
      have hother := h.blocked u m hu hm
      rcases hheld with hheld | hheld
      · rw [hheld] at hother
        cases hother
      · rw [hheld] at hother
        cases hother
        exact absurd rfl hne
  · intro u hu
    rw [howner] at hu
    split at hu
    · next hblocked =>
      cases hu
      exact ⟨k', by rw [htask, Function.update_self], hblocked, hports⟩
    · cases hu
  · intro hfree
    rw [howner] at hfree
    split at hfree
    · cases hfree
    · next hblocked =>
      unfold World.PortsFit at hports
      split at hports
      · next heq =>
        rw [heq] at hblocked
        exact absurd rfl hblocked
      · exact hports
  · intro u hu
    rw [hcount] at hu
    have hne : u ≠ t := by
      rintro rfl
      rw [h.count u hu] at ht
      cases ht
    rw [htask, Function.update_of_ne hne]
    exact h.count u hu

end Changes

/-! ## Steps -/

/-- A call of the job that has not ended. -/
def World.Busy (w : World) (job : Job) : Prop :=
  ∃ t < w.count, ∃ k ∈ w.task t, k.job = job ∧ k.live = true

/-- `start()` and `stop()` are not called during one another. -/
def Separate (w : World) : Label → Prop
  | .call .start => ¬ w.Busy .stop
  | .call .stop => ¬ w.Busy .start
  | _ => True

/-- No `start()` finds a port. -/
def Clear (w : World) : Label → Prop
  | .run t _ => ∀ k ∈ w.task t, k.job = .start → k.phase = .locking → k.cancelled = false →
      w.started = false → w.connection = none
  | _ => True

section Steps

variable {w w' : World} {t : ℕ} {k : Task}

theorem inv_init : Inv World.init where
  counted := ⟨fun _ _ => ⟨rfl, rfl⟩, fun _ => Nat.zero_le 1⟩
  blocked := fun t k h _ => absurd h (by simp [World.init])
  owned := fun t h => absurd h (by simp [World.init])
  free := fun _ q hq => absurd hq (Nat.not_lt_zero q)
  count := fun _ _ => rfl
  apart := fun t u k k' h => absurd h (by simp [World.init])
  stopping := fun t k h => absurd h (by simp [World.init])
  settled := fun h => absurd h (by simp [World.init])

theorem inv_spawn {job : Job} (h : Inv w) (hsep : Separate w (.call job)) : Inv (w.spawn job) := by
  have hnone : w.task w.count = none := h.count _ (Nat.le_refl _)
  have htask (u : ℕ) (m : Task) (hu : (w.spawn job).task u = some m) :
      (u = w.count ∧ m = ⟨job, .ready, false, false⟩) ∨ (u ≠ w.count ∧ w.task u = some m) := by
    rw [World.spawn, World.put] at hu
    dsimp only at hu
    rw [Function.update_apply] at hu
    split at hu
    · next heq => exact .inl ⟨heq, (Option.some.inj hu).symm⟩
    · next hne => exact .inr ⟨hne, hu⟩
  have hlt {u : ℕ} {m : Task} (hu : w.task u = some m) : u < w.count := by
    by_contra hle
    rw [h.count u (Nat.le_of_not_lt hle)] at hu
    cases hu
  have hother {u : ℕ} (hu : u ≠ w.count) : (w.spawn job).task u = w.task u :=
    Function.update_of_ne hu ..
  refine ⟨⟨h.counted.fresh, h.counted.once⟩, ?_, ?_, h.free, ?_, ?_, ?_, ?_⟩
  · intro u m hu hm
    rcases htask u m hu with ⟨-, rfl⟩ | ⟨-, hu⟩
    · cases hm
    · exact h.blocked u m hu hm
  · intro u hu
    obtain ⟨m, hm, hblocked, hfit⟩ := h.owned u hu
    have hne : u ≠ w.count := by
      rintro rfl
      rw [hnone] at hm
      cases hm
    exact ⟨m, (hother hne).trans hm, hblocked, hfit⟩
  · intro u hu
    have hle : w.count + 1 ≤ u := hu
    rw [hother (by omega)]
    exact h.count u (by omega)
  · intro a b m m' ha hb hm hm' hl hl'
    rcases htask a m ha with ⟨rfl, rfl⟩ | ⟨-, hold⟩
    · rcases htask b m' hb with ⟨rfl, rfl⟩ | ⟨-, hold⟩
      · rw [show job = .start from hm] at hm'
        cases hm'
      · obtain rfl : job = .start := hm
        exact hsep ⟨b, hlt hold, m', hold, hm', hl'⟩
    · rcases htask b m' hb with ⟨rfl, rfl⟩ | ⟨-, hold'⟩
      · obtain rfl : job = .stop := hm'
        exact hsep ⟨a, hlt hold, m, hold, hm, hl⟩
      · exact h.apart a b m m' hold hold' hm hm' hl hl'
  · intro u m hu hm hphase hl
    rcases htask u m hu with ⟨-, rfl⟩ | ⟨-, hu⟩
    · exact absurd rfl hphase
    · exact h.stopping u m hu hm hphase hl
  · intro hs
    have hs' : w.settled = true ∧ job ≠ .start := by
      simpa [World.spawn] using hs
    obtain ⟨hstarted, hconnection, hfree, hno⟩ := h.settled hs'.1
    refine ⟨hstarted, hconnection, hfree, fun u m hu hm => ?_⟩
    rcases htask u m hu with ⟨-, rfl⟩ | ⟨-, hu⟩
    · exact absurd hm hs'.2
    · exact hno u m hu hm

/-- A cancellation reaches a task: it is where it was. -/
theorem inv_mark {k' : Task} (h : Inv w) (ht : w.task t = some k) (hjob : k'.job = k.job)
    (hblocked : k'.phase.isBlocked = k.phase.isBlocked)
    (hfits : w.PortsFit k.job k'.phase = w.PortsFit k.job k.phase)
    (hready : k.phase = .ready → k'.phase = .ready) (hlive : k'.live = k.live) :
    Inv (w.put t k') := by
  have hlive' : k'.live = true → k.live = true := by
    rw [hlive]
    exact id
  have hstays (hr : k.phase = .ready) (hne : k'.phase ≠ .ready) : (w.put t k').started = false :=
    absurd (hready hr) hne
  cases hk : k.phase.isBlocked
  · exact h.frame ht rfl hjob hlive' hk (hblocked.trans hk) rfl rfl rfl rfl rfl rfl rfl id
      fun _ hr hne _ => hstays hr hne
  · have howner := h.blocked t k ht hk
    obtain ⟨m, hm, -, hfit⟩ := h.owned t howner
    rw [ht] at hm
    cases hm
    refine h.hold ht rfl hjob hlive' (.inr howner) ?_ rfl ⟨h.counted.fresh, h.counted.once⟩ ?_
      (stopping_update h.stopping ht rfl hjob hlive' id fun _ hr hne _ => hstays hr hne) ?_
    · rw [hblocked, hk]
      exact howner
    · rw [hjob]
      exact hfits ▸ hfit
    · intro hs
      rw [(h.settled hs).2.2.1] at howner
      cases howner

/-- A task that does not hold the lock ends by a cancellation or a refusal. -/
theorem inv_finish {result : Result} (h : Inv w) (ht : w.task t = some k)
    (hk : k.phase.isBlocked = false) : Inv (w.finish t k result) :=
  h.frame ht rfl rfl (fun hl => by cases hl) hk rfl rfl rfl rfl rfl rfl rfl rfl id
    fun _ _ _ hl => by cases hl

theorem inv_runReady {waits : Bool} (h : Inv w) (ht : w.task t = some k)
    (hk : k.phase = .ready) : Inv (w.runReady t k waits) := by
  have hfree : k.phase.isBlocked = false := by rw [hk]; rfl
  have hlive : k.live = true := by rw [Task.live, hk]
  unfold World.runReady
  cases hjob : k.job
  · exact h.frame ht rfl hjob.symm (fun _ => hlive) hfree rfl rfl rfl rfl rfl rfl rfl rfl id
      fun hstop _ _ _ => by rw [hjob] at hstop; cases hstop
  · exact h.frame ht rfl hjob.symm (fun _ => hlive) hfree rfl rfl rfl rfl rfl rfl rfl rfl
      (fun _ => rfl) fun _ _ _ _ => rfl
  · have hnot {v : Bool} (hstop : k.job = .stop) : v = false := by
      rw [hjob] at hstop
      cases hstop
    dsimp only
    split
    · exact inv_finish h ht hfree
    · split
      · exact h.frame ht rfl hjob.symm (fun _ => hlive) hfree rfl rfl rfl rfl rfl rfl rfl rfl
          id fun hstop _ _ _ => hnot hstop
      · exact h.frame ht rfl hjob.symm (fun _ => hlive) hfree rfl rfl rfl rfl rfl rfl rfl rfl
          id fun hstop _ _ _ => hnot hstop

/-! ## The holder of the lock -/

variable {v : World}

/-- The holder of the lock ends and releases it. -/
theorem Inv.ends {result : Result} (h : Inv w) (ht : w.task t = some k)
    (hready : k.phase ≠ .ready) (hheld : w.owner = none ∨ w.owner = some t)
    (htask : v.task = w.task) (hcount : v.count = w.count) (hcounted : Counted v)
    (honly : v.Only v.connection) (hstarted : w.started = false → v.started = false)
    (hsettled : v.settled = true → v.started = false ∧ v.connection = none ∧
      NoStart (v.release.finish t k result)) : Inv (v.release.finish t k result) := by
  have hlive : Task.live { k with phase := .ended result, cancelled := false } = true →
      k.live = true := fun hl => by cases hl
  have htask' : (v.release.finish t k result).task =
      Function.update w.task t (some { k with phase := .ended result, cancelled := false }) := by
    rw [← htask]
    rfl
  refine h.hold ht htask' rfl hlive hheld rfl hcount ⟨hcounted.fresh, hcounted.once⟩ honly ?_ ?_
  · exact stopping_update h.stopping ht htask' rfl hlive hstarted fun _ hr => absurd hr hready
  · intro hs
    obtain ⟨hstart, hconnection, hno⟩ := hsettled hs
    exact ⟨hstart, hconnection, rfl, hno⟩

/-- The holder of the lock waits for a thread. -/
theorem Inv.blocks {purpose : Purpose} (h : Inv w) (ht : w.task t = some k)
    (hlive : k.live = true) (hready : k.phase ≠ .ready)
    (hheld : w.owner = none ∨ w.owner = some t) (howner : v.owner = some t)
    (htask : v.task = w.task) (hcount : v.count = w.count) (hcounted : Counted v)
    (hfits : v.Fits purpose .running) (hstop : ∀ p, purpose = .stopping p → k.job = .stop)
    (hstarted : w.started = false → v.started = false) (hsettled : v.settled = false) :
    Inv (v.block t k purpose) := by
  have htask' : (v.block t k purpose).task =
      Function.update w.task t (some { k with phase := .blocked purpose .running false }) := by
    rw [← htask]
    rfl
  refine h.hold ht htask' rfl (fun _ => hlive) hheld howner hcount
    ⟨hcounted.fresh, hcounted.once⟩ ⟨hfits, hstop⟩ ?_ ?_
  · exact stopping_update h.stopping ht htask' rfl (fun _ => hlive) hstarted
      fun _ hr => absurd hr hready
  · intro hs
    rw [show v.settled = true from hs] at hsettled
    cases hsettled

/-- The holder of the lock closes the one port that is open. -/
theorem Inv.closes {purpose : Purpose} {p : Port} (h : Inv w) (ht : w.task t = some k)
    (hlive : k.live = true) (hready : k.phase ≠ .ready)
    (hheld : w.owner = none ∨ w.owner = some t) (howner : v.owner = some t)
    (htask : v.task = w.task) (hcount : v.count = w.count) (hcounted : Counted v)
    (hp : purpose.closes = some p) (hconnection : v.connection = none) (honly : v.Only (some p))
    (hstop : ∀ p, purpose = .stopping p → k.job = .stop)
    (hstarted : w.started = false → v.started = false) (hsettled : v.settled = false) :
    Inv (v.blockClose t k purpose p) := by
  obtain ⟨hlt, hopen, hzero, hrest⟩ := honly
  refine h.blocks ht hlive hready hheld howner htask hcount ⟨?_, ?_⟩ ?_ hstop hstarted
    hsettled
  · intro q hq
    have hne : q ≠ p := by
      rintro rfl
      exact absurd hlt (Nat.not_lt.mpr hq)
    dsimp only
    rw [Function.update_of_ne hne]
    exact hcounted.fresh q hq
  · intro q
    dsimp only
    rw [Function.update_apply]
    split
    · omega
    · exact hcounted.once q
  · have hclosing : World.Closing
        { v with closes := Function.update v.closes p (v.closes p + 1) } p :=
      ⟨hlt, hopen, by dsimp only; rw [Function.update_self, hzero], hrest⟩
    cases purpose with
    | opening => cases hp
    | reading => cases hp
    | stopping => exact ⟨hconnection, p, hp, hclosing⟩
    | disconnecting => exact ⟨hconnection, p, hp, hclosing⟩
    | unstarted => exact ⟨hconnection, p, hp, hclosing⟩
    | abandoned => exact ⟨hconnection, p, hp, hclosing⟩

/-- While a port is open or the lock is held, no `stop()` has come to rest. -/
theorem Inv.unsettled (h : Inv w) (hbusy : w.started = true ∨ w.connection ≠ none ∨
    w.owner ≠ none) : w.settled = false := by
  cases hs : w.settled
  · rfl
  · obtain ⟨hstarted, hconnection, howner, -⟩ := h.settled hs
    rcases hbusy with hbusy | hbusy | hbusy
    · rw [hstarted] at hbusy
      cases hbusy
    · exact absurd hconnection hbusy
    · exact absurd howner hbusy

/-- The end of a `stop()` that has got rid of the port. -/
theorem Inv.settles {closeError : Option String} (h : Inv w) (ht : w.task t = some k)
    (hjob : k.job = .stop) (hlive : k.live = true) (hready : k.phase ≠ .ready)
    (hheld : w.owner = none ∨ w.owner = some t) (htask : v.task = w.task)
    (hcount : v.count = w.count) (hcounted : Counted v) (hconnection : v.connection = none)
    (honly : v.Only none) (hstarted : v.started = w.started) :
    Inv (v.settleStop t k closeError) := by
  have hstop : v.started = false := hstarted.trans (h.stopping t k ht hjob hready hlive)
  have hno : NoStart w := by
    intro u m hu hm
    cases hl : m.live
    · rfl
    · exact (h.apart u t m k hu ht hm hjob hl hlive).elim
  have hdead : Task.live { k with phase := .ended (.returned []), cancelled := false } = true →
      k.live = true := fun hl => by cases hl
  have htask' : (v.settleStop t k closeError).task = Function.update w.task t
      (some { k with phase := .ended (.returned []), cancelled := false }) := by
    rw [← htask]
    rfl
  refine h.hold ht htask' rfl hdead hheld rfl hcount ⟨hcounted.fresh, hcounted.once⟩ ?_ ?_ ?_
  · show v.Only v.connection
    rw [hconnection]
    exact honly
  · exact stopping_update h.stopping ht htask' rfl hdead (fun _ => hstop)
      fun _ hr => absurd hr hready
  · exact fun _ => ⟨hstop, hconnection, rfl, noStart_update hno ht htask' rfl hdead⟩

theorem inv_runLocked (h : Inv w) (ht : w.task t = some k) (hk : k.phase = .locking)
    (hfree : w.owner = none)
    (hclear : k.job = .start → w.started = false → w.connection = none) :
    Inv (w.runLocked t k) := by
  have hready : k.phase ≠ .ready := by rw [hk]; nofun
  have hlive : k.live = true := by rw [Task.live, hk]
  have honly := h.free hfree
  have hcounted : Counted { w with owner := some t } := ⟨h.counted.fresh, h.counted.once⟩
  have hdead (result : Result) :
      Task.live { k with phase := .ended result, cancelled := false } = true → k.live = true :=
    fun hl => by cases hl
  have hrefuse : Inv (({ w with owner := some t } : World).release.finish t k .refused) :=
    h.ends ht hready (.inl hfree) rfl rfl hcounted honly id fun hs => by
      obtain ⟨hstarted, hconnection, -, hno⟩ := h.settled hs
      exact ⟨hstarted, hconnection, noStart_update hno ht rfl rfl (hdead .refused)⟩
  unfold World.runLocked
  cases hjob : k.job
  · -- A `start()`: no `stop()` is on its way, and there is no port to forget.
    dsimp only
    split
    · exact hrefuse
    · next hstarted =>
      rw [hclear hjob (Bool.eq_false_iff.mpr hstarted)] at honly
      have hdead := hdead (.returned [])
      refine h.hold ht rfl rfl hdead (.inl hfree) rfl rfl
        ⟨h.counted.fresh, h.counted.once⟩ honly ?_ ?_
      · intro u m hu hm _ hl
        have hu' : Function.update w.task t _ u = some m := hu
        rw [Function.update_apply] at hu'
        split at hu'
        · cases hu'
          cases hl
        · exact (h.apart t u k m ht hu' hjob hm hlive hl).elim
      · intro hs
        rw [(h.settled hs).2.2.2 t k ht hjob] at hlive
        cases hlive
  · dsimp only
    split
    · next hconnection =>
      rw [hconnection] at honly
      exact h.settles ht hjob hlive hready (.inl hfree) rfl rfl hcounted hconnection honly rfl
    · next p hconnection =>
      rw [hconnection] at honly
      exact h.closes ht hlive hready (.inl hfree) rfl rfl rfl
        ⟨h.counted.fresh, h.counted.once⟩ rfl rfl honly (fun _ _ => hjob) id
        (h.unsettled (.inr (.inl (by rw [hconnection]; nofun))))
  · dsimp only
    split
    · exact hrefuse
    · next hstarted =>
      have hsettled := h.unsettled (.inl (by simpa using hstarted))
      split
      · next hconnection =>
        rw [hconnection] at honly
        exact h.blocks ht hlive hready (.inl hfree) rfl rfl rfl hcounted ⟨hconnection, honly⟩
          (by nofun) id hsettled
      · next p hconnection =>
        rw [hconnection] at honly
        exact h.blocks ht hlive hready (.inl hfree) rfl rfl rfl hcounted ⟨hconnection, honly⟩
          (by nofun) id hsettled

/-- Once the thread has read or closed, only the connection can be open. -/
theorem World.Fits.only {purpose : Purpose} {thread : Thread} (hfits : w.Fits purpose thread)
    (hended : ∀ p, thread ≠ .opened p) (hran : thread ≠ .running) : w.Only w.connection := by
  cases thread with
  | running => exact absurd rfl hran
  | opened p => exact absurd rfl (hended p)
  | returned line =>
    cases purpose with
    | opening => cases hfits
    | _ =>
      obtain ⟨hconnection, honly⟩ := hfits
      rw [hconnection]
      exact honly
  | raised error =>
    cases purpose with
    | _ =>
      obtain ⟨hconnection, honly⟩ := hfits
      rw [hconnection]
      exact honly

/-- A task that holds the lock finds the ports as its thread has left them. -/
theorem inv_settle {purpose : Purpose} {thread : Thread} {told : Bool} (h : Inv w)
    (ht : w.task t = some k) (hk : k.phase = .blocked purpose thread told)
    (hw : w.settle t k purpose told thread = some w') : Inv w' := by
  have hready : k.phase ≠ .ready := by rw [hk]; nofun
  have hlive : k.live = true := by rw [Task.live, hk]
  have howner : w.owner = some t := h.blocked t k ht (by rw [hk]; rfl)
  have hheld : w.owner = none ∨ w.owner = some t := .inr howner
  have hsettled : w.settled = false := h.unsettled (.inr (.inr (by rw [howner]; nofun)))
  obtain ⟨hfits, hstop⟩ : w.PortsFit k.job (.blocked purpose thread told) := by
    obtain ⟨m, hm, -, hfit⟩ := h.owned t howner
    rw [ht] at hm
    cases hm
    rw [hk] at hfit
    exact hfit
  -- The three ways on: the call ends, closes the port, or waits for a read.
  have hends (v : World) (result : Result) (htask : v.task = w.task) (hcount : v.count = w.count)
      (hcounted : Counted v) (honly : v.Only v.connection) (hstarted : v.started = w.started)
      (hs : v.settled = w.settled) : Inv (v.release.finish t k result) :=
    h.ends ht hready hheld htask hcount hcounted honly (fun hw => hstarted.trans hw) fun hv => by
      rw [hs, hsettled] at hv
      cases hv
  have hcloses {purpose' : Purpose} {p : Port} (hp : purpose'.closes = some p)
      (hconnection : w.connection = none) (honly : w.Only (some p))
      (hother : ∀ q, purpose' ≠ .stopping q) : Inv (w.blockClose t k purpose' p) :=
    h.closes ht hlive hready hheld howner rfl rfl h.counted hp hconnection honly
      (fun q hq => absurd hq (hother q)) id hsettled
  have hcounted := h.counted
  cases thread with
  | running => cases hw
  | opened p =>
    cases purpose with
    | opening =>
      obtain ⟨hconnection, honly⟩ := hfits
      unfold World.settle at hw
      dsimp only at hw
      split at hw
      · cases hw
        exact hcloses rfl hconnection honly (by nofun)
      · split at hw
        · cases hw
          exact hcloses rfl hconnection honly (by nofun)
        · cases hw
          exact h.blocks ht hlive hready hheld howner rfl rfl ⟨hcounted.fresh, hcounted.once⟩
            ⟨rfl, honly⟩ (by nofun) id hsettled
    | _ => cases hfits
  | returned line =>
    have honly : w.Only w.connection := hfits.only (by nofun) (by nofun)
    unfold World.settle at hw
    dsimp only at hw
    split at hw
    · cases hw
      exact hends w .cancelled rfl rfl hcounted honly rfl rfl
    · cases purpose with
      | opening => cases hw
      | stopping p =>
        cases hw
        obtain ⟨hconnection, hnone⟩ := hfits
        exact h.settles ht (hstop p rfl) hlive hready hheld rfl rfl hcounted hconnection hnone rfl
      | _ =>
        cases hw
        exact hends _ _ rfl rfl ⟨hcounted.fresh, hcounted.once⟩ honly rfl rfl
  | raised error =>
    have honly : w.Only w.connection := hfits.only (by nofun) (by nofun)
    unfold World.settle at hw
    dsimp only at hw
    split at hw
    · cases hw
      exact hends w .cancelled rfl rfl hcounted honly rfl rfl
    · cases purpose with
      | reading p =>
        obtain ⟨hconnection, honly⟩ := hfits
        dsimp only at hw
        rw [if_pos hconnection] at hw
        cases hw
        exact h.closes ht hlive hready hheld howner rfl rfl ⟨hcounted.fresh, hcounted.once⟩ rfl rfl
          honly (by nofun) id hsettled
      | stopping p =>
        cases hw
        obtain ⟨hconnection, hnone⟩ := hfits
        exact h.settles ht (hstop p rfl) hlive hready hheld rfl rfl hcounted hconnection hnone rfl
      | _ =>
        cases hw
        exact hends _ _ rfl rfl ⟨hcounted.fresh, hcounted.once⟩ honly rfl rfl

/-- The thread of the holder of the lock ends. -/
theorem inv_finishThread {purpose : Purpose} {told : Bool} {outcome : Except String Bytes}
    (h : Inv w) (ht : w.task t = some k) (hk : k.phase = .blocked purpose .running told) :
    Inv (w.finishThread t k purpose told outcome) := by
  have hready : k.phase ≠ .ready := by rw [hk]; nofun
  have hlive : k.live = true := by rw [Task.live, hk]
  have howner : w.owner = some t := h.blocked t k ht (by rw [hk]; rfl)
  have hsettled : w.settled = false := h.unsettled (.inr (.inr (by rw [howner]; nofun)))
  obtain ⟨hfits, hstop⟩ : w.PortsFit k.job (.blocked purpose .running told) := by
    obtain ⟨m, hm, -, hfit⟩ := h.owned t howner
    rw [ht] at hm
    cases hm
    rw [hk] at hfit
    exact hfit
  -- The task waits as before, for a thread that has ended.
  have hwaits (v : World) (thread : Thread) (htask : v.task = w.task) (hcount : v.count = w.count)
      (hv : v.owner = w.owner) (hcounted : Counted v) (hstarted : v.started = w.started)
      (hs : v.settled = w.settled) (hfits : v.Fits purpose thread) :
      Inv (v.put t { k with phase := .blocked purpose thread told }) := by
    have htask' : (v.put t { k with phase := .blocked purpose thread told }).task =
        Function.update w.task t (some { k with phase := .blocked purpose thread told }) := by
      rw [← htask]
      rfl
    refine h.hold ht htask' rfl (fun _ => hlive) (.inr howner) (hv.trans howner) hcount
      ⟨hcounted.fresh, hcounted.once⟩ ⟨hfits, hstop⟩ ?_ ?_
    · exact stopping_update h.stopping ht htask' rfl (fun _ => hlive)
        (fun hw => hstarted.trans hw) fun _ hr => absurd hr hready
    · intro hv'
      rw [show v.settled = true from hv'] at hs
      rw [← hs] at hsettled
      cases hsettled
  -- A thread that closes: the port counts as closed, whether `close()` raised or not.
  have hclosed (p : Port) (hp : purpose.closes = some p) (thread : Thread)
      (hgone : ∀ v : World, v.connection = none → v.Only none → v.Fits purpose thread)
      (hfits : w.connection = none ∧ ∃ p, purpose.closes = some p ∧ w.Closing p) :
      Inv ({ w with closed := Function.update w.closed p true }.put t
        { k with phase := .blocked purpose thread told }) := by
    obtain ⟨hconnection, q, hq, hlt, -, -, hrest⟩ := hfits
    obtain rfl : q = p := Option.some.inj (hq.symm.trans hp)
    refine hwaits _ thread rfl rfl rfl ⟨?_, h.counted.once⟩ rfl rfl (hgone _ hconnection ?_)
    · intro r hr
      have hne : r ≠ q := by
        rintro rfl
        exact absurd hlt (Nat.not_lt.mpr hr)
      dsimp only
      rw [Function.update_of_ne hne]
      exact h.counted.fresh r hr
    · intro r hr
      dsimp only
      rw [Function.update_apply]
      split
      · rfl
      · next hne => exact hrest r hr hne
  cases purpose with
  | opening =>
    obtain ⟨hconnection, hnone⟩ := hfits
    cases outcome with
    | error error => exact hwaits w _ rfl rfl rfl h.counted rfl rfl ⟨hconnection, hnone⟩
    | ok line =>
      obtain ⟨hcloses, hopen⟩ := h.counted.fresh w.ports (Nat.le_refl _)
      refine hwaits _ _ rfl rfl rfl ⟨?_, h.counted.once⟩ rfl rfl
        ⟨hconnection, Nat.lt_succ_self _, hopen, hcloses, ?_⟩
      · intro p hp
        exact h.counted.fresh p (Nat.le_of_succ_le hp)
      · intro q hq hne
        exact hnone q (Nat.lt_of_le_of_ne (Nat.le_of_lt_succ hq) hne)
  | reading p =>
    cases outcome with
    | error error => exact hwaits w _ rfl rfl rfl h.counted rfl rfl hfits
    | ok line => exact hwaits w _ rfl rfl rfl h.counted rfl rfl hfits
  | _ p =>
    cases outcome with
    | error error => exact hclosed p rfl _ (fun v hv hnone => ⟨hv, hnone⟩) hfits
    | ok line => exact hclosed p rfl _ (fun v hv hnone => ⟨hv, hnone⟩) hfits

theorem inv_run {waits : Bool} (h : Inv w) (hclear : Clear w (.run t waits))
    (hw : w.run t waits = some w') : Inv w' := by
  unfold World.run at hw
  cases ht : w.task t with
  | none =>
    rw [ht] at hw
    cases hw
  | some k =>
    rw [ht] at hw
    dsimp only at hw
    cases hk : k.phase with
    | ready =>
      rw [hk] at hw
      dsimp only at hw
      split at hw
      · cases hw
        exact inv_finish h ht (by rw [hk]; rfl)
      · cases hw
        exact inv_runReady h ht hk
    | waiting =>
      rw [hk] at hw
      dsimp only at hw
      split at hw
      · cases hw
        exact inv_finish h ht (by rw [hk]; rfl)
      · cases hw
        have hfree : k.phase.isBlocked = false := by rw [hk]; rfl
        exact h.frame ht rfl rfl (fun _ => by rw [Task.live, hk]) hfree rfl rfl rfl rfl rfl rfl rfl
          rfl id fun _ hr => by rw [hk] at hr; cases hr
    | locking =>
      rw [hk] at hw
      dsimp only at hw
      split at hw
      · cases hw
        exact inv_finish h ht (by rw [hk]; rfl)
      · next hcancelled =>
        split at hw
        · next hfree =>
          cases hw
          exact inv_runLocked h ht hk hfree fun hjob =>
            hclear k ht hjob hk (Bool.eq_false_iff.mpr hcancelled)
        · cases hw
    | blocked purpose thread told =>
      rw [hk] at hw
      dsimp only at hw
      split at hw
      · cases hw
        refine inv_mark h ht rfl (by rw [hk]; rfl) (by rw [hk]; rfl) ?_ (by simp [Task.live, hk])
        intro hr
        rw [hk] at hr
        cases hr
      · exact inv_settle h ht hk hw
    | ended result =>
      rw [hk] at hw
      cases hw

theorem inv_step {l : Label} (h : Inv w) (hok : Separate w l ∧ Clear w l)
    (hw : step w l = some w') : Inv w' := by
  obtain ⟨hsep, hclear⟩ := hok
  cases l with
  | call job =>
    cases hw
    exact inv_spawn h hsep
  | cancel u =>
    unfold step at hw
    dsimp only at hw
    cases hu : w.task u with
    | none =>
      rw [hu] at hw
      cases hw
    | some m =>
      rw [hu] at hw
      dsimp only at hw
      split at hw
      · cases hw
        exact inv_mark h hu rfl rfl rfl id rfl
      · cases hw
  | run u waits => exact inv_run h hclear hw
  | finish u outcome =>
    unfold step at hw
    dsimp only at hw
    cases hu : w.task u with
    | none =>
      rw [hu] at hw
      cases hw
    | some m =>
      rw [hu] at hw
      dsimp only at hw
      split at hw
      · next hphase =>
        cases hw
        exact inv_finishThread h hu hphase
      · cases hw

end Steps

/-! ## Ownership -/

/-- What the source promises of its ports. -/
structure Owned (w : World) : Prop where
  oneOpen : ∀ p < w.ports, ∀ q < w.ports, w.closed p = false → w.closed q = false → p = q
  /-- While a thread reads, `close()` was not called on its port. -/
  unclosed : ∀ t k p told, w.task t = some k → k.phase = .blocked (.reading p) .running told →
    w.closes p = 0
  closedOnce : ∀ p, w.closes p ≤ 1
  /-- A `stop()` has returned, and no read is on its way. -/
  allClosed : w.settled = true → ¬ w.Busy .readLine → ∀ p < w.ports, w.closed p = true

/-- At most this port is open. -/
theorem World.Only.eq_of_open {w : World} {c : Option Port} (h : w.Only c) {q : Port}
    (hq : q < w.ports) (hopen : w.closed q = false) : c = some q := by
  cases c with
  | none =>
    rw [h q hq] at hopen
    cases hopen
  | some p =>
    by_cases hne : q = p
    · rw [hne]
    · rw [h.2.2.2 q hq hne] at hopen
      cases hopen

theorem World.Fits.eq_of_open {w : World} {purpose : Purpose} {thread : Thread}
    (h : w.Fits purpose thread) :
    ∃ c, ∀ q < w.ports, w.closed q = false → c = some q := by
  have hof {c : Option Port} (honly : w.Only c) :
      ∃ c, ∀ q < w.ports, w.closed q = false → c = some q :=
    ⟨c, fun q hq hopen => honly.eq_of_open hq hopen⟩
  unfold World.Fits at h
  split at h
  · exact hof h.2
  · exact h.elim
  · exact hof h.2
  · exact h.elim
  · exact hof h.2
  · -- A thread closes the port.
    obtain ⟨-, p, -, hclosing⟩ := h
    refine ⟨some p, fun q hq hopen => ?_⟩
    by_cases hne : q = p
    · rw [hne]
    · rw [hclosing.2.2.2 q hq hne] at hopen
      cases hopen
  · exact hof h.2

theorem Inv.eq_of_open {w : World} (h : Inv w) :
    ∃ c, ∀ q < w.ports, w.closed q = false → c = some q := by
  cases howner : w.owner with
  | none => exact ⟨w.connection, fun q hq hopen => (h.free howner).eq_of_open hq hopen⟩
  | some t =>
    obtain ⟨k, -, hblocked, hfit⟩ := h.owned t howner
    unfold World.PortsFit at hfit
    split at hfit
    · exact hfit.1.eq_of_open
    · next hnot =>
      cases hphase : k.phase with
      | blocked purpose thread told => exact absurd hphase (hnot purpose thread told)
      | _ =>
        rw [hphase] at hblocked
        cases hblocked

/-- **Every opened port has one owner until it is closed**, in every run in which no `start()`
finds a port. -/
theorem port_owned {ls : List Label} {w : World}
    (hls : Transition.Meets step (fun w l => Separate w l ∧ Clear w l) World.init ls)
    (hw : Transition.exec step World.init ls = some w) : Owned w := by
  have h : Inv w := Transition.invariant_of_meets (fun _ _ _ => inv_step) inv_init hls hw
  refine ⟨?_, ?_, h.counted.once, ?_⟩
  · intro p hp q hq hopen hopen'
    obtain ⟨c, hc⟩ := h.eq_of_open
    exact Option.some.inj ((hc p hp hopen).symm.trans (hc q hq hopen'))
  · intro t k p told ht hk
    obtain ⟨m, hm, -, hfit⟩ := h.owned t (h.blocked t k ht (by rw [hk]; rfl))
    rw [ht] at hm
    cases hm
    rw [hk] at hfit
    exact hfit.1.2.2.2.1
  · intro hs _ p hp
    obtain ⟨-, hconnection, hfree, -⟩ := h.settled hs
    have honly := h.free hfree
    rw [hconnection] at honly
    exact honly p hp

/-! ## A cancelled `stop()` -/

instance (w : World) : (l : Label) → Decidable (Separate w l)
  | .call .start => inferInstanceAs (Decidable (¬ ∃ t < w.count, ∃ k ∈ w.task t, _))
  | .call .stop => inferInstanceAs (Decidable (¬ ∃ t < w.count, ∃ k ∈ w.task t, _))
  | .call .readLine => isTrue trivial
  | .cancel _ => isTrue trivial
  | .run _ _ => isTrue trivial
  | .finish _ _ => isTrue trivial

instance (w : World) : (l : Label) → Decidable (Clear w l)
  | .run t _ => inferInstanceAs (Decidable (∀ k ∈ w.task t, _))
  | .call _ => isTrue trivial
  | .cancel _ => isTrue trivial
  | .finish _ _ => isTrue trivial

/-- A port is opened and read; the read holds the lock. -/
def readingRun : List Label :=
  [.call .start, .run 0 false, .run 0 false,
    .call .readLine, .run 1 false, .run 1 false, .finish 1 (.ok []), .run 1 false]

/-- A `stop()` waits for the lock and is cancelled; the next `start()` forgets the port. -/
def forgottenRun : List Label :=
  readingRun ++
    [.call .stop, .run 2 false, .cancel 2, .run 2 false,
      .finish 1 (.ok [0x6f, 0x6b, 0x0a]), .run 1 false,
      .call .start, .run 3 false, .run 3 false,
      .call .readLine, .run 4 false, .run 4 false, .finish 4 (.ok [])]

/-- **Two ports are open**, after a `stop()` that was cancelled while it waited for the lock. -/
theorem ports_not_owned : ∃ ls w, Transition.Meets step Separate World.init ls ∧
    Transition.exec step World.init ls = some w ∧ ¬ Owned w := by
  have hrun : (Transition.exec step World.init forgottenRun).map
      (fun w => (w.ports, w.closed 0, w.closed 1)) = some (2, false, false) := by
    decide
  obtain ⟨w, hw, hports⟩ := Option.map_eq_some_iff.mp hrun
  refine ⟨forgottenRun, w, by decide, hw, fun howned => ?_⟩
  have hzero := congrArg (·.2.1) hports
  have hone := congrArg (·.2.2) hports
  have hcount := congrArg (·.1) hports
  dsimp only at hzero hone hcount
  exact absurd (howned.oneOpen 0 (by omega) 1 (by omega) hzero hone) (by decide)

/-- A `stop()` that gets the lock closes the port, and the next `start()` finds none. -/
theorem port_owned_stop : ∃ w,
    Transition.exec step World.init (readingRun ++
      [.call .stop, .run 2 false, .cancel 1, .run 1 false, .finish 1 (.error "EIO"), .run 1 false,
        .run 2 false, .finish 2 (.ok []), .run 2 false, .call .start, .run 3 false,
        .run 3 false]) = some w ∧ Owned w := by
  have hrun : (Transition.exec step World.init (readingRun ++
      [.call .stop, .run 2 false, .cancel 1, .run 1 false, .finish 1 (.error "EIO"), .run 1 false,
        .run 2 false, .finish 2 (.ok []), .run 2 false, .call .start, .run 3 false,
        .run 3 false])).isSome = true := by
    decide
  obtain ⟨w, hw⟩ := Option.isSome_iff_exists.mp hrun
  exact ⟨w, hw, port_owned (by decide) hw⟩

end SmartDesk.Serial

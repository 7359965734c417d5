import Mathlib.Data.List.Perm.Basic
import SmartDesk.Lib.Transition
import SmartDesk.Voice.Models

/-!
# The microphone queue

`LocalAudioInput` of `modules/voice/audio.py`: frames cross from the callback of the audio
thread to the event loop, which puts them in a bounded queue that `read` takes from.

* `LocalAudioInput`, `step` — one step is a callback, or what the event loop does between
  two `await`s.
* `queue_conserved` — **every frame in the queue has exactly one fate, and what is read
  comes in the order of the callbacks.**
-/

namespace SmartDesk.Voice

/-- A chunk with the number of its callback. -/
structure Frame where
  number : ℕ
  pcm : List UInt8
  capturedAt : ℚ
  deriving DecidableEq

/-- A call of `_enqueue_from_loop` that the callback has handed to the event loop. -/
structure Deferred where
  generation : ℕ
  frame : Frame
  inputOverflow : Bool
  deriving DecidableEq

/-- The input, with the readers at the queue and the history of its frames. -/
structure LocalAudioInput where
  queue : List Frame := []
  /-- The readers that wait, in the order in which they are woken. -/
  getters : List ℕ := []
  /-- The readers whose wait is over, and that have not run yet. -/
  woken : List ℕ := []
  /-- The readers that were cancelled after their wait was over. -/
  expired : List ℕ := []
  deferred : List Deferred := []
  accepting : Bool := false
  generation : ℕ := 0
  droppedFrames : ℕ := 0
  overflowFrames : ℕ := 0
  callbackErrors : ℕ := 0
  callbacks : ℕ := 0
  /-- The number of callbacks before the last `discard_pending`. -/
  discardedAt : ℕ := 0
  enqueued : List Frame := []
  returned : List Frame := []
  evicted : List Frame := []
  discarded : List Frame := []

inductive AudioLabel where
  | callback (pcm : List UInt8) (capturedAt : ℚ) (inputOverflow : Bool)
  /-- The callback raises; it hands nothing over. -/
  | callbackFails
  /-- The event loop runs the oldest deferred call. -/
  | enqueueFromLoop
  | setAccepting (enabled : Bool)
  | discardPending
  | read (reader : ℕ)
  | resume (reader : ℕ)
  /-- The timeout of a `read` expires, or its task is cancelled. -/
  | expire (reader : ℕ)

namespace LocalAudioInput

/-- `asyncio.Queue._wakeup_next(getters)`. -/
def wakeupNext (a : LocalAudioInput) : LocalAudioInput :=
  match a.getters with
  | [] => a
  | reader :: rest => { a with getters := rest, woken := a.woken ++ [reader] }

def callback (pcm : List UInt8) (capturedAt : ℚ) (inputOverflow : Bool) (a : LocalAudioInput) :
    LocalAudioInput :=
  { a with
    callbacks := a.callbacks + 1,
    deferred := a.deferred ++ [⟨a.generation, ⟨a.callbacks, pcm, capturedAt⟩, inputOverflow⟩] }

/-- `self._queue.full()`. -/
def full (capacity : ℕ) (a : LocalAudioInput) : Bool :=
  0 < capacity && capacity ≤ a.queue.length

/-- The oldest frame leaves the queue. -/
def evict (a : LocalAudioInput) : LocalAudioInput :=
  match a.queue with
  | [] => a
  | oldest :: rest =>
      { a with
        queue := rest, droppedFrames := a.droppedFrames + 1, evicted := a.evicted ++ [oldest] }

def countOverflow (inputOverflow : Bool) (a : LocalAudioInput) : LocalAudioInput :=
  if inputOverflow then { a with overflowFrames := a.overflowFrames + 1 } else a

def makeRoom (capacity : ℕ) (a : LocalAudioInput) : LocalAudioInput :=
  if a.full capacity then a.evict else a

/-- `self._queue.put_nowait(chunk)`. -/
def put (frame : Frame) (a : LocalAudioInput) : LocalAudioInput :=
  { a with queue := a.queue ++ [frame], enqueued := a.enqueued ++ [frame] }.wakeupNext

/-- `_enqueue_from_loop(generation, pcm, captured_at, input_overflow, has_status)`. -/
def enqueueFromLoop (capacity : ℕ) (d : Deferred) (a : LocalAudioInput) : LocalAudioInput :=
  if d.generation ≠ a.generation ∨ a.accepting = false then a
  else if d.frame.pcm.length ≠ inputFrameBytes then
    { a with callbackErrors := a.callbackErrors + 1 }
  else ((a.countOverflow d.inputOverflow).makeRoom capacity).put d.frame

/-- `discard_pending()`. -/
def discardPending (a : LocalAudioInput) : LocalAudioInput :=
  { a with
    generation := a.generation + 1, queue := [], discarded := a.discarded ++ a.queue,
    discardedAt := a.callbacks }

/-- `asyncio.Queue.get()` at the head of its loop. -/
def get (reader : ℕ) (a : LocalAudioInput) : LocalAudioInput :=
  match a.queue with
  | [] => { a with getters := a.getters ++ [reader] }
  | frame :: rest => { a with queue := rest, returned := a.returned ++ [frame] }

/-- A reader that was woken goes on; a cancelled one wakes the next if there is a frame. -/
def resume (reader : ℕ) (a : LocalAudioInput) : Option LocalAudioInput :=
  if reader ∈ a.woken then some ({ a with woken := a.woken.erase reader }.get reader)
  else if reader ∈ a.expired then
    let a := { a with expired := a.expired.erase reader }
    some (if a.queue = [] then a else a.wakeupNext)
  else none

def expire (reader : ℕ) (a : LocalAudioInput) : Option LocalAudioInput :=
  if reader ∈ a.getters then some { a with getters := a.getters.erase reader }
  else if reader ∈ a.woken then
    some { a with woken := a.woken.erase reader, expired := a.expired ++ [reader] }
  else none

/-- What can happen to an input whose queue holds `capacity` frames. -/
def step (capacity : ℕ) (a : LocalAudioInput) : AudioLabel → Option LocalAudioInput
  | .callback pcm capturedAt inputOverflow => some (a.callback pcm capturedAt inputOverflow)
  | .callbackFails => some { a with callbackErrors := a.callbackErrors + 1 }
  | .enqueueFromLoop =>
      match a.deferred with
      | [] => none
      | d :: rest => some ({ a with deferred := rest }.enqueueFromLoop capacity d)
  | .setAccepting enabled => some { a with accepting := enabled }
  | .discardPending => some a.discardPending
  | .read reader =>
      if reader ∈ a.getters ++ a.woken ++ a.expired then none else some (a.get reader)
  | .resume reader => a.resume reader
  | .expire reader => a.expire reader

/-! ## Conservation -/

/-- The frames are in the order of their callbacks. -/
def InOrder (frames : List Frame) : Prop := frames.Pairwise fun f g => f.number < g.number

/-- The frames that are no longer in the queue. -/
def gone (a : LocalAudioInput) : List Frame := a.returned ++ a.evicted ++ a.discarded

/-- What the history of an input is like. -/
structure Conserved (capacity : ℕ) (a : LocalAudioInput) : Prop where
  fates : a.enqueued.Perm (a.gone ++ a.queue)
  enqueued : InOrder a.enqueued
  returned : InOrder a.returned
  queue : InOrder a.queue
  before : ∀ f ∈ a.gone, ∀ g ∈ a.queue, f.number < g.number
  deferred : InOrder (a.deferred.map (·.frame))
  later : ∀ f ∈ a.enqueued, ∀ d ∈ a.deferred, f.number < d.frame.number
  past : ∀ f ∈ a.enqueued, f.number < a.callbacks
  numbered : ∀ d ∈ a.deferred, d.frame.number < a.callbacks
  marked : a.discardedAt ≤ a.callbacks
  generations : ∀ d ∈ a.deferred, d.generation ≤ a.generation
  fresh : ∀ d ∈ a.deferred, d.generation = a.generation → a.discardedAt ≤ d.frame.number
  dropped : a.evicted.length = a.droppedFrames
  size : a.queue.length ≤ capacity

variable {capacity : ℕ} {a a' : LocalAudioInput}

theorem conserved_created (capacity : ℕ) : Conserved capacity {} :=
  ⟨.refl _, .nil, .nil, .nil, by simp, .nil, by simp, by simp, by simp, Nat.le_refl _, by simp,
    by simp, rfl, Nat.zero_le _⟩

/-- Who waits, and the other counters, do not matter to the frames. -/
theorem Conserved.waiting (h : Conserved capacity a) (getters woken expired : List ℕ)
    (accepting : Bool) (overflowFrames callbackErrors : ℕ) :
    Conserved capacity
      { a with
        getters := getters, woken := woken, expired := expired, accepting := accepting,
        overflowFrames := overflowFrames, callbackErrors := callbackErrors } :=
  ⟨h.fates, h.enqueued, h.returned, h.queue, h.before, h.deferred, h.later, h.past,
    h.numbered, h.marked, h.generations, h.fresh, h.dropped, h.size⟩

theorem Conserved.wakeupNext (h : Conserved capacity a) : Conserved capacity a.wakeupNext := by
  unfold LocalAudioInput.wakeupNext
  split
  · exact h
  · exact h.waiting _ _ _ _ _ _

theorem inOrder_append_singleton {frames : List Frame} {frame : Frame} (h : InOrder frames)
    (hlast : ∀ f ∈ frames, f.number < frame.number) : InOrder (frames ++ [frame]) := by
  refine List.pairwise_append.mpr ⟨h, List.pairwise_singleton _ _, fun f hf g hg => ?_⟩
  rw [List.mem_singleton.mp hg]
  exact hlast f hf

theorem Conserved.callback (h : Conserved capacity a) (pcm : List UInt8) (capturedAt : ℚ)
    (inputOverflow : Bool) : Conserved capacity (a.callback pcm capturedAt inputOverflow) where
  fates := h.fates
  enqueued := h.enqueued
  returned := h.returned
  queue := h.queue
  before := h.before
  deferred := by
    show InOrder ((a.deferred ++ [_]).map _)
    rw [List.map_append]
    refine inOrder_append_singleton h.deferred fun f hf => ?_
    obtain ⟨d, hd, rfl⟩ := List.mem_map.mp hf
    exact h.numbered d hd
  later := by
    intro f hf d hd
    rcases List.mem_append.mp hd with hold | hnew
    · exact h.later f hf d hold
    · rw [List.mem_singleton.mp hnew]
      exact h.past f hf
  past := fun f hf => Nat.lt_succ_of_lt (h.past f hf)
  numbered := by
    intro d hd
    rcases List.mem_append.mp hd with hold | hnew
    · exact Nat.lt_succ_of_lt (h.numbered d hold)
    · rw [List.mem_singleton.mp hnew]
      exact Nat.lt_succ_self _
  marked := Nat.le_succ_of_le h.marked
  generations := by
    intro d hd
    rcases List.mem_append.mp hd with hold | hnew
    · exact h.generations d hold
    · rw [List.mem_singleton.mp hnew]
      exact Nat.le_refl _
  fresh := by
    intro d hd hgeneration
    rcases List.mem_append.mp hd with hold | hnew
    · exact h.fresh d hold hgeneration
    · rw [List.mem_singleton.mp hnew]
      exact h.marked
  dropped := h.dropped
  size := h.size

theorem Conserved.discardPending (h : Conserved capacity a) :
    Conserved capacity a.discardPending where
  fates := by
    show a.enqueued.Perm (a.returned ++ a.evicted ++ (a.discarded ++ a.queue) ++ [])
    rw [List.append_nil, ← List.append_assoc]
    exact h.fates
  enqueued := h.enqueued
  returned := h.returned
  queue := .nil
  before := by
    intro f _ g hg
    cases hg
  deferred := h.deferred
  later := h.later
  past := h.past
  numbered := h.numbered
  marked := Nat.le_refl _
  generations := fun d hd => Nat.le_succ_of_le (h.generations d hd)
  fresh := by
    -- No deferred call carries the new generation yet.
    intro d hd hgeneration
    have hle := h.generations d hd
    have heq : d.generation = a.generation + 1 := hgeneration
    omega
  dropped := h.dropped
  size := Nat.zero_le _

/-- The oldest frame leaves the queue. -/
theorem Conserved.head (h : Conserved capacity a) {frame : Frame} {rest : List Frame}
    (hqueue : a.queue = frame :: rest) :
    InOrder rest ∧ (∀ g ∈ rest, frame.number < g.number) ∧
      (∀ f ∈ a.gone, f.number < frame.number ∧ ∀ g ∈ rest, f.number < g.number) ∧
      rest.length + 1 ≤ capacity := by
  have hinOrder := h.queue
  have hsize := h.size
  rw [hqueue] at hinOrder hsize
  obtain ⟨hfirst, hrest⟩ := List.pairwise_cons.mp hinOrder
  refine ⟨hrest, hfirst, fun f hf => ⟨?_, fun g hg => ?_⟩, hsize⟩
  · exact h.before f hf frame (by rw [hqueue]; exact List.mem_cons_self)
  · exact h.before f hf g (by rw [hqueue]; exact List.mem_cons_of_mem _ hg)

theorem mem_gone {f : Frame} :
    f ∈ a.gone ↔ f ∈ a.returned ∨ f ∈ a.evicted ∨ f ∈ a.discarded := by
  simp [gone]

/-- A frame goes from the queue to one of the lists before it. -/
theorem perm_move (xs ys : List Frame) (frame : Frame) (rest : List Frame) :
    (xs ++ ys ++ frame :: rest).Perm (xs ++ [frame] ++ ys ++ rest) := by
  have hleft : (xs ++ ys ++ frame :: rest).Perm (frame :: (xs ++ ys ++ rest)) :=
    List.perm_middle
  have hright : (xs ++ frame :: (ys ++ rest)).Perm (frame :: (xs ++ (ys ++ rest))) :=
    List.perm_middle
  refine hleft.trans ?_
  simpa using hright.symm

theorem Conserved.get (h : Conserved capacity a) (reader : ℕ) :
    Conserved capacity (a.get reader) := by
  unfold LocalAudioInput.get
  split
  · exact h.waiting _ _ _ _ _ _
  · next frame rest hqueue =>
    obtain ⟨hrest, hfirst, hgone, hsize⟩ := h.head hqueue
    refine ⟨?_, h.enqueued, ?_, hrest, ?_, h.deferred, h.later, h.past, h.numbered, h.marked,
      h.generations, h.fresh, h.dropped, Nat.le_of_succ_le hsize⟩
    · have hfates := h.fates
      rw [hqueue] at hfates
      refine hfates.trans ?_
      simpa [gone] using perm_move a.returned (a.evicted ++ a.discarded) frame rest
    · exact inOrder_append_singleton h.returned fun f hf => (hgone f (mem_gone.mpr (.inl hf))).1
    · intro f hf g hg
      rcases mem_gone.mp hf with hreturned | hother
      · rcases List.mem_append.mp hreturned with hold | hnew
        · exact (hgone f (mem_gone.mpr (.inl hold))).2 g hg
        · rw [List.mem_singleton.mp hnew]
          exact hfirst g hg
      · exact (hgone f (mem_gone.mpr (.inr hother))).2 g hg

theorem Conserved.evict (h : Conserved capacity a) : Conserved capacity a.evict := by
  unfold LocalAudioInput.evict
  split
  · exact h
  · next frame rest hqueue =>
    obtain ⟨hrest, hfirst, hgone, hsize⟩ := h.head hqueue
    refine ⟨?_, h.enqueued, h.returned, hrest, ?_, h.deferred, h.later, h.past, h.numbered,
      h.marked, h.generations, h.fresh, ?_, Nat.le_of_succ_le hsize⟩
    · have hfates := h.fates
      rw [hqueue] at hfates
      refine hfates.trans ?_
      simpa [gone] using perm_move (a.returned ++ a.evicted) a.discarded frame rest
    · intro f hf g hg
      rcases mem_gone.mp hf with hreturned | hevicted | hdiscarded
      · exact (hgone f (mem_gone.mpr (.inl hreturned))).2 g hg
      · rcases List.mem_append.mp hevicted with hold | hnew
        · exact (hgone f (mem_gone.mpr (.inr (.inl hold)))).2 g hg
        · rw [List.mem_singleton.mp hnew]
          exact hfirst g hg
      · exact (hgone f (mem_gone.mpr (.inr (.inr hdiscarded)))).2 g hg
    · show (a.evicted ++ [frame]).length = a.droppedFrames + 1
      rw [List.length_append, h.dropped]
      rfl

theorem Conserved.length_evict_lt (h : Conserved capacity a) (hcapacity : 0 < capacity) :
    a.evict.queue.length < capacity := by
  unfold LocalAudioInput.evict
  split
  · next hqueue =>
    rw [hqueue]
    exact hcapacity
  · next frame rest hqueue => exact (h.head hqueue).2.2.2

/-- A frame that is younger than all is put at the end of a queue that has room. -/
theorem Conserved.put (h : Conserved capacity a) {frame : Frame}
    (hroom : a.queue.length < capacity) (hyoung : ∀ f ∈ a.enqueued, f.number < frame.number)
    (hpast : frame.number < a.callbacks)
    (hlater : ∀ d ∈ a.deferred, frame.number < d.frame.number) :
    Conserved capacity (a.put frame) := by
  apply Conserved.wakeupNext
  have hknown : ∀ f ∈ a.gone ++ a.queue, f.number < frame.number :=
    fun f hf => hyoung f (h.fates.mem_iff.mpr hf)
  refine ⟨?_, inOrder_append_singleton h.enqueued hyoung, h.returned, ?_, ?_, h.deferred, ?_, ?_,
    h.numbered, h.marked, h.generations, h.fresh, h.dropped, ?_⟩
  · show (a.enqueued ++ [frame]).Perm (a.gone ++ (a.queue ++ [frame]))
    rw [← List.append_assoc]
    exact h.fates.append_right _
  · exact inOrder_append_singleton h.queue fun f hf => hknown f (List.mem_append_right _ hf)
  · intro f hf g hg
    rcases List.mem_append.mp hg with hold | hnew
    · exact h.before f hf g hold
    · rw [List.mem_singleton.mp hnew]
      exact hknown f (List.mem_append_left _ hf)
  · intro f hf d hd
    rcases List.mem_append.mp hf with hold | hnew
    · exact h.later f hold d hd
    · rw [List.mem_singleton.mp hnew]
      exact hlater d hd
  · intro f hf
    rcases List.mem_append.mp hf with hold | hnew
    · exact h.past f hold
    · rw [List.mem_singleton.mp hnew]
      exact hpast
  · show (a.queue ++ [frame]).length ≤ capacity
    rw [List.length_append]
    exact hroom

theorem Conserved.countOverflow (h : Conserved capacity a) (inputOverflow : Bool) :
    Conserved capacity (a.countOverflow inputOverflow) := by
  unfold LocalAudioInput.countOverflow
  split
  · exact h.waiting _ _ _ _ _ _
  · exact h

theorem Conserved.makeRoom (h : Conserved capacity a) (hcapacity : 0 < capacity) :
    Conserved capacity (a.makeRoom capacity) ∧ (a.makeRoom capacity).queue.length < capacity := by
  unfold LocalAudioInput.makeRoom
  split
  · exact ⟨h.evict, h.length_evict_lt hcapacity⟩
  · next hfull =>
    refine ⟨h, ?_⟩
    simp only [full, Bool.and_eq_true, decide_eq_true_eq, not_and, not_le] at hfull
    exact hfull hcapacity

/-- What making room leaves alone, and which frame it evicts. -/
theorem makeRoom_fields (capacity : ℕ) (a : LocalAudioInput) :
    (a.makeRoom capacity).enqueued = a.enqueued ∧ (a.makeRoom capacity).callbacks = a.callbacks ∧
      (a.makeRoom capacity).deferred = a.deferred ∧
      ∀ f ∈ (a.makeRoom capacity).evicted, f ∈ a.evicted ∨ ∃ rest, a.queue = f :: rest := by
  unfold makeRoom evict
  split
  · split
    · exact ⟨rfl, rfl, rfl, fun f hf => .inl hf⟩
    · next oldest rest hqueue =>
      refine ⟨rfl, rfl, rfl, fun f hf => ?_⟩
      rcases List.mem_append.mp hf with hold | hnew
      · exact .inl hold
      · rw [List.mem_singleton.mp hnew]
        exact .inr ⟨rest, hqueue⟩
  · exact ⟨rfl, rfl, rfl, fun f hf => .inl hf⟩

theorem countOverflow_fields (inputOverflow : Bool) (a : LocalAudioInput) :
    (a.countOverflow inputOverflow).enqueued = a.enqueued ∧
      (a.countOverflow inputOverflow).callbacks = a.callbacks ∧
      (a.countOverflow inputOverflow).deferred = a.deferred ∧
      (a.countOverflow inputOverflow).evicted = a.evicted ∧
      (a.countOverflow inputOverflow).queue = a.queue := by
  unfold countOverflow
  split <;> exact ⟨rfl, rfl, rfl, rfl, rfl⟩

/-- The oldest deferred call is taken out. -/
theorem Conserved.popDeferred (h : Conserved capacity a) {d : Deferred} {rest : List Deferred}
    (hdeferred : a.deferred = d :: rest) : Conserved capacity { a with deferred := rest } := by
  have hmem : ∀ e ∈ rest, e ∈ a.deferred := fun e he => by
    rw [hdeferred]
    exact List.mem_cons_of_mem _ he
  have hinOrder := h.deferred
  rw [hdeferred, List.map_cons] at hinOrder
  exact ⟨h.fates, h.enqueued, h.returned, h.queue, h.before, (List.pairwise_cons.mp hinOrder).2,
    fun f hf e he => h.later f hf e (hmem e he), h.past, fun e he => h.numbered e (hmem e he),
    h.marked, fun e he => h.generations e (hmem e he), fun e he => h.fresh e (hmem e he),
    h.dropped, h.size⟩

theorem Conserved.enqueueFromLoop (h : Conserved capacity a) (hcapacity : 0 < capacity)
    {d : Deferred} {rest : List Deferred} (hdeferred : a.deferred = d :: rest) :
    Conserved capacity ({ a with deferred := rest }.enqueueFromLoop capacity d) := by
  have hpop := h.popDeferred hdeferred
  have hhead : d ∈ a.deferred := by rw [hdeferred]; exact List.mem_cons_self
  have hinOrder := h.deferred
  rw [hdeferred, List.map_cons] at hinOrder
  have hlater : ∀ e ∈ rest, d.frame.number < e.frame.number := fun e he =>
    (List.pairwise_cons.mp hinOrder).1 _ (List.mem_map_of_mem he)
  unfold LocalAudioInput.enqueueFromLoop
  split
  · exact hpop
  · split
    · exact hpop.waiting _ _ _ _ _ _
    · obtain ⟨hroom, hlength⟩ := (hpop.countOverflow d.inputOverflow).makeRoom hcapacity
      obtain ⟨henqueued, hcallbacks, hrest, -⟩ := makeRoom_fields capacity
        ({ a with deferred := rest }.countOverflow d.inputOverflow)
      obtain ⟨henqueued', hcallbacks', hrest', -⟩ :=
        countOverflow_fields d.inputOverflow { a with deferred := rest }
      refine hroom.put hlength ?_ ?_ ?_
      · rw [henqueued, henqueued']
        exact fun f hf => h.later f hf d hhead
      · rw [hcallbacks, hcallbacks']
        exact h.numbered d hhead
      · rw [hrest, hrest']
        exact hlater

theorem conserved_step {l : AudioLabel} (hcapacity : 0 < capacity) (h : Conserved capacity a)
    (hstep : step capacity a l = some a') : Conserved capacity a' := by
  cases l with
  | callback pcm capturedAt inputOverflow =>
    cases hstep
    exact h.callback pcm capturedAt inputOverflow
  | callbackFails =>
    cases hstep
    exact h.waiting _ _ _ _ _ _
  | enqueueFromLoop =>
    simp only [step] at hstep
    split at hstep
    · cases hstep
    · next d rest hdeferred =>
      cases hstep
      exact h.enqueueFromLoop hcapacity hdeferred
  | setAccepting enabled =>
    cases hstep
    exact h.waiting _ _ _ _ _ _
  | discardPending =>
    cases hstep
    exact h.discardPending
  | read reader =>
    simp only [step] at hstep
    split at hstep
    · cases hstep
    · cases hstep
      exact h.get reader
  | resume reader =>
    simp only [step, resume] at hstep
    split at hstep
    · cases hstep
      exact Conserved.get (h.waiting _ _ _ _ _ _) reader
    · split at hstep
      · cases hstep
        split
        · exact h.waiting _ _ _ _ _ _
        · exact Conserved.wakeupNext (h.waiting _ _ _ _ _ _)
      · cases hstep
  | expire reader =>
    simp only [step, expire] at hstep
    split at hstep
    · cases hstep
      exact h.waiting _ _ _ _ _ _
    · split at hstep
      · cases hstep
        exact h.waiting _ _ _ _ _ _
      · cases hstep

/-! ## What a step adds -/

theorem wakeupNext_fields (a : LocalAudioInput) :
    a.wakeupNext.enqueued = a.enqueued ∧ a.wakeupNext.evicted = a.evicted := by
  unfold wakeupNext
  split <;> exact ⟨rfl, rfl⟩

theorem get_fields (a : LocalAudioInput) (reader : ℕ) :
    (a.get reader).enqueued = a.enqueued ∧ (a.get reader).evicted = a.evicted := by
  unfold get
  split <;> exact ⟨rfl, rfl⟩

/-- What is enqueued comes from a callback after the last discard, and what is evicted is the
oldest frame of the queue. -/
def Adds (a a' : LocalAudioInput) : Prop :=
  (∀ f ∈ a'.enqueued, f ∈ a.enqueued ∨ a.discardedAt ≤ f.number) ∧
    ∀ f ∈ a'.evicted, f ∈ a.evicted ∨
      ∃ rest, a.queue = f :: rest ∧ ∀ g ∈ rest, f.number < g.number

theorem adds_of_eq (h : a'.enqueued = a.enqueued ∧ a'.evicted = a.evicted) : Adds a a' := by
  obtain ⟨henqueued, hevicted⟩ := h
  exact ⟨fun f hf => .inl (henqueued ▸ hf), fun f hf => .inl (hevicted ▸ hf)⟩

theorem adds_enqueueFromLoop (h : Conserved capacity a) {d : Deferred} {rest : List Deferred}
    (hdeferred : a.deferred = d :: rest) :
    Adds a ({ a with deferred := rest }.enqueueFromLoop capacity d) := by
  have hhead : d ∈ a.deferred := by rw [hdeferred]; exact List.mem_cons_self
  unfold LocalAudioInput.enqueueFromLoop
  split
  · exact adds_of_eq ⟨rfl, rfl⟩
  · next hcurrent =>
    split
    · exact adds_of_eq ⟨rfl, rfl⟩
    · obtain ⟨henqueued, -, -, hevicted⟩ := makeRoom_fields capacity
        ({ a with deferred := rest }.countOverflow d.inputOverflow)
      obtain ⟨henqueued', -, -, hevicted', hqueue'⟩ :=
        countOverflow_fields d.inputOverflow { a with deferred := rest }
      rw [hevicted', hqueue'] at hevicted
      rw [henqueued'] at henqueued
      constructor
      · intro f hf
        rw [put, (wakeupNext_fields _).1] at hf
        rcases List.mem_append.mp hf with hold | hnew
        · exact .inl (henqueued ▸ hold)
        · rw [List.mem_singleton.mp hnew]
          exact .inr (h.fresh d hhead (not_not.mp (not_or.mp hcurrent).1))
      · intro f hf
        rw [put, (wakeupNext_fields _).2] at hf
        rcases hevicted f hf with hold | ⟨others, hqueue⟩
        · exact .inl hold
        · exact .inr ⟨others, hqueue, (h.head hqueue).2.1⟩

theorem adds_step {l : AudioLabel} (h : Conserved capacity a)
    (hstep : step capacity a l = some a') : Adds a a' := by
  cases l with
  | callback pcm capturedAt inputOverflow => cases hstep; exact adds_of_eq ⟨rfl, rfl⟩
  | callbackFails => cases hstep; exact adds_of_eq ⟨rfl, rfl⟩
  | enqueueFromLoop =>
    simp only [step] at hstep
    split at hstep
    · cases hstep
    · next d rest hdeferred =>
      cases hstep
      exact adds_enqueueFromLoop h hdeferred
  | setAccepting enabled => cases hstep; exact adds_of_eq ⟨rfl, rfl⟩
  | discardPending => cases hstep; exact adds_of_eq ⟨rfl, rfl⟩
  | read reader =>
    simp only [step] at hstep
    split at hstep
    · cases hstep
    · cases hstep
      exact adds_of_eq (get_fields a reader)
  | resume reader =>
    simp only [step, resume] at hstep
    split at hstep
    · cases hstep
      exact adds_of_eq (get_fields _ reader)
    · split at hstep
      · cases hstep
        split
        · exact adds_of_eq ⟨rfl, rfl⟩
        · exact adds_of_eq (wakeupNext_fields _)
      · cases hstep
  | expire reader =>
    simp only [step, expire] at hstep
    split at hstep
    · cases hstep
      exact adds_of_eq ⟨rfl, rfl⟩
    · split at hstep
      · cases hstep
        exact adds_of_eq ⟨rfl, rfl⟩
      · cases hstep

/-- **Every frame that was enqueued was read once, evicted and counted, discarded, or is still
in the queue; what is read comes in the order of the callbacks; nothing from before the last
discard is enqueued after it; and the queue never holds more than its capacity.** -/
theorem queue_conserved (hcapacity : 1 ≤ capacity) {ls : List AudioLabel}
    (hrun : Transition.exec (step capacity) {} ls = some a) :
    InOrder a.returned ∧ InOrder a.enqueued ∧
      a.enqueued.Perm (a.returned ++ a.evicted ++ a.discarded ++ a.queue) ∧
      a.evicted.length = a.droppedFrames ∧ a.queue.length ≤ capacity ∧
      ∀ l a', step capacity a l = some a' → Adds a a' := by
  have h : Conserved capacity a :=
    Transition.invariant (fun _ _ _ h hstep => conserved_step hcapacity h hstep)
      (conserved_created capacity) hrun
  exact ⟨h.returned, h.enqueued, h.fates, h.dropped, h.size, fun _ _ hstep => adds_step h hstep⟩

/-- A frame of silence. -/
def silentPcm : List UInt8 := List.replicate inputFrameBytes 0

/-- Two frames at a queue for one: the first makes room for the second, which is read. -/
theorem queue_conserved_evicted : ∃ a : LocalAudioInput,
    a.returned = [⟨1, silentPcm, 2⟩] ∧ a.evicted = [⟨0, silentPcm, 1⟩] ∧
      a.evicted.length = a.droppedFrames := by
  have hrun : Transition.exec (step 1) {}
      [.setAccepting true, .callback silentPcm 1 false, .callback silentPcm 2 false,
        .enqueueFromLoop, .enqueueFromLoop, .read 0] =
      some
        { accepting := true, callbacks := 2, droppedFrames := 1,
          enqueued := [⟨0, silentPcm, 1⟩, ⟨1, silentPcm, 2⟩],
          returned := [⟨1, silentPcm, 2⟩], evicted := [⟨0, silentPcm, 1⟩] } := by
    simp [Transition.exec, step, callback, enqueueFromLoop, countOverflow, makeRoom, full, evict,
      put, wakeupNext, get, silentPcm]
  exact ⟨_, rfl, rfl, (queue_conserved (Nat.le_refl 1) hrun).2.2.2.1⟩

end LocalAudioInput

end SmartDesk.Voice

import Mathlib.Logic.Relation
import SmartDesk.Lib.Transition

/-!
# Programs that others disturb

One program at a time, statement by statement.  Its surroundings change the variables too: some at
any time, as another thread does, some only while the program waits for a call, as the other tasks
of its event loop do.  Loops are cut at their heads: a program ends with a jump to a head, and each
head has a program of its own.

* `Prog` — a program, as the tree of its statements and calls, with `bind` and `attempt`.
* `System`, `Config`, `step` — the programs of a system and what can happen next.
* `Law`, `Safe` — what is to hold at each statement, call and jump; the `safe_` lemmas are the
  rules.
* `Uninterrupted` — systems in which only a waiting program is disturbed.
* `Verified`, `lawful` — **if the program of each head is safe, every step of every run keeps the
  law.**
-/

namespace Script

/-- The types of a system: its variables, what it reads from its surroundings, its calls with their
values and what decides on their outcome, its exceptions, its loop heads, and the events in its
surroundings. -/
structure Signature where
  Vars : Type
  Reading : Type
  Call : Type
  Value : Type
  Answer : Type
  Err : Type
  Head : Type
  Event : Type

/-- A program with result `α`.  Nothing that follows a `goto` is run. -/
inductive Prog (S : Signature) (α : Type) where
  | ret (a : α)
  | raise (e : S.Err)
  | get (k : S.Vars → Prog S α)
  | act (f : S.Vars → S.Vars) (k : Prog S α)
  | read (k : S.Reading → Prog S α)
  | call (c : S.Call) (k : Except S.Err S.Value → Prog S α)
  | goto (h : S.Head)

namespace Prog

variable {S : Signature} {α β : Type}

/-- One program after the other. -/
def bind : Prog S α → (α → Prog S β) → Prog S β
  | ret a, f => f a
  | raise e, _ => raise e
  | get k, f => get fun s => (k s).bind f
  | act g k, f => act g (k.bind f)
  | read k, f => read fun r => (k r).bind f
  | call c k, f => call c fun r => (k r).bind f
  | goto h, _ => goto h

/-- `try p except handler`; the handler decides which exceptions it raises again. -/
def attempt : Prog S α → (S.Err → Prog S α) → Prog S α
  | ret a, _ => ret a
  | raise e, handler => handler e
  | get k, handler => get fun s => (k s).attempt handler
  | act g k, handler => act g (k.attempt handler)
  | read k, handler => read fun r => (k r).attempt handler
  | call c k, handler => call c fun r => (k r).attempt handler
  | goto h, _ => goto h

instance : Monad (Prog S) where
  pure := ret
  bind := bind

/-- A statement. -/
def modify (f : S.Vars → S.Vars) : Prog S Unit := act f (ret ())

/-- What an expression of the variables is. -/
def gets (f : S.Vars → α) : Prog S α := get fun s => ret (f s)

def reading : Prog S S.Reading := read ret

/-- Wait for a call, and raise what it raises. -/
def await (c : S.Call) : Prog S S.Value :=
  call c fun
    | .ok v => ret v
    | .error e => raise e

end Prog

/-! ## Running -/

/-- In which part of an await the surroundings can step in. -/
inductive Mode where
  | running
  | waiting
  | ended
  deriving DecidableEq

/-- The programs of the heads, and what the surroundings do. -/
structure System (S : Signature) where
  body : S.Head → Prog S Unit
  /-- What a call does before it waits. -/
  begin : S.Call → S.Vars → S.Vars
  /-- The outcome of a call and what it has done; none if it cannot end like that. -/
  answer : S.Call → S.Answer → S.Vars → Option (Except S.Err S.Value × S.Vars)
  /-- An event, if it can happen. -/
  disturb : Mode → S.Event → S.Vars → Option S.Vars
  /-- The heads that are called from outside when no program runs. -/
  callable : S.Head → S.Vars → Bool

/-- A program and its variables. -/
structure Config (S : Signature) where
  vars : S.Vars
  prog : Prog S Unit
  waits : Bool

/-- What can happen: a call from outside, the next statement, the end of a call, an event. -/
inductive Label (S : Signature) where
  | enter (h : S.Head)
  | run (r : S.Reading)
  | answer (a : S.Answer)
  | disturb (e : S.Event)

variable {S : Signature}

def Config.mode (c : Config S) : Mode :=
  if c.waits then .waiting
  else
    match c.prog with
    | .ret _ => .ended
    | .raise _ => .ended
    | _ => .running

variable (sys : System S)

/-- The next statement. -/
def Config.run (c : Config S) (r : S.Reading) : Option (Config S) :=
  match c.prog with
  | .ret _ => none
  | .raise _ => none
  | .get k => some { c with prog := k c.vars }
  | .act f k => some { c with vars := f c.vars, prog := k }
  | .read k => some { c with prog := k r }
  | .call d _ => some { c with vars := sys.begin d c.vars, waits := true }
  | .goto h => some { c with prog := sys.body h }

/-- The end of a call. -/
def Config.answer (c : Config S) (a : S.Answer) : Option (Config S) :=
  match c.prog with
  | .call d k => (sys.answer d a c.vars).map fun r => ⟨r.2, k r.1, false⟩
  | _ => none

def step (c : Config S) : Label S → Option (Config S)
  | .enter h =>
      if c.mode = .ended ∧ sys.callable h c.vars = true then some { c with prog := .goto h }
      else none
  | .run r => if c.waits then none else c.run sys r
  | .answer a => if c.waits then c.answer sys a else none
  | .disturb e => (sys.disturb c.mode e c.vars).map fun s => { c with vars := s }

/-- Before the first call from outside. -/
def Config.idle (s : S.Vars) : Config S := ⟨s, .ret (), false⟩

/-! ## Laws -/

/-- What is to hold: of each statement, where a call begins and ends, where the program jumps, and
from its end on. -/
structure Law (S : Signature) where
  act : S.Vars → S.Vars → Prop
  begin : S.Call → S.Vars → Prop
  answer : S.Call → S.Vars → S.Vars → Prop
  pre : S.Head → S.Vars → Prop
  finish : S.Vars → Except S.Err Unit → Prop

/-- The answers and the events of a kind of runs. -/
structure Admits (S : Signature) where
  answer : S.Call → S.Answer → Prop
  event : S.Event → Prop

/-- All answers and events. -/
def Admits.all : Admits S := ⟨fun _ _ => True, fun _ => True⟩

variable (A : Admits S)

/-- The surroundings change the variables, any number of times. -/
def Disturbed (mode : Mode) : S.Vars → S.Vars → Prop :=
  Relation.ReflTransGen fun s s' => ∃ e, A.event e ∧ sys.disturb mode e s = some s'

variable (L : Law S)

/-- **The program keeps the law** from `s` on and ends in `Q`. -/
def Safe {α : Type} : Prog S α → S.Vars → (S.Vars → Except S.Err α → Prop) → Prop
  | .ret a, s, Q => Q s (.ok a)
  | .raise e, s, Q => Q s (.error e)
  | .get k, s, Q => ∀ s', Disturbed sys A .running s s' → Safe (k s') s' Q
  | .act f k, s, Q => ∀ s', Disturbed sys A .running s s' → L.act s' (f s') ∧ Safe k (f s') Q
  | .read k, s, Q => ∀ s', Disturbed sys A .running s s' → ∀ r, Safe (k r) s' Q
  | .call c k, s, Q => ∀ s', Disturbed sys A .running s s' → L.begin c s' ∧
      ∀ s'', Disturbed sys A .waiting (sys.begin c s') s'' → ∀ a r t, A.answer c a →
        sys.answer c a s'' = some (r, t) → L.answer c s'' t ∧ Safe (k r) t Q
  | .goto h, s, _ => ∀ s', Disturbed sys A .running s s' → L.pre h s'

/-! ## Rules -/

section Rules

variable {sys A L} {α β : Type} {s : S.Vars}

theorem Safe.mono {c : Prog S α} {Q Q' : S.Vars → Except S.Err α → Prop} (h : Safe sys A L c s Q)
    (hQ : ∀ s r, Q s r → Q' s r) : Safe sys A L c s Q' := by
  induction c generalizing s with
  | ret a => exact hQ _ _ h
  | raise e => exact hQ _ _ h
  | get k ih => exact fun s' hs => ih s' (h s' hs)
  | act f k ih => exact fun s' hs => ⟨(h s' hs).1, ih (h s' hs).2⟩
  | read k ih => exact fun s' hs r => ih r (h s' hs r)
  | call c k ih =>
    intro s' hs
    refine ⟨(h s' hs).1, ?_⟩
    intro s'' hs'' a r t ha hr
    have hanswer := (h s' hs).2 s'' hs'' a r t ha hr
    exact ⟨hanswer.1, ih r hanswer.2⟩
  | goto j => exact h

/-- What the first program gives is what the second one starts with. -/
theorem safe_bind {c : Prog S α} {f : α → Prog S β} {Q : S.Vars → Except S.Err β → Prop} :
    Safe sys A L (c.bind f) s Q ↔
      Safe sys A L c s fun s' r =>
        match r with
        | .ok a => Safe sys A L (f a) s' Q
        | .error e => Q s' (.error e) := by
  induction c generalizing s with
  | ret a => exact Iff.rfl
  | raise e => exact Iff.rfl
  | get k ih => exact forall₂_congr fun s' _ => ih s'
  | act g k ih => exact forall₂_congr fun s' _ => and_congr Iff.rfl ih
  | read k ih => exact forall₃_congr fun s' _ r => ih r
  | call c k ih =>
    refine forall₂_congr fun s' _ => and_congr Iff.rfl ?_
    refine forall₂_congr fun s'' _ => forall₃_congr fun a r t => ?_
    exact forall₂_congr fun _ _ => and_congr Iff.rfl (ih r)
  | goto j => exact Iff.rfl

/-- A statement, and what follows it. -/
theorem safe_modify_bind {f : S.Vars → S.Vars} {next : Unit → Prog S β}
    {Q : S.Vars → Except S.Err β → Prop} :
    Safe sys A L (Prog.modify f >>= next) s Q ↔
      ∀ s', Disturbed sys A .running s s' → L.act s' (f s') ∧ Safe sys A L (next ()) (f s') Q :=
  Iff.rfl

/-- What an expression is, and what follows. -/
theorem safe_gets_bind {f : S.Vars → α} {next : α → Prog S β}
    {Q : S.Vars → Except S.Err β → Prop} :
    Safe sys A L (Prog.gets f >>= next) s Q ↔
      ∀ s', Disturbed sys A .running s s' → Safe sys A L (next (f s')) s' Q :=
  Iff.rfl

/-- The handler starts where the program raised. -/
theorem safe_attempt {c : Prog S α} {handler : S.Err → Prog S α}
    {Q : S.Vars → Except S.Err α → Prop} :
    Safe sys A L (c.attempt handler) s Q ↔
      Safe sys A L c s fun s' r =>
        match r with
        | .ok a => Q s' (.ok a)
        | .error e => Safe sys A L (handler e) s' Q := by
  induction c generalizing s with
  | ret a => exact Iff.rfl
  | raise e => exact Iff.rfl
  | get k ih => exact forall₂_congr fun s' _ => ih s'
  | act g k ih => exact forall₂_congr fun s' _ => and_congr Iff.rfl ih
  | read k ih => exact forall₃_congr fun s' _ r => ih r
  | call c k ih =>
    refine forall₂_congr fun s' _ => and_congr Iff.rfl ?_
    refine forall₂_congr fun s'' _ => forall₃_congr fun a r t => ?_
    exact forall₂_congr fun _ _ => and_congr Iff.rfl (ih r)
  | goto j => exact Iff.rfl

theorem safe_await {c : S.Call} {Q : S.Vars → Except S.Err S.Value → Prop}
    (h : ∀ s', Disturbed sys A .running s s' → L.begin c s' ∧
      ∀ s'', Disturbed sys A .waiting (sys.begin c s') s'' → ∀ a r t, A.answer c a →
        sys.answer c a s'' = some (r, t) → L.answer c s'' t ∧ Q t r) :
    Safe sys A L (Prog.await c) s Q := by
  intro s' hs
  refine ⟨(h s' hs).1, ?_⟩
  intro s'' hs'' a r t ha hr
  have hanswer := (h s' hs).2 s'' hs'' a r t ha hr
  cases r with
  | ok v => exact hanswer
  | error e => exact hanswer

/-- What an event keeps, any number of them keeps. -/
theorem Disturbed.keeps {mode : Mode} {P : S.Vars → Prop} {s' : S.Vars}
    (h : Disturbed sys A mode s s')
    (hP : ∀ e s s', A.event e → sys.disturb mode e s = some s' → P s → P s') (hs : P s) :
    P s' := by
  induction h with
  | refl => exact hs
  | tail _ hlast ih =>
    obtain ⟨e, he, hstep⟩ := hlast
    exact hP e _ _ he hstep ih

end Rules

/-! ## On an event loop -/

/-- Nothing else happens between two statements. -/
def Uninterrupted : Prop := ∀ e s, sys.disturb .running e s = none

section EventLoop

variable {sys A L} {α β : Type} {s : S.Vars}

theorem eq_of_running (hloop : Uninterrupted sys) {s' : S.Vars}
    (h : Disturbed sys A .running s s') : s' = s := by
  refine h.keeps (P := fun u => u = s) (fun e u v _ hstep _ => ?_) rfl
  cases (hloop e u).symm.trans hstep

theorem safe_modify (hloop : Uninterrupted sys) {f : S.Vars → S.Vars} {next : Unit → Prog S β}
    {Q : S.Vars → Except S.Err β → Prop} (hf : L.act s (f s))
    (h : Safe sys A L (next ()) (f s) Q) : Safe sys A L (Prog.modify f >>= next) s Q := by
  refine safe_modify_bind.mpr fun u hu => ?_
  rw [eq_of_running hloop hu]
  exact ⟨hf, h⟩

theorem safe_gets (hloop : Uninterrupted sys) {f : S.Vars → α} {next : α → Prog S β}
    {Q : S.Vars → Except S.Err β → Prop} (h : Safe sys A L (next (f s)) s Q) :
    Safe sys A L (Prog.gets f >>= next) s Q := by
  refine safe_gets_bind.mpr fun u hu => ?_
  rw [eq_of_running hloop hu]
  exact h

theorem safe_goto (hloop : Uninterrupted sys) {h : S.Head}
    {Q : S.Vars → Except S.Err α → Prop} (hpre : L.pre h s) :
    Safe sys A L (Prog.goto h : Prog S α) s Q := by
  intro u hu
  rw [eq_of_running hloop hu]
  exact hpre

/-- A call, and what follows however it ends. -/
theorem safe_call (hloop : Uninterrupted sys) {c : S.Call}
    {Q : S.Vars → Except S.Err S.Value → Prop} (hbegin : L.begin c s)
    (h : ∀ u, Disturbed sys A .waiting (sys.begin c s) u → ∀ a r t, A.answer c a →
      sys.answer c a u = some (r, t) → L.answer c u t ∧ Q t r) :
    Safe sys A L (Prog.await c) s Q := by
  refine safe_await fun u hu => ?_
  rw [eq_of_running hloop hu]
  exact ⟨hbegin, h⟩

end EventLoop

/-! ## Programs that keep an invariant -/

/-- Every statement, call and jump of the program passes its check, in whatever branch. -/
def Prog.Within {α : Type} (okAct : (S.Vars → S.Vars) → Prop) (okCall : S.Call → Prop)
    (okJump : S.Head → Prop) : Prog S α → Prop
  | .ret _ => True
  | .raise _ => True
  | .get k => ∀ s, (k s).Within okAct okCall okJump
  | .act f k => okAct f ∧ k.Within okAct okCall okJump
  | .read k => ∀ r, (k r).Within okAct okCall okJump
  | .call c k => okCall c ∧ ∀ r, (k r).Within okAct okCall okJump
  | .goto h => okJump h

section Within

variable {sys A L} {α β : Type} {okAct : (S.Vars → S.Vars) → Prop} {okCall : S.Call → Prop}
  {okJump : S.Head → Prop}

namespace Prog

theorem within_bind {c : Prog S α} {f : α → Prog S β} (h : c.Within okAct okCall okJump)
    (h' : ∀ a, (f a).Within okAct okCall okJump) : (c.bind f).Within okAct okCall okJump := by
  induction c with
  | ret a => exact h' a
  | raise e => exact trivial
  | get k ih => exact fun s => ih s (h s)
  | act g k ih => exact ⟨h.1, ih h.2⟩
  | read k ih => exact fun r => ih r (h r)
  | call c k ih => exact ⟨h.1, fun r => ih r (h.2 r)⟩
  | goto j => exact h

theorem within_attempt {c : Prog S α} {handler : S.Err → Prog S α}
    (h : c.Within okAct okCall okJump) (h' : ∀ e, (handler e).Within okAct okCall okJump) :
    (c.attempt handler).Within okAct okCall okJump := by
  induction c with
  | ret a => exact trivial
  | raise e => exact h' e
  | get k ih => exact fun s => ih s (h s)
  | act g k ih => exact ⟨h.1, ih h.2⟩
  | read k ih => exact fun r => ih r (h r)
  | call c k ih => exact ⟨h.1, fun r => ih r (h.2 r)⟩
  | goto j => exact h

theorem within_modify {f : S.Vars → S.Vars} (h : okAct f) :
    (modify f : Prog S Unit).Within okAct okCall okJump := ⟨h, trivial⟩

theorem within_gets (f : S.Vars → α) : (gets f : Prog S α).Within okAct okCall okJump :=
  fun _ => trivial

theorem within_await {c : S.Call} (h : okCall c) : (await c).Within okAct okCall okJump := by
  refine ⟨h, fun r => ?_⟩
  cases r <;> exact trivial

end Prog

/-- **A program whose statements and calls keep an invariant** is safe, and the invariant holds
where it ends. -/
theorem safe_of_within {I : S.Vars → Prop}
    (hdisturb : ∀ mode e s s', A.event e → sys.disturb mode e s = some s' → I s → I s')
    (hact : ∀ f s, okAct f → I s → L.act s (f s) ∧ I (f s))
    (hbegin : ∀ c s, okCall c → I s → L.begin c s ∧ I (sys.begin c s))
    (hanswer : ∀ c a s r t, A.answer c a → sys.answer c a s = some (r, t) → okCall c → I s →
      L.answer c s t ∧ I t)
    (hjump : ∀ h s, okJump h → I s → L.pre h s) {c : Prog S α}
    (hc : c.Within okAct okCall okJump) {s : S.Vars} (hs : I s) :
    Safe sys A L c s fun s _ => I s := by
  have hkeeps {mode : Mode} {s s' : S.Vars} (h : Disturbed sys A mode s s') (hs : I s) : I s' :=
    h.keeps (hdisturb mode) hs
  induction c generalizing s with
  | ret a => exact hs
  | raise e => exact hs
  | get k ih => exact fun s' h => ih s' (hc s') (hkeeps h hs)
  | act f k ih =>
    intro s' h
    have hf := hact f s' hc.1 (hkeeps h hs)
    exact ⟨hf.1, ih hc.2 hf.2⟩
  | read k ih => exact fun s' h r => ih r (hc r) (hkeeps h hs)
  | call c k ih =>
    intro s' h
    have hc' := hbegin c s' hc.1 (hkeeps h hs)
    refine ⟨hc'.1, ?_⟩
    intro s'' h' a r t ha hr
    have hr' := hanswer c a s'' r t ha hr hc.1 (hkeeps h' hc'.2)
    exact ⟨hr'.1, ih r (hc.2 r) hr'.2⟩
  | goto j => exact fun s' h => hjump j s' hc (hkeeps h hs)

end Within

/-! ## Runs -/

/-- **The program of each head is safe.** -/
structure Verified : Prop where
  body : ∀ h s, L.pre h s → Safe sys A L (sys.body h) s L.finish
  finish : ∀ e s s' r, A.event e → sys.disturb .ended e s = some s' → L.finish s r →
    L.finish s' r
  enter : ∀ h s s' r, sys.callable h s = true → L.finish s r → Disturbed sys A .running s s' →
    L.pre h s'

/-- The labels of a kind of runs. -/
def Admits.label (A : Admits S) (c : Config S) : Label S → Prop
  | .enter _ => True
  | .run _ => True
  | .answer a => ∀ d k, c.prog = .call d k → A.answer d a
  | .disturb e => A.event e

instance decidableLabel [∀ d a, Decidable (A.answer d a)] [DecidablePred A.event] (c : Config S) :
    (l : Label S) → Decidable (A.label c l)
  | .enter _ => isTrue trivial
  | .run _ => isTrue trivial
  | .answer a =>
      match h : c.prog with
      | .call d k => decidable_of_iff (A.answer d a) ⟨fun ha d' k' h' => by
          rw [h] at h'
          cases h'
          exact ha, fun ha => ha d k h⟩
      | .ret _ | .raise _ | .get _ | .act _ _ | .read _ | .goto _ => isTrue fun d k h' => by
          rw [h] at h'
          cases h'
  | .disturb e => inferInstanceAs (Decidable (A.event e))

/-- What a run keeps: the rest of the program is safe. -/
def Kept (c : Config S) : Prop :=
  match c.waits, c.prog with
  | true, .call d k => ∀ s, Disturbed sys A .waiting c.vars s → ∀ a r t, A.answer d a →
      sys.answer d a s = some (r, t) → L.answer d s t ∧ Safe sys A L (k r) t L.finish
  | true, _ => False
  | false, .ret a => L.finish c.vars (.ok a)
  | false, .raise e => L.finish c.vars (.error e)
  | false, p => Safe sys A L p c.vars L.finish

/-- How a step changes the variables. -/
inductive Moved (c c' : Config S) : Prop where
  | still (h : c'.vars = c.vars)
  | act (h : L.act c.vars c'.vars)
  | begin (d : S.Call) (k : Except S.Err S.Value → Prog S Unit) (hprog : c'.prog = .call d k)
      (hwaits : c'.waits = true) (hvars : c'.vars = sys.begin d c.vars) (h : L.begin d c.vars)
  | answer (d : S.Call) (a : S.Answer) (r : Except S.Err S.Value) (ha : A.answer d a)
      (h : sys.answer d a c.vars = some (r, c'.vars)) (hlaw : L.answer d c.vars c'.vars)
  | disturb (mode : Mode) (e : S.Event) (he : A.event e)
      (h : sys.disturb mode e c.vars = some c'.vars)

section Runs

variable {sys A L} {c c' : Config S} {l : Label S}

theorem kept_of_safe {p : Prog S Unit} {s : S.Vars} (hp : Safe sys A L p s L.finish) :
    Kept sys A L ⟨s, p, false⟩ := by
  cases p <;> exact hp

/-- An event leaves the rest of the program safe. -/
theorem kept_of_disturb (h : Verified sys A L) (hk : Kept sys A L c) {e : S.Event} {s : S.Vars}
    (he : A.event e) (hs : sys.disturb c.mode e c.vars = some s) :
    Kept sys A L { c with vars := s } := by
  obtain ⟨vars, prog, waits⟩ := c
  cases waits with
  | true =>
    cases prog with
    | call d k =>
      intro s' hs' a r t ha hr
      exact hk s' (.head ⟨e, he, hs⟩ hs') a r t ha hr
    | _ => exact hk.elim
  | false =>
    cases prog with
    | ret a => exact h.finish e vars s _ he hs hk
    | raise e' => exact h.finish e vars s _ he hs hk
    | get k => exact fun s' hs' => hk s' (.head ⟨e, he, hs⟩ hs')
    | act f k => exact fun s' hs' => hk s' (.head ⟨e, he, hs⟩ hs')
    | read k => exact fun s' hs' => hk s' (.head ⟨e, he, hs⟩ hs')
    | call d k => exact fun s' hs' => hk s' (.head ⟨e, he, hs⟩ hs')
    | goto j => exact fun s' hs' => hk s' (.head ⟨e, he, hs⟩ hs')

/-- **A step leaves the rest of the program safe, and keeps the law.** -/
theorem kept_of_step (h : Verified sys A L) (hk : Kept sys A L c) (hl : A.label c l)
    (hstep : step sys c l = some c') : Kept sys A L c' ∧ Moved sys A L c c' := by
  cases l with
  | enter j =>
    unfold step at hstep
    dsimp only at hstep
    split at hstep
    · next hcall =>
      cases hstep
      refine ⟨?_, .still rfl⟩
      obtain ⟨vars, prog, waits⟩ := c
      cases waits with
      | true => cases hcall.1
      | false =>
        cases prog with
        | ret a => exact fun s hs => h.enter j vars s _ hcall.2 hk hs
        | raise e => exact fun s hs => h.enter j vars s _ hcall.2 hk hs
        | _ => cases hcall.1
    · cases hstep
  | run reading =>
    obtain ⟨vars, prog, waits⟩ := c
    cases waits with
    | true => cases hstep
    | false =>
      cases prog with
      | ret a => cases hstep
      | raise e => cases hstep
      | get k =>
        cases hstep
        exact ⟨kept_of_safe (hk vars .refl), .still rfl⟩
      | act f k =>
        cases hstep
        exact ⟨kept_of_safe (hk vars .refl).2, .act (hk vars .refl).1⟩
      | read k =>
        cases hstep
        exact ⟨kept_of_safe (hk vars .refl reading), .still rfl⟩
      | call d k =>
        cases hstep
        exact ⟨(hk vars .refl).2, .begin d k rfl rfl rfl (hk vars .refl).1⟩
      | goto j =>
        cases hstep
        exact ⟨kept_of_safe (h.body j vars (hk vars .refl)), .still rfl⟩
  | answer a =>
    obtain ⟨vars, prog, waits⟩ := c
    cases waits with
    | false => cases hstep
    | true =>
      cases prog with
      | call d k =>
        obtain ⟨⟨r, t⟩, hr, hc⟩ := Option.map_eq_some_iff.mp hstep
        cases hc
        have hanswer := hk vars .refl a r t (hl d k rfl) hr
        exact ⟨kept_of_safe hanswer.2, .answer d a r (hl d k rfl) hr hanswer.1⟩
      | _ => exact hk.elim
  | disturb e =>
    obtain ⟨s, hs, hc⟩ := Option.map_eq_some_iff.mp hstep
    cases hc
    exact ⟨kept_of_disturb h hk hl hs, .disturb c.mode e hl hs⟩

/-- Every run is of the kind that admits everything. -/
theorem meets_all (sys : System S) (c : Config S) (ls : List (Label S)) :
    Transition.Meets (step sys) Admits.all.label c ls := by
  refine Transition.meets_of_labels fun l _ c => ?_
  cases l with
  | answer a => exact fun _ _ _ => trivial
  | _ => exact trivial

/-- The rest of the program is safe at the end of every run. -/
theorem kept_of_exec (h : Verified sys A L) {s : S.Vars} (hs : L.finish s (.ok ()))
    {ls : List (Label S)} (hls : Transition.Meets (step sys) A.label (.idle s) ls)
    (hrun : Transition.exec (step sys) (.idle s) ls = some c) : Kept sys A L c := by
  have hidle : Kept sys A L (.idle s) := hs
  exact Transition.invariant_of_meets
    (fun _ _ _ hk hl hstep => (kept_of_step h hk hl hstep).1) hidle hls hrun

/-- **Every step of every run keeps the law.** -/
theorem lawful (h : Verified sys A L) {s : S.Vars} (hs : L.finish s (.ok ())) {ls : List (Label S)}
    (hls : Transition.Meets (step sys) A.label (.idle s) (ls ++ [l]))
    (hrun : Transition.exec (step sys) (.idle s) ls = some c)
    (hstep : step sys c l = some c') : Moved sys A L c c' :=
  (kept_of_step h (kept_of_exec h hs (Transition.meets_append hls).1 hrun)
    (hls.at_step hrun) hstep).2

/-- The law where a call begins. -/
theorem begin_of_step (h : Kept sys A L c) (hstep : step sys c l = some c')
    (hwaits : c.waits = false) (hwaits' : c'.waits = true) :
    ∃ d k, c'.prog = .call d k ∧ c'.vars = sys.begin d c.vars ∧ L.begin d c.vars := by
  obtain ⟨vars, prog, waits⟩ := c
  obtain rfl : waits = false := hwaits
  cases l with
  | enter j =>
    unfold step at hstep
    dsimp only at hstep
    split at hstep
    · cases hstep
      cases hwaits'
    · cases hstep
  | run reading =>
    cases prog with
    | ret a => cases hstep
    | raise e => cases hstep
    | call d k =>
      cases hstep
      exact ⟨d, k, rfl, rfl, (h vars .refl).1⟩
    | _ =>
      cases hstep
      cases hwaits'
  | answer a => cases hstep
  | disturb e =>
    obtain ⟨s, -, hc⟩ := Option.map_eq_some_iff.mp hstep
    cases hc
    cases hwaits'

/-- **An invariant of the variables**: statements and calls keep it by the law, events in the part
of the program in which they happen. -/
theorem vars_of_step {I : S.Vars → Prop} (hact : ∀ s t, L.act s t → I s → I t)
    (hbegin : ∀ d s, I s → I (sys.begin d s)) (hanswer : ∀ d s t, L.answer d s t → I s → I t)
    (hdisturb : ∀ e s, A.event e → sys.disturb c.mode e c.vars = some s → I c.vars → I s)
    (hk : Kept sys A L c) (hl : A.label c l) (hstep : step sys c l = some c') (hc : I c.vars) :
    I c'.vars := by
  cases l with
  | enter j =>
    unfold step at hstep
    dsimp only at hstep
    split at hstep
    · cases hstep
      exact hc
    · cases hstep
  | run reading =>
    obtain ⟨vars, prog, waits⟩ := c
    cases waits with
    | true => cases hstep
    | false =>
      cases prog with
      | ret a => cases hstep
      | raise e => cases hstep
      | act f k =>
        cases hstep
        exact hact vars _ (hk vars .refl).1 hc
      | call d k =>
        cases hstep
        exact hbegin d vars hc
      | _ =>
        cases hstep
        exact hc
  | answer a =>
    obtain ⟨vars, prog, waits⟩ := c
    cases waits with
    | false => cases hstep
    | true =>
      cases prog with
      | call d k =>
        obtain ⟨⟨r, t⟩, hr, hc'⟩ := Option.map_eq_some_iff.mp hstep
        cases hc'
        exact hanswer d vars t (hk vars .refl a r t (hl d k rfl) hr).1 hc
      | _ => exact hk.elim
  | disturb e =>
    obtain ⟨s, hs, hc'⟩ := Option.map_eq_some_iff.mp hstep
    cases hc'
    exact hdisturb e s hl hs hc

/-- A program that has ended leaves what its law says. -/
theorem finish_of_ended (h : Kept sys A L c) (hmode : c.mode = .ended) :
    (c.prog = .ret () ∧ L.finish c.vars (.ok ())) ∨
      ∃ e, c.prog = .raise e ∧ L.finish c.vars (.error e) := by
  obtain ⟨vars, prog, waits⟩ := c
  cases waits with
  | true => cases hmode
  | false =>
    cases prog with
    | ret a => exact .inl ⟨rfl, h⟩
    | raise e => exact .inr ⟨e, rfl, h⟩
    | _ => cases hmode

end Runs

end Script

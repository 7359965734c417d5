import SmartDesk.Lib.Contract
import SmartDesk.Desk.Runs

/-!
# Contracts of the controller's programs

The rules of contracts at the controller's actions, and runs that keep a contract besides
the guarantee of all tasks.

* `observes_fields`, `observes_require`, `observes_spawn`, … — the rules.
* `stepped_contract` — **each step of a run keeps a contract that all programs meet.**
-/

namespace SmartDesk.Desk

open Coroutine Code

variable {settings : DeskSettings} {G : Guarantee deskSignature} {α β : Type} {p : Spot}

/-- The program meets the contract at `p` and ends in `Q`. -/
abbrev Observes (settings : DeskSettings) (G : Guarantee deskSignature) {α : Type} (c : Code α)
    (p : Spot) (Q : Spot → Except (Raised Exc) α → Prop) : Prop :=
  Does (deskSystem settings) G c p Q

/-! ## Actions -/

/-- The postcondition of a program that another one follows. -/
def Follows (settings : DeskSettings) (G : Guarantee deskSignature) (f : α → Code β)
    (Q : Spot → Except (Raised Exc) β → Prop) (p : Spot) : Except (Raised Exc) α → Prop
  | .ok a => Observes settings G (f a) p Q
  | .error e => Q p (.error e)

theorem observes_bind {c : Code α} {f : α → Code β} {Q : Spot → Except (Raised Exc) β → Prop} :
    Observes settings G (c >>= f) p Q ↔ Observes settings G c p (Follows settings G f Q) := by
  constructor
  · intro h
    refine ((does_bind (S := deskSignature)).mp h).mono ?_
    rintro p' (e | a) hr <;> exact hr
  · intro h
    refine (does_bind (S := deskSignature)).mpr (Does.mono h ?_)
    rintro p' (e | a) hr <;> exact hr

@[simp] theorem follows_ok {f : α → Code β} {Q : Spot → Except (Raised Exc) β → Prop} {a : α} :
    Follows settings G f Q p (.ok a) ↔ Observes settings G (f a) p Q := Iff.rfl

@[simp] theorem follows_error {f : α → Code β} {Q : Spot → Except (Raised Exc) β → Prop}
    {e : Raised Exc} : Follows settings G f Q p (.error e) ↔ Q p (.error e) := Iff.rfl

theorem observes_pure {a : α} {Q : Spot → Except (Raised Exc) α → Prop} :
    Observes settings G (pure a) p Q ↔ Q p (.ok a) := Iff.rfl

theorem observes_ret {a : α} {Q : Spot → Except (Raised Exc) α → Prop} :
    Observes settings G (.ret a) p Q ↔ Q p (.ok a) := Iff.rfl

theorem observes_throw {e : Exc} {Q : Spot → Except (Raised Exc) α → Prop} :
    Observes settings G (throw e) p Q ↔ Q p (.error (.error e)) := Iff.rfl

theorem observes_fields {Q : Spot → Except (Raised Exc) DeskController → Prop} :
    Observes settings G fields p Q ↔ Q p (.ok p.mem.vars.desk) := Iff.rfl

theorem observes_height {Q : Spot → Except (Raised Exc) HeightSnapshot → Prop} :
    Observes settings G height p Q ↔ Q p.next (.ok (p.env 0).height) := Iff.rfl

theorem observes_relay {Q : Spot → Except (Raised Exc) RelaySnapshot → Prop} :
    Observes settings G relay p Q ↔ Q p.next (.ok (p.env 0).relay) := Iff.rfl

theorem observes_now {Q : Spot → Except (Raised Exc) Instant → Prop} :
    Observes settings G now p Q ↔ Q p.next (.ok (p.env 0).now) := Iff.rfl

theorem observes_monotonic {Q : Spot → Except (Raised Exc) Ieee → Prop} :
    Observes settings G monotonic p Q ↔ Q p.next (.ok (p.env 0).monotonic) := Iff.rfl

theorem observes_require {condition : Bool} {e : Exc}
    {Q : Spot → Except (Raised Exc) Unit → Prop} :
    Observes settings G (require condition e) p Q ↔
      (condition = true → Q p (.ok ())) ∧ (condition = false → Q p (.error (.error e))) := by
  cases condition <;> simp [require, observes_throw, observes_ret]

theorem observes_assertSome {a : Option α} {Q : Spot → Except (Raised Exc) α → Prop} :
    Observes settings G (assertSome a) p Q ↔
      (∀ x, a = some x → Q p (.ok x)) ∧ (a = none → Q p (.error (.error .assertionError))) := by
  cases a <;> simp [assertSome, observes_throw, observes_ret]

theorem observes_modify {f : DeskController → DeskController}
    {Q : Spot → Except (Raised Exc) Unit → Prop} :
    Observes settings G (modify f) p Q ↔
      G.write p { p.mem.vars with desk := f p.mem.vars.desk } ∧
        Q (p.setVars { p.mem.vars with desk := f p.mem.vars.desk }) (.ok ()) := Iff.rfl

theorem observes_modifyNote {f : DeskController → DeskController}
    {event : DeskController → Event} {Q : Spot → Except (Raised Exc) Unit → Prop} :
    Observes settings G (modifyNote f event) p Q ↔
      G.write p
          { p.mem.vars with
            desk := f p.mem.vars.desk, trace := event p.mem.vars.desk :: p.mem.vars.trace } ∧
        Q (p.setVars
          { p.mem.vars with
            desk := f p.mem.vars.desk, trace := event p.mem.vars.desk :: p.mem.vars.trace })
          (.ok ()) := Iff.rfl

theorem observes_spawn {j : Job} {Q : Spot → Except (Raised Exc) ℕ → Prop} :
    Observes settings G (Prog.spawn j Prog.ret) p Q ↔
      G.spawn p j ∧ Q (p.setMem (p.mem.spawn j)) (.ok p.mem.count) := Iff.rfl

/-- The postcondition of a program whose exceptions `handler` takes. -/
def Catches (settings : DeskSettings) (G : Guarantee deskSignature) (handler : Exc → Code α)
    (Q : Spot → Except (Raised Exc) α → Prop) (p : Spot) : Except (Raised Exc) α → Prop
  | .ok a => Q p (.ok a)
  | .error .cancelled => Q p (.error .cancelled)
  | .error (.error e) => Observes settings G (handler e) p Q

theorem observes_exceptError {c : Code α} {handler : Exc → Code α}
    {Q : Spot → Except (Raised Exc) α → Prop} :
    Observes settings G (exceptError c handler) p Q ↔
      Observes settings G c p (Catches settings G handler Q) := by
  constructor
  · intro h
    refine ((does_attempt (S := deskSignature)).mp h).mono ?_
    rintro p' (⟨_ | e⟩ | a) hr <;> exact hr
  · intro h
    refine (does_attempt (S := deskSignature)).mpr (Does.mono h ?_)
    rintro p' (⟨_ | e⟩ | a) hr <;> exact hr

/-! ## Guards only read -/

section Reads

theorem reads_bind {c : Code α} {f : α → Code β} (h : c.Reads) (h' : ∀ a, (f a).Reads) :
    (c >>= f).Reads := Prog.reads_bind h h'

theorem reads_exceptRejected {c : Code α} {handler : String → Code α} (h : c.Reads)
    (h' : ∀ text, (handler text).Reads) : (exceptRejected c handler).Reads := by
  refine Prog.reads_attempt h fun e => ?_
  cases e with
  | cancelled => exact trivial
  | error e =>
    cases e with
    | rejected text => exact h' text
    | _ => exact trivial

theorem reads_require (condition : Bool) (e : Exc) : (require condition e).Reads := by
  cases condition <;> exact trivial

theorem reads_assertSome (a : Option α) : (assertSome a).Reads := by
  cases a <;> exact trivial

theorem reads_fields : fields.Reads := fun _ => trivial

theorem reads_height : height.Reads := fun _ => trivial

theorem reads_relay : relay.Reads := fun _ => trivial

theorem reads_now : now.Reads := fun _ => trivial

theorem reads_monotonic : monotonic.Reads := fun _ => trivial

theorem reads_requireRunningLocked : requireRunningLocked.Reads :=
  reads_bind reads_fields fun _ => reads_bind (reads_require _ _) fun _ => reads_require _ _

theorem reads_requireHeight : (requireHeight settings).Reads :=
  reads_bind reads_height fun _ => reads_bind (reads_require _ _) fun _ => trivial

theorem reads_requireWakeBasis (snapshot : HeightSnapshot) :
    (requireWakeBasis settings snapshot).Reads :=
  reads_bind (reads_require _ _) fun _ => trivial

theorem reads_requireRelayAvailableForWake : (requireRelayAvailableForWake settings).Reads := by
  refine reads_bind reads_relay fun snapshot => ?_
  refine reads_bind (reads_require _ _) fun _ => reads_bind (reads_require _ _) fun _ => ?_
  refine reads_bind (reads_require _ _) fun _ => reads_bind (reads_require _ _) fun _ => ?_
  cases snapshot.receivedAt with
  | none => exact trivial
  | some receivedAt =>
    exact reads_bind reads_now fun _ => reads_bind (reads_require _ _) fun _ => trivial

theorem reads_requireRelayReady : (requireRelayReady settings).Reads :=
  reads_bind reads_requireRelayAvailableForWake fun _ =>
    reads_bind (reads_require _ _) fun _ => trivial

theorem reads_requireDirectionAllowed (heightCm : Ieee) (direction : Direction) :
    (requireDirectionAllowed settings heightCm direction).Reads := by
  cases direction <;> exact reads_require _ _

theorem reads_admitMotion : (admitMotion settings).Reads :=
  reads_bind reads_requireRunningLocked fun _ => reads_bind reads_requireHeight fun _ =>
    reads_bind reads_requireRelayReady fun _ => reads_bind (reads_require _ _) fun _ => trivial

theorem reads_admitWake : (admitWake settings).Reads :=
  reads_bind reads_requireRunningLocked fun _ => reads_bind reads_requireRelayAvailableForWake
    fun _ => reads_bind (reads_require _ _) fun _ => trivial

end Reads

/-! ## Runs -/

/-- The programs of all jobs meet the contract. -/
def Contracted (settings : DeskSettings) (G : Guarantee deskSignature) : Prop :=
  ∀ p : Spot, Begins p →
    Observes settings G ((deskSystem settings).body p.job) p fun p r => G.finish p r

variable {started : Instant} {ls : List DeskLabel} {pool pool' : DeskPool} {l : DeskLabel}

/-- **Each step of a run** keeps the contract besides the guarantee of all tasks. -/
theorem stepped_contract (hG : Contracted settings G)
    (hexec : Transition.exec (step (deskSystem settings)) (deskStart settings started) ls =
      some pool) (hstep : step (deskSystem settings) pool l = some pool') :
    Stepped (deskSystem settings) ((deskGuarantee settings).and G) pool.mem l pool'.mem := by
  have hv := (verified settings).and hG
  have hkept : Kept (deskSystem settings) ((deskGuarantee settings).and G) DeskRely pool :=
    Transition.invariant (fun _ _ _ hk hs => (stepped_of_step hv hk hs).1) (kept_start _) hexec
  exact (stepped_of_step hv hkept hstep).2

/-- Along a run the intent is refined or gets a later generation. -/
theorem later_of_exec (hk : DeskKept settings pool)
    (h : Transition.exec (step (deskSystem settings)) pool ls = some pool') :
    Later pool.mem.vars.desk.control pool'.mem.vars.desk.control := by
  have hboth : DeskKept settings pool' ∧
      Later pool.mem.vars.desk.control pool'.mem.vars.desk.control := by
    refine Transition.invariant (I := fun m => DeskKept settings m ∧
      Later pool.mem.vars.desk.control m.mem.vars.desk.control) ?_ ⟨hk, .refl _⟩ h
    rintro m l m' ⟨hm, hlater⟩ hs
    exact ⟨(stepped_of_step (verified settings) hm hs).1, hlater.trans (later_of_step hm hs)⟩
  exact hboth.2

end SmartDesk.Desk

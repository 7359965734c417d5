/-!
# Computations with a state and exceptions

A computation changes a state, and returns or raises; what it has changed before it raises
stays changed.

* `Eff` — the computations, with `attempt` for a handler.
* `Ensures` — what holds after a computation; the `ensures_` lemmas are its rules.
* `Returns` — what holds only if it returns, with the rules for sequences and handlers.
-/

namespace Effect

/-- A computation with exceptions `ε` and states `σ`. -/
def Eff (ε σ α : Type) : Type := σ → Except ε α × σ

variable {ε σ α β : Type}

namespace Eff

def bind (c : Eff ε σ α) (f : α → Eff ε σ β) : Eff ε σ β := fun s =>
  match c s with
  | (.ok a, s) => f a s
  | (.error e, s) => (.error e, s)

instance : Monad (Eff ε σ) where
  pure a := fun s => (.ok a, s)
  bind := bind

/-- What a pure function returns or raises. -/
def lift (x : Except ε α) : Eff ε σ α := fun s => (x, s)

def raise (e : ε) : Eff ε σ α := lift (.error e)

def get : Eff ε σ σ := fun s => (.ok s, s)

def modify (f : σ → σ) : Eff ε σ Unit := fun s => (.ok (), f s)

/-- `try: c except e: handler(e)` -/
def attempt (c : Eff ε σ α) (handler : ε → Eff ε σ α) : Eff ε σ α := fun s =>
  match c s with
  | (.ok a, s) => (.ok a, s)
  | (.error e, s) => handler e s

end Eff

open Eff

/-- After the computation, from the state `s` on, `Q` holds of what it returns or raises and
of the state. -/
def Ensures (c : Eff ε σ α) (s : σ) (Q : Except ε α → σ → Prop) : Prop := Q (c s).1 (c s).2

/-- What has to hold before the rest `f` of a computation. -/
def Then (f : α → Eff ε σ β) (Q : Except ε β → σ → Prop) : Except ε α → σ → Prop
  | .ok a, s => Ensures (f a) s Q
  | .error e, s => Q (.error e) s

/-- What has to hold before a handler. -/
def Else (handler : ε → Eff ε σ α) (Q : Except ε α → σ → Prop) : Except ε α → σ → Prop
  | .ok a, s => Q (.ok a) s
  | .error e, s => Ensures (handler e) s Q

section Rules

variable {s : σ} {Q Q' : Except ε α → σ → Prop}

theorem Ensures.mono {c : Eff ε σ α} (h : Ensures c s Q) (hQ : ∀ r s, Q r s → Q' r s) :
    Ensures c s Q' := hQ _ _ h

theorem ensures_pure (a : α) : Ensures (pure a : Eff ε σ α) s Q ↔ Q (.ok a) s := Iff.rfl

theorem ensures_lift (x : Except ε α) : Ensures (lift x) s Q ↔ Q x s := Iff.rfl

theorem ensures_raise (e : ε) : Ensures (raise e) s Q ↔ Q (.error e) s := Iff.rfl

theorem ensures_get {Q : Except ε σ → σ → Prop} : Ensures get s Q ↔ Q (.ok s) s := Iff.rfl

theorem ensures_modify {f : σ → σ} {Q : Except ε Unit → σ → Prop} :
    Ensures (modify f) s Q ↔ Q (.ok ()) (f s) := Iff.rfl

theorem ensures_bind {c : Eff ε σ α} {f : α → Eff ε σ β} {Q : Except ε β → σ → Prop} :
    Ensures (c >>= f) s Q ↔ Ensures c s (Then f Q) := by
  show Q (Eff.bind c f s).1 (Eff.bind c f s).2 ↔ Then f Q (c s).1 (c s).2
  unfold Eff.bind
  rcases c s with ⟨e | a, s'⟩ <;> exact Iff.rfl

/-- The rest of a computation gets the state. -/
theorem ensures_get_bind {f : σ → Eff ε σ β} {Q : Except ε β → σ → Prop} :
    Ensures (get >>= f) s Q ↔ Ensures (f s) s Q := ensures_bind

theorem ensures_attempt {c : Eff ε σ α} {handler : ε → Eff ε σ α} :
    Ensures (attempt c handler) s Q ↔ Ensures c s (Else handler Q) := by
  show Q (attempt c handler s).1 (attempt c handler s).2 ↔ Else handler Q (c s).1 (c s).2
  unfold attempt
  rcases c s with ⟨e | a, s'⟩ <;> exact Iff.rfl

end Rules

/-! ## What holds on return -/

/-- `good` holds if the computation returns. -/
def Returns (good : α → σ → Prop) (r : Except ε α) (s : σ) : Prop := ∀ a, r = .ok a → good a s

section Returns

variable {s : σ} {good : α → σ → Prop}

theorem Returns.mono {good' : α → σ → Prop} {r : Except ε α} (h : Returns good r s)
    (hgood : ∀ a, good a s → good' a s) : Returns good' r s := fun a ha => hgood a (h a ha)

/-- The rule for a sequence. -/
theorem Returns.bind {c : Eff ε σ α} {f : α → Eff ε σ β} {good' : β → σ → Prop}
    (hc : Ensures c s (Returns good))
    (hf : ∀ a s', good a s' → Ensures (f a) s' (Returns good')) :
    Ensures (c >>= f) s (Returns good') := by
  refine ensures_bind.mpr (hc.mono ?_)
  rintro (e | a) s' ha
  · exact fun _ h => by cases h
  · exact hf a s' (ha a rfl)

/-- What the rest ensures from any state. -/
theorem Returns.after {c : Eff ε σ α} {f : α → Eff ε σ β} {good' : β → σ → Prop}
    (hf : ∀ a s', Ensures (f a) s' (Returns good')) : Ensures (c >>= f) s (Returns good') := by
  have hc : Ensures c s (Returns fun _ _ => True) := fun _ _ => trivial
  exact Returns.bind hc fun a s' _ => hf a s'

/-- A handler that raises adds nothing. -/
theorem Returns.attempt {c : Eff ε σ α} {handler : ε → Eff ε σ α}
    (hc : Ensures c s (Returns good))
    (hraise : ∀ e s', Ensures (handler e) s' (Returns fun _ _ => False)) :
    Ensures (attempt c handler) s (Returns good) := by
  refine ensures_attempt.mpr (hc.mono ?_)
  rintro (e | a) s' ha
  · exact (hraise e s').mono fun _ _ h => h.mono fun _ => False.elim
  · exact ha

theorem returns_lift (x : Except ε α) :
    Ensures (lift x) s (Returns fun a s' => x = .ok a ∧ s' = s) := fun _ ha => ⟨ha, rfl⟩

end Returns

end Effect

import Mathlib.Order.Basic

/-!
# Runs of a partial step function

A system is a partial function `step : S → L → Option S`: `step s l = none` says
that the label `l` is not enabled in `s`.

* `exec` — the state a sequence of labels leads to, computed.
* `Meets` — a run all of whose steps meet a condition on the state before the
  step and the label.
* `invariant`, `invariant_of_meets` — **the induction, once and for all**: what
  one step keeps, a whole run keeps, for all runs or for the runs whose steps
  meet a condition.
* `relation_of_steps` — a reflexive and transitive relation that holds across
  each step holds across a run.
* `project` — a run of a system is a run of each part that makes steps of its own.
-/

namespace Transition

variable {S L : Type*} (step : S → L → Option S)

/-- Run a sequence of labels. -/
def exec : S → List L → Option S
  | s, [] => some s
  | s, l :: ls =>
      match step s l with
      | some s' => exec s' ls
      | none => none

/-- Every step of the run meets `ok`. -/
def Meets (ok : S → L → Prop) : S → List L → Prop
  | _, [] => True
  | s, l :: ls => ok s l ∧ ∀ s', step s l = some s' → Meets ok s' ls

variable {step}

/-- Along a concrete run a decidable condition can be checked. -/
instance decidableMeets {ok : S → L → Prop} [∀ s l, Decidable (ok s l)] :
    (s : S) → (ls : List L) → Decidable (Meets step ok s ls)
  | _, [] => isTrue trivial
  | s, l :: ls =>
      match h : step s l with
      | none => decidable_of_iff (ok s l) ⟨fun hl => ⟨hl, fun s' hs' => by simp [h] at hs'⟩, And.left⟩
      | some s' =>
          have : Decidable (Meets step ok s' ls) := decidableMeets s' ls
          decidable_of_iff (ok s l ∧ Meets step ok s' ls)
            ⟨fun ⟨hl, hls⟩ => ⟨hl, fun t ht => by rw [h] at ht; cases ht; exact hls⟩,
              fun ⟨hl, hls⟩ => ⟨hl, hls s' h⟩⟩

@[simp] theorem exec_nil (s : S) : exec step s [] = some s := rfl

theorem exec_cons {s s' : S} {l : L} (h : step s l = some s') (ls : List L) :
    exec step s (l :: ls) = exec step s' ls := by
  rw [exec, h]

/-- A run of a longer sequence starts with a run of its first label. -/
theorem exec_cons_eq_some {s s' : S} {l : L} {ls : List L} :
    exec step s (l :: ls) = some s' ↔ ∃ m, step s l = some m ∧ exec step m ls = some s' := by
  rw [exec]
  cases step s l <;> simp

theorem exec_append {s s' : S} {ls ms : List L} :
    exec step s (ls ++ ms) = some s' ↔
      ∃ m, exec step s ls = some m ∧ exec step m ms = some s' := by
  induction ls generalizing s with
  | nil => simp
  | cons l ls ih =>
    rw [List.cons_append, exec_cons_eq_some]
    constructor
    · rintro ⟨a, ha, hrest⟩
      obtain ⟨m, hm, hms⟩ := ih.mp hrest
      exact ⟨m, exec_cons_eq_some.mpr ⟨a, ha, hm⟩, hms⟩
    · rintro ⟨m, hm, hms⟩
      obtain ⟨a, ha, hrest⟩ := exec_cons_eq_some.mp hm
      exact ⟨a, ha, ih.mpr ⟨m, hrest, hms⟩⟩

/-- **What one step keeps, a run keeps**, when all its steps meet a condition. -/
theorem invariant_of_meets {ok : S → L → Prop} {I : S → Prop}
    (hstep : ∀ s l s', I s → ok s l → step s l = some s' → I s') :
    ∀ {ls : List L} {s s' : S}, I s → Meets step ok s ls → exec step s ls = some s' → I s' := by
  intro ls
  induction ls with
  | nil =>
    intro s s' hs _ he
    cases he
    exact hs
  | cons l ls ih =>
    intro s s' hs hmeets he
    obtain ⟨m, hm, hrest⟩ := exec_cons_eq_some.mp he
    exact ih (hstep s l m hs hmeets.1 hm) (hmeets.2 m hm) hrest

theorem meets_true (s : S) (ls : List L) : Meets step (fun _ _ => True) s ls := by
  induction ls generalizing s with
  | nil => trivial
  | cons l ls ih => exact ⟨trivial, fun s' _ => ih s'⟩

/-- **What one step keeps, every run keeps.** -/
theorem invariant {I : S → Prop} (hstep : ∀ s l s', I s → step s l = some s' → I s')
    {ls : List L} {s s' : S} (hs : I s) (he : exec step s ls = some s') : I s' :=
  invariant_of_meets (fun s l s' h (_ : True) => hstep s l s' h) hs (meets_true s ls) he

/-- A step in the middle of the run meets it. -/
theorem Meets.at_step {ok : S → L → Prop} {s m : S} {ls ms : List L} {l : L}
    (h : Meets step ok s (ls ++ l :: ms)) (hm : exec step s ls = some m) : ok m l := by
  induction ls generalizing s with
  | nil =>
    cases hm
    exact h.1
  | cons l' ls ih =>
    obtain ⟨s', hs', hrest⟩ := exec_cons_eq_some.mp hm
    exact ih (h.2 s' hs') hrest

/-- A condition that every step of a run meets. -/
theorem meets_of_at_step {ok : S → L → Prop} {s : S} {ls : List L}
    (h : ∀ before l after m, ls = before ++ l :: after → exec step s before = some m → ok m l) :
    Meets step ok s ls := by
  induction ls generalizing s with
  | nil => trivial
  | cons l ls ih =>
    refine ⟨h [] l ls s rfl rfl, fun s' hs' => ih fun before l' after m heq hm => ?_⟩
    exact h (l :: before) l' after m (by rw [heq]; rfl) (by rw [exec_cons hs']; exact hm)

/-- What all labels have in common can be added to the condition. -/
theorem Meets.and_labels {ok : S → L → Prop} {P : L → Prop} {s : S} {ls : List L}
    (h : Meets step ok s ls) (hP : ∀ l ∈ ls, P l) :
    Meets step (fun s l => P l ∧ ok s l) s ls := by
  induction ls generalizing s with
  | nil => trivial
  | cons l ls ih =>
    exact ⟨⟨hP l (by simp), h.1⟩, fun s' hs' => ih (h.2 s' hs') fun m hm => hP m (by simp [hm])⟩

/-- A condition that says nothing of the state. -/
theorem meets_of_labels {ok : S → L → Prop} {s : S} {ls : List L}
    (h : ∀ l ∈ ls, ∀ s, ok s l) : Meets step ok s ls := by
  induction ls generalizing s with
  | nil => trivial
  | cons l ls ih => exact ⟨h l (by simp) s, fun _ _ => ih fun m hm => h m (by simp [hm])⟩

/-- Under an invariant a condition can be replaced by a weaker one. -/
theorem Meets.mono {ok ok' : S → L → Prop} {I : S → Prop}
    (hkeep : ∀ s l s', I s → ok s l → step s l = some s' → I s')
    (hok : ∀ s l, I s → ok s l → ok' s l) {ls : List L} {s : S} (hs : I s)
    (h : Meets step ok s ls) : Meets step ok' s ls := by
  induction ls generalizing s with
  | nil => trivial
  | cons l ls ih =>
    exact ⟨hok s l hs h.1, fun s' hs' => ih (hkeep s l s' hs h.1 hs') (h.2 s' hs')⟩

/-- Under an invariant two conditions that agree on every step agree on every
run. -/
theorem meets_congr {ok ok' : S → L → Prop} {I : S → Prop}
    (hkeep : ∀ s l s', I s → step s l = some s' → I s')
    (hok : ∀ s l, I s → (ok s l ↔ ok' s l)) {ls : List L} {s : S} (hs : I s) :
    Meets step ok s ls ↔ Meets step ok' s ls :=
  ⟨.mono (fun s l s' hi _ => hkeep s l s' hi) (fun s l hi => (hok s l hi).mp) hs,
    .mono (fun s l s' hi _ => hkeep s l s' hi) (fun s l hi => (hok s l hi).mpr) hs⟩

/-- The two halves of a run whose steps meet a condition. -/
theorem meets_append {ok : S → L → Prop} {s : S} {ls ms : List L}
    (h : Meets step ok s (ls ++ ms)) :
    Meets step ok s ls ∧ ∀ m, exec step s ls = some m → Meets step ok m ms := by
  induction ls generalizing s with
  | nil => exact ⟨trivial, fun m hm => by cases hm; exact h⟩
  | cons l ls ih =>
    refine ⟨⟨h.1, fun s' hs' => (ih (h.2 s' hs')).1⟩, ?_⟩
    intro m hm
    obtain ⟨a, ha, hrest⟩ := exec_cons_eq_some.mp hm
    exact (ih (h.2 a ha)).2 m hrest

/-- One more step that meets the condition. -/
theorem Meets.snoc {ok : S → L → Prop} {s m : S} {ls : List L} {l : L} (h : Meets step ok s ls)
    (hm : exec step s ls = some m) (hl : ok m l) : Meets step ok s (ls ++ [l]) := by
  induction ls generalizing s with
  | nil =>
    cases hm
    exact ⟨hl, fun _ _ => trivial⟩
  | cons l' ls ih =>
    refine ⟨h.1, fun s' hs' => ih (h.2 s' hs') ?_⟩
    rwa [exec_cons hs'] at hm

/-- What the condition implies after each run that meets it, the run itself meets. -/
theorem Meets.of_prefixes {ok ok' : S → L → Prop} {s : S} {ls : List L}
    (h : Meets step ok s ls)
    (hok : ∀ ms m l, Meets step ok s ms → exec step s ms = some m → ok m l → ok' m l) :
    Meets step ok' s ls := by
  suffices hsuffix : ∀ ls ms m, Meets step ok s ms → exec step s ms = some m →
      Meets step ok m ls → Meets step ok' m ls from hsuffix ls [] s trivial rfl h
  intro ls
  induction ls with
  | nil => exact fun _ _ _ _ _ => trivial
  | cons l ls ih =>
    intro ms m hms hm hmeets
    refine ⟨hok ms m l hms hm hmeets.1, fun m' hm' => ?_⟩
    refine ih (ms ++ [l]) m' (hms.snoc hm hmeets.1) ?_ (hmeets.2 m' hm')
    rw [exec_append]
    exact ⟨m, hm, exec_cons_eq_some.mpr ⟨m', hm', rfl⟩⟩

/-- **A part of a system that makes steps of its own**: each run of the system is a run of the
part, with the labels that its steps have there. -/
theorem project {T M : Type*} {inner : T → M → Option T} {label : S → L → Option M} (part : S → T)
    (ok : T → M → Prop)
    (h : ∀ s l s', step s l = some s' → exec inner (part s) (label s l).toList = some (part s')) :
    ∀ {ls : List L} {s s' : S}, Meets step (fun s l => ∀ m ∈ label s l, ok (part s) m) s ls →
      exec step s ls = some s' →
      ∃ ms, Meets inner ok (part s) ms ∧ exec inner (part s) ms = some (part s') := by
  intro ls
  induction ls with
  | nil =>
    intro s s' _ he
    cases he
    exact ⟨[], trivial, rfl⟩
  | cons l ls ih =>
    intro s s' hmeets he
    obtain ⟨m, hm, hrest⟩ := exec_cons_eq_some.mp he
    obtain ⟨ms, hms, hexec⟩ := ih (hmeets.2 m hm) hrest
    have hinner := h s l m hm
    have hok := hmeets.1
    cases hlabel : label s l with
    | none =>
      rw [hlabel] at hinner
      have hsame : part s = part m := Option.some.inj hinner
      rw [hsame]
      exact ⟨ms, hms, hexec⟩
    | some l' =>
      rw [hlabel] at hinner
      obtain ⟨t, ht, hend⟩ := exec_cons_eq_some.mp hinner
      cases hend
      refine ⟨l' :: ms, ⟨hok l' hlabel, fun t' ht' => ?_⟩, exec_cons_eq_some.mpr ⟨_, ht, hexec⟩⟩
      rw [ht] at ht'
      cases ht'
      exact hms

/-- A reflexive and transitive relation that holds across every step of a run
holds across the run. -/
theorem relation_of_steps {I : S → Prop} {R : S → S → Prop} (hrefl : ∀ s, R s s)
    (htrans : ∀ a b c, R a b → R b c → R a c)
    (hkeep : ∀ s l s', I s → step s l = some s' → I s')
    (hstep : ∀ s l s', I s → step s l = some s' → R s s') :
    ∀ {ls : List L} {s s' : S}, I s → exec step s ls = some s' → R s s' := by
  intro ls
  induction ls with
  | nil =>
    intro s s' _ he
    cases he
    exact hrefl s
  | cons l ls ih =>
    intro s s' hs he
    obtain ⟨m, hm, hrest⟩ := exec_cons_eq_some.mp he
    exact htrans s m s' (hstep s l m hs hm) (ih (hkeep s l m hs hm) hrest)

end Transition

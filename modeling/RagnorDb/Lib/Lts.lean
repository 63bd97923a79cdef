import Mathlib.Data.List.Basic

/-!
# Labelled transition systems

Runs, reachability and the rules by which a property is carried along a run.  A
restriction keeps the steps that meet a condition on the state before them, so a run of
the restricted system is exactly a run all of whose steps meet it.
-/

universe u v w x

/-- A labelled transition system. -/
structure Lts (σ : Type u) (α : Type v) where
  init : σ → Prop
  step : σ → α → σ → Prop

namespace Lts

variable {σ : Type u} {α : Type v}

/-- `Steps s as t`: the actions `as`, taken in order, lead from `s` to `t`. -/
inductive Steps (L : Lts σ α) : σ → List α → σ → Prop
  | nil (s : σ) : Steps L s [] s
  | cons {s t u : σ} {a : α} {as : List α} :
      L.step s a t → Steps L t as u → Steps L s (a :: as) u

/-- A state that some run from an initial state ends in. -/
def Reachable (L : Lts σ α) (s : σ) : Prop :=
  ∃ s₀ as, L.init s₀ ∧ L.Steps s₀ as s

/-- The system of a function that computes the state after an action, if it is enabled. -/
def ofNext (init : σ → Prop) (next : σ → α → Option σ) : Lts σ α where
  init := init
  step s a t := next s a = some t

/-- The same system, with only the steps whose source state and action meet `C`. -/
def restrict (L : Lts σ α) (C : σ → α → Prop) : Lts σ α where
  init := L.init
  step s a t := C s a ∧ L.step s a t

variable {L : Lts σ α} {s t u : σ} {a : α} {as bs : List α}

theorem Steps.append (h : L.Steps s as t) (h' : L.Steps t bs u) : L.Steps s (as ++ bs) u := by
  induction h with
  | nil => exact h'
  | cons hstep _ ih => exact .cons hstep (ih h')

theorem Steps.single (h : L.step s a t) : L.Steps s [a] t :=
  .cons h (.nil t)

theorem Reachable.of_init (h : L.init s) : L.Reachable s :=
  ⟨s, [], h, .nil s⟩

theorem Reachable.steps (h : L.Reachable s) (h' : L.Steps s as t) : L.Reachable t := by
  obtain ⟨s₀, bs, h0, hbs⟩ := h
  exact ⟨s₀, bs ++ as, h0, hbs.append h'⟩

theorem Reachable.step (h : L.Reachable s) (h' : L.step s a t) : L.Reachable t :=
  h.steps (.single h')

theorem Steps.of_restrict {C : σ → α → Prop} (h : (L.restrict C).Steps s as t) :
    L.Steps s as t := by
  induction h with
  | nil s => exact .nil s
  | cons hstep _ ih => exact .cons hstep.2 ih

theorem Steps.of_foldlM {next : σ → α → Option σ}
    (hnext : ∀ {s a t}, next s a = some t → L.step s a t)
    (h : as.foldlM next s = some t) : L.Steps s as t := by
  induction as generalizing s with
  | nil =>
    cases h
    exact .nil _
  | cons a as ih =>
    rw [List.foldlM_cons, Option.bind_eq_bind, Option.bind_eq_some_iff] at h
    obtain ⟨s', hstep, hrest⟩ := h
    exact .cons (hnext hstep) (ih hrest)

/-- A computed run reaches a state, and shows of it what was computed. -/
theorem Reachable.of_run {β : Type w} {view : σ → β} {seen : β} {next : σ → α → Option σ}
    (h : (as.foldlM next s).map view = some seen) (hinit : L.init s)
    (hnext : ∀ {s a t}, next s a = some t → L.step s a t) : ∃ t, L.Reachable t ∧ view t = seen := by
  obtain ⟨t, hrun, hseen⟩ := Option.map_eq_some_iff.mp h
  exact ⟨t, ⟨s, as, hinit, .of_foldlM hnext hrun⟩, hseen⟩

theorem Steps.preserves {P : σ → Prop} (hP : ∀ {s a t}, P s → L.step s a t → P t)
    {s t : σ} {as : List α} (h : L.Steps s as t) (hs : P s) : P t := by
  induction h with
  | nil => exact hs
  | cons hstep _ ih => exact ih (hP hs hstep)

theorem Steps.preserves_of_reachable {P : σ → Prop}
    (hP : ∀ {s a t}, L.Reachable s → P s → L.step s a t → P t)
    {s t : σ} {as : List α} (h : L.Steps s as t) (hr : L.Reachable s) (hs : P s) : P t := by
  induction h with
  | nil => exact hs
  | cons hstep _ ih => exact ih (hr.step hstep) (hP hr hs hstep)

theorem Reachable.invariant {P : σ → Prop} (h0 : ∀ {s}, L.init s → P s)
    (hP : ∀ {s a t}, L.Reachable s → P s → L.step s a t → P t)
    {s : σ} (h : L.Reachable s) : P s := by
  obtain ⟨s₀, as, hinit, hsteps⟩ := h
  exact hsteps.preserves_of_reachable hP (.of_init hinit) (h0 hinit)

theorem Steps.relates {R : σ → σ → Prop} (hrefl : ∀ s, R s s)
    (htrans : ∀ {s t u}, R s t → R t u → R s u)
    (hstep : ∀ {s a t}, L.Reachable s → L.step s a t → R s t)
    {s t : σ} {as : List α} (h : L.Steps s as t) (hr : L.Reachable s) : R s t := by
  induction h with
  | nil s => exact hrefl s
  | cons h _ ih => exact htrans (hstep hr h) (ih (hr.step h))

end Lts

import Mathlib.Logic.Basic
import Mathlib.Tactic.TypeStar

/-!
# Transition systems with guarded, executable steps

`step s e` is the state after event `e`, or nothing where `e` cannot happen in `s`. A run is the
list of its events, so a concrete run is evaluated and a statement about every run is one about
every list. A condition on runs is a predicate `C` of the state before a step and the event: `Always
C` says that each step of a run meets it.
-/

/-- An initial state and a guarded step function. -/
structure TransitionSystem (σ ε : Type*) where
  init : σ
  step : σ → ε → Option σ

namespace TransitionSystem

variable {σ ε : Type*} (T : TransitionSystem σ ε)

/-- The state after the events, from `s`, or nothing if one of them could not happen. -/
def runFrom (s : σ) : List ε → Option σ
  | [] => some s
  | e :: es => (T.step s e).bind fun s' => runFrom s' es

/-- The state after the events, from the initial state. -/
def run (es : List ε) : Option σ := T.runFrom T.init es

/-- Every step the events take from `s` meets `C`. -/
def AlwaysFrom (C : σ → ε → Prop) (s : σ) : List ε → Prop
  | [] => True
  | e :: es => C s e ∧ ∀ s', T.step s e = some s' → AlwaysFrom C s' es

/-- Every step of the run meets `C`. -/
def Always (C : σ → ε → Prop) (es : List ε) : Prop := T.AlwaysFrom C T.init es

@[simp] theorem runFrom_nil (s : σ) : T.runFrom s [] = some s := rfl

@[simp] theorem runFrom_cons (s : σ) (e : ε) (es : List ε) :
    T.runFrom s (e :: es) = (T.step s e).bind fun s' => T.runFrom s' es := rfl

@[simp] theorem run_nil : T.run [] = some T.init := rfl

theorem runFrom_append (s : σ) (es fs : List ε) :
    T.runFrom s (es ++ fs) = (T.runFrom s es).bind fun s' => T.runFrom s' fs := by
  induction es generalizing s with
  | nil => rfl
  | cons e es ih =>
    simp only [List.cons_append, runFrom_cons, Option.bind_assoc]
    exact congrArg _ (funext fun s' => ih s')

variable {T} {C D : σ → ε → Prop}

theorem AlwaysFrom.mono (hCD : ∀ s e, C s e → D s e) {s : σ} {es : List ε}
    (h : T.AlwaysFrom C s es) : T.AlwaysFrom D s es := by
  induction es generalizing s with
  | nil => trivial
  | cons e es ih => exact ⟨hCD s e h.1, fun s' hstep => ih (h.2 s' hstep)⟩

theorem AlwaysFrom.and {s : σ} {es : List ε} (hC : T.AlwaysFrom C s es) (hD : T.AlwaysFrom D s es) :
    T.AlwaysFrom (fun s e => C s e ∧ D s e) s es := by
  induction es generalizing s with
  | nil => trivial
  | cons e es ih => exact ⟨⟨hC.1, hD.1⟩, fun s' hstep => ih (hC.2 s' hstep) (hD.2 s' hstep)⟩

theorem Always.and {es : List ε} (hC : T.Always C es) (hD : T.Always D es) :
    T.Always (fun s e => C s e ∧ D s e) es :=
  AlwaysFrom.and hC hD

/-- A condition on the events alone. -/
theorem always_of_mem {P : ε → Prop} {es : List ε} (h : ∀ e ∈ es, P e) :
    T.Always (fun _ e => P e) es := by
  suffices hfrom : ∀ s, T.AlwaysFrom (fun _ e => P e) s es from hfrom _
  induction es with
  | nil => exact fun _ => trivial
  | cons e es ih =>
    exact fun s => ⟨h e List.mem_cons_self, fun s' _ =>
      ih (fun e he => h e (List.mem_cons_of_mem _ he)) s'⟩

/-- Checks the condition along a concrete run. -/
def alwaysFrom (check : σ → ε → Bool) (s : σ) : List ε → Bool
  | [] => true
  | e :: es => check s e && match T.step s e with
    | some s' => alwaysFrom check s' es
    | none => true

theorem always_of_alwaysFrom (check : σ → ε → Bool) {es : List ε}
    (h : T.alwaysFrom check T.init es = true) :
    T.Always (fun s e => check s e = true) es := by
  suffices hfrom : ∀ s, T.alwaysFrom check s es = true →
    T.AlwaysFrom (fun s e => check s e = true) s es from hfrom _ h
  clear h
  induction es with
  | nil => exact fun _ _ => trivial
  | cons e es ih =>
    intro s h
    obtain ⟨hhead, htail⟩ := Bool.and_eq_true_iff.mp h
    refine ⟨hhead, fun s' hstep => ih s' ?_⟩
    rw [hstep] at htail
    exact htail

/-- What no step can break holds after every run. -/
theorem runFrom_invariant {P : σ → Prop}
    (hstep : ∀ s e s', P s → C s e → T.step s e = some s' → P s')
    {s s' : σ} {es : List ε} (hs : P s) (halways : T.AlwaysFrom C s es)
    (hrun : T.runFrom s es = some s') : P s' := by
  induction es generalizing s with
  | nil =>
    obtain rfl : s = s' := by simpa using hrun
    exact hs
  | cons e es ih =>
    obtain ⟨t, hse, hrest⟩ := Option.bind_eq_some_iff.mp hrun
    exact ih (hstep s e t hs halways.1 hse) (halways.2 t hse) hrest

/-- **The invariant rule for runs under a condition.** -/
theorem run_invariant {P : σ → Prop} (hinit : P T.init)
    (hstep : ∀ s e s', P s → C s e → T.step s e = some s' → P s')
    {s : σ} {es : List ε} (halways : T.Always C es) (hrun : T.run es = some s) : P s :=
  runFrom_invariant hstep hinit halways hrun

theorem alwaysFrom_true (s : σ) (es : List ε) : T.AlwaysFrom (fun _ _ => True) s es := by
  induction es generalizing s with
  | nil => trivial
  | cons e es ih => exact ⟨trivial, fun s' _ => ih s'⟩

theorem runFrom_invariant_all {P : σ → Prop} (hstep : ∀ s e s', P s → T.step s e = some s' → P s')
    {s s' : σ} {es : List ε}
    (hs : P s) (hrun : T.runFrom s es = some s') : P s' :=
  runFrom_invariant (C := fun _ _ => True) (fun s e s' hs _ h =>
    hstep s e s' hs h) hs (alwaysFrom_true s es) hrun

/-- **The invariant rule for all runs.** -/
theorem run_invariant_all {P : σ → Prop} (hinit : P T.init)
    (hstep : ∀ s e s', P s → T.step s e = some s' → P s')
    {s : σ} {es : List ε} (hrun : T.run es = some s) : P s :=
  runFrom_invariant_all hstep hinit hrun

/-! ### history variables -/

variable {ω : Type*}

/-- The system with a record beside its states, which every step may write and no step reads. -/
def observed (T : TransitionSystem σ ε) (record : ω) (observe : σ → ε → σ → ω → ω) :
    TransitionSystem (σ × ω) ε where
  init := (T.init, record)
  step w e := (T.step w.1 e).map fun s' => (s', observe w.1 e s' w.2)

variable {record : ω} {observe : σ → ε → σ → ω → ω}

theorem observed_step {w w' : σ × ω} {e : ε} :
    (T.observed record observe).step w e = some w' ↔
      T.step w.1 e = some w'.1 ∧ w'.2 = observe w.1 e w'.1 w.2 := by
  obtain ⟨s', r'⟩ := w'
  simp only [observed, Option.map_eq_some_iff, Prod.mk.injEq]
  constructor
  · rintro ⟨t, hstep, rfl, rfl⟩
    exact ⟨hstep, rfl⟩
  · rintro ⟨hstep, rfl⟩
    exact ⟨s', hstep, rfl, rfl⟩

/-- A record changes nothing about the run it is made of. -/
theorem run_of_observed {es : List ε} {w : σ × ω}
    (hrun : (T.observed record observe).run es = some w) :
    T.run es = some w.1 := by
  suffices hfrom : ∀ w₀, (T.observed record observe).runFrom w₀ es = some w →
    T.runFrom w₀.1 es = some w.1 from hfrom _ hrun
  clear hrun
  induction es with
  | nil =>
    intro w₀ hrun
    obtain rfl : w₀ = w := by simpa using hrun
    rfl
  | cons e es ih =>
    intro w₀ hrun
    obtain ⟨w₁, hstep, hrest⟩ := Option.bind_eq_some_iff.mp hrun
    exact Option.bind_eq_some_iff.mpr ⟨w₁.1, (observed_step.mp hstep).1, ih w₁ hrest⟩

/-- Every run can be recorded. -/
theorem exists_observed_run {es : List ε} {s : σ} (hrun : T.run es = some s) :
    ∃ r, (T.observed record observe).run es = some (s, r) := by
  suffices hfrom : ∀ s₀ r₀, T.runFrom s₀ es = some s →
      ∃ r, (T.observed record observe).runFrom (s₀, r₀) es = some (s, r) from
    hfrom _ _ hrun
  clear hrun
  induction es with
  | nil =>
    intro s₀ r₀ hrun
    obtain rfl : s₀ = s := by simpa using hrun
    exact ⟨r₀, rfl⟩
  | cons e es ih =>
    intro s₀ r₀ hrun
    obtain ⟨s₁, hstep, hrest⟩ := Option.bind_eq_some_iff.mp hrun
    obtain ⟨r, hr⟩ := ih s₁ (observe s₀ e s₁ r₀) hrest
    exact ⟨r, Option.bind_eq_some_iff.mpr ⟨_, observed_step.mpr ⟨hstep, rfl⟩, hr⟩⟩

end TransitionSystem

import Mathlib.Logic.Function.Basic

/-! Labelled transition systems whose steps can be computed. An invariant is shown
once for the initial state and once for a step; a condition on steps (`may`) cuts
the runs down to those that respect it, and the same two obligations then need it
only where they use it. -/
namespace RndRust.Lib

/-- Where the system starts and what each action does, when it is enabled. -/
structure Machine (σ α : Type*) where
  initial : σ
  step : σ → α → Option σ

namespace Machine

variable {σ α : Type*} {M : Machine σ α} {may can : σ → α → Prop} {s t : σ} {a : α}

/-- The states some run reaches whose steps all satisfy `may`. -/
inductive Reaches (M : Machine σ α) (may : σ → α → Prop) : σ → Prop
  | initial : Reaches M may M.initial
  | step {s t : σ} {a : α} (before : Reaches M may s) (allowed : may s a)
      (taken : M.step s a = some t) : Reaches M may t

/-- The states some run reaches, whatever its steps. -/
abbrev Reachable (M : Machine σ α) : σ → Prop := M.Reaches fun _ _ => True

/-- An invariant of the allowed steps holds wherever they lead. -/
theorem Reaches.invariant (Inv : σ → Prop) (start : Inv M.initial)
    (preserved : ∀ s a t, Inv s → may s a → M.step s a = some t → Inv t)
    (reached : M.Reaches may s) : Inv s := by
  induction reached with
  | initial => exact start
  | step _ allowed taken ih => exact preserved _ _ _ ih allowed taken

/-- An invariant may use any other that has been shown. -/
theorem Reaches.invariant_with (Known Inv : σ → Prop) (known : ∀ s, M.Reaches may s → Known s)
    (start : Inv M.initial)
    (preserved : ∀ s a t, Known s → Inv s → may s a → M.step s a = some t → Inv t)
    (reached : M.Reaches may s) : Inv s := by
  induction reached with
  | initial => exact start
  | step before allowed taken ih => exact preserved _ _ _ (known _ before) ih allowed taken

/-- Fewer conditions reach more. -/
theorem Reaches.mono (weaker : ∀ s a, may s a → can s a) (reached : M.Reaches may s) :
    M.Reaches can s := by
  induction reached with
  | initial => exact .initial
  | step _ allowed taken ih => exact .step ih (weaker _ _ allowed) taken

theorem Reaches.reachable (reached : M.Reaches may s) : M.Reachable s :=
  reached.mono fun _ _ _ => trivial

/-- Take the actions one after the other; `none` when one is not enabled. -/
def run (M : Machine σ α) : σ → List α → Option σ
  | s, [] => some s
  | s, a :: rest => (M.step s a).bind fun t => M.run t rest

@[simp] theorem run_nil : M.run s [] = some s := rfl

@[simp] theorem run_cons {rest : List α} :
    M.run s (a :: rest) = (M.step s a).bind fun t => M.run t rest := rfl

theorem run_append {first later : List α} :
    M.run s (first ++ later) = (M.run s first).bind fun t => M.run t later := by
  induction first generalizing s with
  | nil => rfl
  | cons a first ih => simp [ih, Option.bind_assoc]

/-- The machine that refuses a step that is not allowed. -/
def guard (M : Machine σ α) (may : σ → α → Prop) [∀ s a, Decidable (may s a)] : Machine σ α where
  initial := M.initial
  step s a := if may s a then M.step s a else none

/-- A computed run whose every step is allowed. -/
theorem Reaches.run [∀ s a, Decidable (may s a)] {trace : List α} (reached : M.Reaches may s)
    (ran : (M.guard may).run s trace = some t) : M.Reaches may t := by
  induction trace generalizing s with
  | nil =>
    cases ran
    exact reached
  | cons a rest ih =>
    rw [run_cons] at ran
    obtain ⟨next, taken, ran⟩ := Option.bind_eq_some_iff.mp ran
    simp only [guard] at taken
    split at taken
    · rename_i allowed
      exact ih (.step reached allowed taken) ran
    · cases taken

/-- What every step keeps exactly if it is allowed, a run keeps exactly if it is a run of allowed steps. -/
theorem run_guard_iff [∀ s a, Decidable (may s a)] (Inv Good : σ → Prop) {trace : List α}
    (preserved : ∀ s a t, Inv s → M.step s a = some t → Inv t)
    (keeps : ∀ s a t, Inv s → M.step s a = some t → (Good t ↔ Good s ∧ may s a))
    (inv : Inv s) (ran : M.run s trace = some t) : Good t ↔ Good s ∧ (M.guard may).run s trace = some t := by
  induction trace generalizing s with
  | nil =>
    cases ran
    exact (and_iff_left rfl).symm
  | cons a rest ih =>
    rw [run_cons] at ran
    obtain ⟨next, taken, ran⟩ := Option.bind_eq_some_iff.mp ran
    rw [ih (preserved s a next inv taken) ran, keeps s a next inv taken, and_assoc, run_cons]
    refine and_congr_right fun _ => ?_
    by_cases allowed : may s a
    · rw [show (M.guard may).step s a = some next from (if_pos allowed).trans taken]
      exact and_iff_right allowed
    · rw [show (M.guard may).step s a = none from if_neg allowed]
      exact ⟨fun both => absurd both.1 allowed, fun never => nomatch never⟩

theorem Reachable.run {trace : List α} (reached : M.Reachable s)
    (ran : M.run s trace = some t) : M.Reachable t := by
  induction trace generalizing s with
  | nil =>
    cases ran
    exact reached
  | cons a rest ih =>
    rw [run_cons] at ran
    obtain ⟨next, taken, ran⟩ := Option.bind_eq_some_iff.mp ran
    exact ih (.step reached trivial taken) ran

/-- A trace of allowed steps shows what is reached. -/
theorem Reaches.of_trace (M : Machine σ α) (may : σ → α → Prop) [∀ s a, Decidable (may s a)] (trace : List α)
    (ends : σ → Prop) [DecidablePred ends] (ran : ((M.guard may).run M.initial trace).any (ends ·)) :
    ∃ s, M.Reaches may s ∧ ends s := by
  obtain ⟨s, ran, final⟩ := (Option.any_eq_true _ _).mp ran
  exact ⟨s, .run .initial ran, of_decide_eq_true final⟩

theorem Reachable.of_trace (M : Machine σ α) (trace : List α) (ends : σ → Prop) [DecidablePred ends]
    (ran : (M.run M.initial trace).any (ends ·)) : ∃ s, M.Reachable s ∧ ends s := by
  obtain ⟨s, ran, final⟩ := (Option.any_eq_true _ _).mp ran
  exact ⟨s, .run .initial ran, of_decide_eq_true final⟩

section Trail

/-- The states of a run, the first and the last among them. -/
def trail (M : Machine σ α) : σ → List α → List σ
  | s, [] => [s]
  | s, a :: rest => s :: (M.step s a).elim [] fun t => M.trail t rest

theorem start_mem_trail {trace : List α} : s ∈ M.trail s trace := by
  cases trace <;> simp [trail]

/-- A latch: a flag that is up after a step exactly if it was up before or the new state is ready. At
the end of a run it is up exactly if a state on the way was ready. -/
theorem latched_iff (Inv flag ready : σ → Prop) {trace : List α}
    (preserved : ∀ s a t, Inv s → M.step s a = some t → Inv t)
    (latch : ∀ s a t, Inv s → M.step s a = some t → (flag t ↔ flag s ∨ ready t))
    (inv : Inv s) (start : ready s → flag s) (ran : M.run s trace = some t) :
    flag t ↔ flag s ∨ ∃ past ∈ M.trail s trace, ready past := by
  induction trace generalizing s with
  | nil =>
    cases ran
    simpa [trail] using start
  | cons a rest ih =>
    rw [run_cons] at ran
    obtain ⟨next, taken, ran⟩ := Option.bind_eq_some_iff.mp ran
    have step := latch s a next inv taken
    have later := ih (preserved s a next inv taken) (fun ready => step.mpr (.inr ready)) ran
    have split : (∃ past ∈ M.trail s (a :: rest), ready past) ↔ ready s ∨ ∃ past ∈ M.trail next rest, ready past := by
      simp [trail, taken]
    rw [later, step, split]
    constructor
    · rintro ((up | now) | found)
      · exact .inl up
      · exact .inr (.inr ⟨next, start_mem_trail, now⟩)
      · exact .inr (.inr found)
    · rintro (up | first | found)
      · exact .inl (.inl up)
      · exact .inl (.inl (start first))
      · exact .inr found

end Trail

section Family

variable {ι γ : Type*} [DecidableEq ι]

/-- Many instances of one machine, with steps of their own and steps all of them take. -/
def family (M : Machine σ α) (spread : γ → σ → σ) : Machine (ι → σ) ((ι × α) ⊕ γ) where
  initial _ := M.initial
  step s
    | .inl (i, a) => (M.step (s i) a).map (Function.update s i)
    | .inr c => some fun i => spread c (s i)

/-- A run of the family is a run of each instance. -/
theorem Reaches.component {spread : γ → σ → σ} {mays : (ι → σ) → (ι × α) ⊕ γ → Prop} {s : ι → σ}
    (own : ∀ s i a, mays s (.inl (i, a)) → may (s i) a)
    (shared : ∀ s c i, mays s (.inr c) → ∃ a, may (s i) a ∧ M.step (s i) a = some (spread c (s i)))
    (reached : (M.family spread).Reaches mays s) (i : ι) : M.Reaches may (s i) := by
  induction reached with
  | initial => exact .initial
  | @step s _ a _ allowed taken ih =>
    cases a with
    | inl a =>
      obtain ⟨j, a⟩ := a
      obtain ⟨t, moved, rfl⟩ := Option.map_eq_some_iff.mp taken
      by_cases same : i = j
      · subst same
        rw [Function.update_self]
        exact .step ih (own s i a allowed) moved
      · rwa [Function.update_of_ne same]
    | inr c =>
      cases taken
      obtain ⟨a, may, moved⟩ := shared s c i allowed
      exact .step ih may moved

/-- A run of one instance, while the others stay where they are. -/
theorem Reaches.instance_of {spread : γ → σ → σ} {mays : (ι → σ) → (ι × α) ⊕ γ → Prop} (i : ι)
    (own : ∀ s a, may (s i) a → mays s (.inl (i, a))) (reached : M.Reaches may t) :
    (M.family spread).Reaches mays (Function.update (fun _ => M.initial) i t) := by
  induction reached with
  | initial =>
    rw [Function.update_eq_self_iff.mpr rfl]
    exact .initial
  | @step s t a _ allowed taken ih =>
    refine .step ih (own _ a ?_) ?_
    · rwa [Function.update_self]
    · simp [family, taken]

end Family

end Machine

end RndRust.Lib

/-! Why something holds at the end of a run: the step that made it so, and what that step took. -/
namespace RndRust.Lib.Machine

variable {σ α : Type*} {M : Machine σ α} {s t : σ} {trace : List α}

/-- A step of a run from `s`, with what came before it and what comes after. -/
structure Moment (M : Machine σ α) (s : σ) (trace : List α) where
  earlier : List α
  action : α
  later : List α
  before : σ
  after : σ
  whole : trace = earlier ++ action :: later
  ran : M.run s earlier = some before
  taken : M.step before action = some after

namespace Moment

/-- The moment of a run that starts a step earlier. -/
def shift {a : α} {next : σ} (m : Moment M next trace) (taken : M.step s a = some next) : Moment M s (a :: trace) :=
  { m with
    earlier := a :: m.earlier
    whole := congrArg (a :: ·) m.whole
    ran := by simp [taken, m.ran] }

theorem earlier_length (m : Moment M s trace) : m.earlier.length < trace.length := by
  have length := congrArg List.length m.whole
  simp only [List.length_append, List.length_cons] at length
  omega

/-- The last step of a computed run. -/
theorem of_trace (M : Machine σ α) (s : σ) (earlier : List α) (a : α) (takes : σ → σ → Prop) [∀ s t, Decidable (takes s t)]
    (ran : (M.run s earlier).any fun before => (M.step before a).any fun after => takes before after) :
    ∃ m : Moment M s (earlier ++ [a]), m.action = a ∧ takes m.before m.after := by
  obtain ⟨before, ran, steps⟩ := (Option.any_eq_true _ _).mp ran
  obtain ⟨after, taken, ends⟩ := (Option.any_eq_true _ _).mp steps
  exact ⟨⟨earlier, a, [], before, after, rfl, ran, taken⟩, rfl, of_decide_eq_true ends⟩

end Moment

/-- What holds at the end of a run, and did not always, some step made so for good: the last one to do it. -/
theorem exists_cause (P : σ → Prop) (ran : M.run s trace = some t) (ends : P t)
    (new : ∃ past ∈ M.trail s trace, ¬P past) :
    ∃ m : Moment M s trace, ¬P m.before ∧ P m.after ∧ ∀ past ∈ M.trail m.after m.later, P past := by
  induction trace generalizing s with
  | nil =>
    obtain ⟨past, on, other⟩ := new
    cases ran
    rw [trail, List.mem_singleton] at on
    exact absurd (on ▸ ends) other
  | cons a rest ih =>
    rw [run_cons] at ran
    obtain ⟨next, taken, ran⟩ := Option.bind_eq_some_iff.mp ran
    by_cases since : ∀ past ∈ M.trail next rest, P past
    · refine ⟨⟨[], a, rest, s, next, rfl, rfl, taken⟩, ?_, since next start_mem_trail, since⟩
      obtain ⟨past, on, other⟩ := new
      rw [trail, taken, List.mem_cons] at on
      rcases on with rfl | on
      · exact other
      · exact absurd (since past on) other
    · simp only [not_forall, exists_prop] at since
      obtain ⟨m, other, now, lasting⟩ := ih ran since
      exact ⟨m.shift taken, other, now, lasting⟩

/-- What a run starts without and ends with, some step made so for good. -/
theorem exists_cause_of_start (P : σ → Prop) (ran : M.run s trace = some t) (ends : P t) (start : ¬P s) :
    ∃ m : Moment M s trace, ¬P m.before ∧ P m.after ∧ ∀ past ∈ M.trail m.after m.later, P past :=
  exists_cause P ran ends ⟨s, start_mem_trail, start⟩

end RndRust.Lib.Machine

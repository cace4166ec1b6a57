import RndRust.Lib.Updates
import RndRust.VolumeMaker.Worker

/-! Whether a stop reaches the owner. The command goes to some worker, and only the owner can
execute it; nobody hands it on. -/
namespace RndRust.VolumeMaker
open Lib

namespace Project

/-- Some stop has not been executed: it is to be published, to be delivered, or a handler
has not come to the release. -/
def Outstanding (s : Project) : Prop :=
  .stop false ∈ s.requests ∨ .stop ∈ s.undelivered ∨ ∃ x ∈ s.handlers, x.phase = .stop .received

instance (s : Project) : Decidable s.Outstanding :=
  inferInstanceAs (Decidable (_ ∨ _ ∨ ∃ x ∈ s.handlers, x.phase = .stop .received))

/-- The last request was a stop, and the project is still owned. -/
def Owed (s : Project) : Prop := s.last = some .stop ∧ s.record ≠ none

instance (s : Project) : Decidable s.Owed := inferInstanceAs (Decidable (_ ∧ _))

/-- No command is undelivered or in processing. -/
def Quiescent (s : Project) : Prop :=
  (∀ r ∈ s.requests, r = .stop true ∨ r = .finished) ∧ s.undelivered = [] ∧ ∀ x ∈ s.handlers, x.phase = .done

instance (s : Project) : Decidable s.Quiescent :=
  inferInstanceAs (Decidable ((∀ r ∈ s.requests, _ ∨ _) ∧ _ ∧ ∀ x ∈ s.handlers, _))

/-- Whether a loop would pass its next check of the record and of the local cache. -/
def Passes (s : Project) (loop : Loop) : Prop := s.owns loop ∧ (s.workers loop.worker).task

instance (s : Project) (loop : Loop) : Decidable (s.Passes loop) := inferInstanceAs (Decidable (_ ∧ _))

/-- The condition: while the project is to be stopped, the last stop that is outstanding is
executed by its owner and not lost, and nobody claims the project once no stop is. -/
def heeds (s : Project) : Action → Bool
  | .proceed r ok =>
    match s.requests[r]? with
    | some (.stop false) =>
      ok || ¬s.Owed || ({ s with requests := s.requests.set r (.stop true) } : Project).Outstanding
    | _ => true
  | .handle h out =>
    match s.handlers[h]? with
    | some ⟨w, .stop .received⟩ =>
      out ≠ .failed && Claimable s.record w || ¬s.Owed || (s.setPhase h w .done).Outstanding
    | some ⟨w, .start .checked⟩ => out = .failed || ¬Claimable s.record w || s.last ≠ some .stop || s.Outstanding
    | _ => true
  | .restart w => ¬s.Owed || (s.restart w).Outstanding
  | _ => true

/-- A stop that was requested last is outstanding or has been executed. -/
def Heeded (s : Project) : Prop := s.last = some .stop → s.Outstanding ∨ s.record = none

section Steps

variable {s s' : Project} {w : String} {h l : ℕ} {out : Outcome} {way : Way} {loop : Loop}

theorem heeded_of_owed (kept : s.Owed → s.Outstanding) : Heeded s := by
  intro last
  by_cases free : s.record = none
  · exact .inr free
  · exact .inl (kept ⟨last, free⟩)

/-- What is outstanding stays so, and what is free stays free. -/
theorem Heeded.keep (heeded : Heeded s) (last : s'.last = s.last) (outstanding : s.Outstanding → s'.Outstanding)
    (record : s.record = none → s'.record = none) : Heeded s' := by
  intro stop
  rcases heeded (last ▸ stop) with before | free
  · exact .inl (outstanding before)
  · exact .inr (record free)

theorem Outstanding.of_eq (outstanding : s.Outstanding) (requests : s'.requests = s.requests)
    (undelivered : s'.undelivered = s.undelivered) (handlers : s'.handlers = s.handlers) : s'.Outstanding := by
  unfold Outstanding
  rwa [requests, undelivered, handlers]

theorem Outstanding.request (outstanding : s.Outstanding) {r : ℕ} {old new : Request}
    (known : s.requests[r]? = some old) (other : old ≠ .stop false) {undelivered : List Command}
    (more : ∀ c ∈ s.undelivered, c ∈ undelivered) {running : Bool} :
    Outstanding { s with requests := s.requests.set r new, undelivered, running } := by
  rcases outstanding with pending | undelivered | handled
  · exact .inl (mem_set_known known (Ne.symm other) pending)
  · exact .inr (.inl (more _ undelivered))
  · exact .inr (.inr handled)

theorem Outstanding.setPhase (outstanding : s.Outstanding) {old phase : HandlerPhase}
    (known : s.handlers[h]? = some ⟨w, old⟩) (other : old ≠ .stop .received) :
    (s.setPhase h w phase).Outstanding := by
  rcases outstanding with pending | undelivered | ⟨x, member, received⟩
  · exact .inl pending
  · exact .inr (.inl undelivered)
  · refine .inr (.inr ⟨x, mem_set_known known ?_ member, received⟩)
    rintro rfl
    exact other received

/-- Only the phase of a handler counts, and only whether it is before the release. -/
theorem Outstanding.setPhase_iff {phase phase' : HandlerPhase} (known : s.handlers[h]? = some ⟨w, phase'⟩)
    (done : (s.setPhase h w .done).Outstanding) : (s.setPhase h w phase).Outstanding := by
  rcases done with pending | undelivered | ⟨x, member, received⟩
  · exact .inl pending
  · exact .inr (.inl undelivered)
  · have again : (s.setPhase h w phase).handlers = (s.setPhase h w .done).handlers.set h ⟨w, phase⟩ := by
      simp [Project.setPhase]
    refine .inr (.inr ⟨x, ?_, received⟩)
    rw [again]
    have here : (s.setPhase h w .done).handlers[h]? = some ⟨w, .done⟩ := by
      rw [Project.setPhase, getElem?_set_known known, if_pos rfl]
    refine mem_set_known here ?_ member
    rintro rfl
    cases received

theorem releaseTask_none (free : s.record = none) : (releaseTask s.record w).1 = none := by
  rw [free]
  rfl

theorem Heeded.proceed (heeded : Heeded s) {r : ℕ} {ok : Bool} (allowed : s.heeds (.proceed r ok))
    (taken : s.step (.proceed r ok) = some s') : Heeded s' := by
  simp only [Project.step] at taken
  split at taken
  · rename_i request known
    cases request with
    | start marked =>
      cases marked with
      | false =>
        cases taken
        exact heeded.keep rfl (fun before => before.request known (by simp) fun _ => id) id
      | true =>
        cases taken
        refine heeded.keep rfl (fun before => before.request known (by simp) fun c member => ?_) id
        split
        · exact List.mem_append_left _ member
        · exact member
    | stop published =>
      cases published with
      | false =>
        cases taken
        refine heeded_of_owed fun owed => ?_
        cases ok with
        | true => exact .inr (.inl (by simp))
        | false =>
          have kept : s.Owed → Outstanding { s with requests := s.requests.set r (.stop true) } := by
            simpa [heeds, known, imp_iff_not_or] using allowed
          exact kept owed
      | true =>
        cases taken
        exact heeded.keep rfl (fun before => before.request known (by simp) fun _ => id) id
    | finished => cases taken
  · cases taken

theorem Heeded.deliver (heeded : Heeded s) {i : ℕ} (taken : s.step (.deliver i w) = some s') : Heeded s' := by
  simp only [Project.step] at taken
  split at taken
  · rename_i command known
    cases taken
    refine heeded.keep rfl (fun before => ?_) id
    rcases before with pending | undelivered | ⟨x, member, received⟩
    · exact .inl pending
    · cases command with
      | start => exact .inr (.inl (mem_eraseIdx_known known (by simp) undelivered))
      | stop => exact .inr (.inr ⟨⟨w, .stop .received⟩, by simp [Project.received], rfl⟩)
    · exact .inr (.inr ⟨x, List.mem_append_left _ member, received⟩)
  · cases taken

theorem handleStop_received : ∃ phase, s.handleStop h w out .received =
    { s.setPhase h w phase with record := if out = .failed then s.record else (releaseTask s.record w).1 } := by
  simp only [Project.handleStop]
  split
  · exact ⟨_, rfl⟩
  all_goals
    rename_i split
    exact ⟨_, by rw [split]; rfl⟩

theorem Outstanding.abort (outstanding : s.Outstanding) : (s.abortTaskLoop w).Outstanding :=
  outstanding.of_eq abort_requests abort_undelivered abort_handlers

theorem Heeded.handleStop (heeded : Heeded s) {phase : StopPhase} (known : s.handlers[h]? = some ⟨w, .stop phase⟩)
    (allowed : s.heeds (.handle h out)) : Heeded (s.handleStop h w out phase) := by
  cases phase with
  | received =>
    obtain ⟨phase, next⟩ := @handleStop_received s w h out
    rw [next]
    simp only [heeds, known, Bool.or_eq_true, Bool.and_eq_true, decide_eq_true_eq] at allowed
    intro last
    dsimp only at last ⊢
    rcases allowed with (⟨executed, claimable⟩ | free) | others
    · right
      rw [if_neg executed, releaseTask_record, if_pos claimable]
    · right
      have none : s.record = none := by
        by_contra held
        exact free ⟨last, held⟩
      split
      · exact none
      · exact releaseTask_none none
    · exact .inl ((Outstanding.setPhase_iff known others).of_eq rfl rfl rfl)
  | released => exact heeded.keep rfl (fun before => before.setPhase (s := s.setWorker w _) known (by simp)) id
  | removed =>
    refine heeded.keep abort_last (fun before => ?_) fun free => abort_record.trans free
    exact before.abort.setPhase (abort_handlers ▸ known) (by simp)

theorem Heeded.handleStart (heeded : Heeded s) {phase : StartPhase} (known : s.handlers[h]? = some ⟨w, .start phase⟩)
    (allowed : s.heeds (.handle h out)) : Heeded (s.handleStart h w out phase) := by
  have goes : ∀ next, s.Outstanding → (s.setPhase h w next).Outstanding :=
    fun next before => before.setPhase known (by simp)
  cases phase with
  | received => exact heeded.keep rfl (goes _) id
  | checked =>
    simp only [heeds, known, Bool.or_eq_true, decide_eq_true_eq] at allowed
    by_cases failed : out = .failed
    · subst failed
      exact heeded.keep rfl (goes _) id
    by_cases claimable : Claimable s.record w
    · -- A claim is granted, and with a stop outstanding that is no harm.
      have granted := claimTask_granted claimable
      have stays : s.last = some .stop → s.Outstanding := by
        intro last
        rcases allowed with ((failed' | refused) | started) | outstanding
        · exact absurd failed' failed
        · exact absurd claimable refused
        · exact absurd last started
        · exact outstanding
      cases out with
      | failed => exact absurd rfl failed
      | lost =>
        simp only [Project.handleStart, granted]
        exact fun last => .inl ((goes _ (stays last)).of_eq rfl rfl rfl)
      | completed =>
        simp only [Project.handleStart, granted]
        exact fun last => .inl ((goes _ (stays last)).of_eq rfl rfl rfl)
    · have refused := claimTask_refused claimable
      cases out with
      | failed => exact absurd rfl failed
      | lost =>
        simp only [Project.handleStart, refused]
        exact heeded.keep rfl (goes _) id
      | completed =>
        simp only [Project.handleStart, refused]
        exact heeded.keep rfl (goes _) id
  | claimed n =>
    refine heeded.keep abort_last (fun before => ?_) fun free => abort_record.trans free
    exact before.abort.setPhase (abort_handlers ▸ known) (by simp)
  | aborted n => exact heeded.keep rfl (fun before => before.setPhase (s := s.setWorker w _) known (by simp)) id
  | cached n => exact heeded.keep rfl (fun before => (goes _ before).of_eq rfl rfl rfl) id
  | spawned k => exact heeded.keep rfl (fun before => before.setPhase (s := s.setWorker w _) known (by simp)) id

theorem Heeded.runLoop (heeded : Heeded s) (taken : s.runLoop l loop out way = some s') : Heeded s' := by
  have same : s'.last = s.last ∧ s'.requests = s.requests ∧ s'.undelivered = s.undelivered ∧
      s'.handlers = s.handlers ∧ (s.record = none → s'.record = none) := by
    unfold Project.runLoop at taken
    split at taken
    all_goals try (cases taken; exact ⟨rfl, rfl, rfl, rfl, id⟩)
    · cases taken
      refine ⟨rfl, rfl, rfl, rfl, fun free => ?_⟩
      dsimp only
      split
      · exact free
      · exact releaseTask_none free
    · split at taken
      all_goals
        cases taken
        simp [setLoop]
    · cases taken
  obtain ⟨last, requests, undelivered, handlers, free⟩ := same
  exact heeded.keep last (fun before => before.of_eq requests undelivered handlers) free

theorem Heeded.step (heeded : Heeded s) {a : Action} (allowed : s.heeds a) (taken : s.step a = some s') :
    Heeded s' := by
  cases a with
  | request command =>
    cases taken
    cases command with
    | start =>
      intro last
      cases last
    | stop => exact fun _ => .inl (.inl (by simp))
  | proceed r ok => exact heeded.proceed allowed taken
  | deliver i w => exact heeded.deliver taken
  | handle h out =>
    simp only [Project.step] at taken
    split at taken
    · rename_i known
      cases taken
      exact heeded.handleStart known allowed
    · rename_i known
      cases taken
      exact heeded.handleStop known allowed
    · cases taken
  | loop l out way =>
    simp only [Project.step] at taken
    split at taken
    · exact heeded.runLoop taken
    · cases taken
  | forceRelease =>
    cases taken
    exact fun _ => .inr rfl
  | restart w =>
    cases taken
    refine heeded_of_owed fun owed => ?_
    have kept : s.Owed → (s.restart w).Outstanding := by
      simpa [heeds, imp_iff_not_or] using allowed
    exact kept owed

/-- Once nothing is in processing nothing is outstanding. -/
theorem Quiescent.done (quiescent : s.Quiescent) : ¬s.Outstanding := by
  obtain ⟨requests, undelivered, handlers⟩ := quiescent
  rintro (pending | waiting | ⟨x, member, received⟩)
  · rcases requests _ pending with same | same <;> cases same
  · rw [undelivered] at waiting
    cases waiting
  · rw [handlers x member] at received
    cases received

end Steps

end Project

section Runs

variable {s : ℤ → Project} {p : ℤ}

/-- **A stop reaches the owner**: when nothing is left to do for a project whose last request
was a stop, nobody owns it, and no loop goes on. -/
theorem stop_reaches (reached : workers.Reaches (inEach Project.heeds) s) (quiescent : (s p).Quiescent)
    (last : (s p).last = some .stop) :
    (s p).record = none ∧ ∀ loop ∈ (s p).loops, loop.phase ≠ .ended → ¬(s p).Passes loop := by
  have heeded : (s p).Heeded := by
    refine (of_workers reached p).invariant Project.Heeded ?_
      fun _ _ _ heeded allowed taken => heeded.step allowed taken
    exact fun _ => .inr rfl
  have free : (s p).record = none := (heeded last).resolve_left quiescent.done
  refine ⟨free, fun loop _ _ passes => ?_⟩
  have own := passes.1
  simp [Project.owns, free] at own

end Runs

section Examples

theorem stop_reaches_owner : ∃ s, workers.Reaches (inEach Project.heeds) s ∧ (s 7).last = some .stop ∧
    (s 7).loops.length = 1 ∧ (s 7).record = none := by
  have ran : ((tasking.guard fun s a => s.heeds a).run tasking.initial
      (requested .start 0 "a" ++ handled 0 6 ++ requested .stop 1 "a" ++ handled 1 3)).any fun t =>
        t.Quiescent ∧ t.last = some .stop ∧ t.loops.length = 1 := by decide
  obtain ⟨t, ran, final⟩ := (Option.any_eq_true _ _).mp ran
  obtain ⟨s, reached, rfl⟩ := to_workers (Machine.Reaches.run .initial ran) 7
  obtain ⟨quiescent, last, one⟩ := of_decide_eq_true final
  exact ⟨s, reached, last, one, (stop_reaches reached quiescent last).1⟩

/-- The stop of a project that `a` owns goes to `b`, and a start is claimed after the stop
that was requested later. -/
theorem stop_reaches_fails :
    (∃ s, workers.Reachable s ∧ (s 7).Quiescent ∧ (s 7).last = some .stop ∧
      ∃ loop ∈ (s 7).loops, loop.phase ≠ .ended ∧ (s 7).Passes loop) ∧
    ∃ s, workers.Reachable s ∧ (s 7).Quiescent ∧ (s 7).last = some .stop ∧
      ∃ loop ∈ (s 7).loops, loop.phase ≠ .ended ∧ (s 7).Passes loop := by
  have ends : ∀ trace, ((tasking.run tasking.initial trace).any fun t => t.Quiescent ∧ t.last = some .stop ∧
      ∃ loop ∈ t.loops, loop.phase ≠ .ended ∧ t.Passes loop) →
      ∃ s, workers.Reachable s ∧ (s 7).Quiescent ∧ (s 7).last = some .stop ∧
        ∃ loop ∈ (s 7).loops, loop.phase ≠ .ended ∧ (s 7).Passes loop := by
    intro trace ran
    obtain ⟨t, ran, final⟩ := (Option.any_eq_true _ _).mp ran
    obtain ⟨s, reached, rfl⟩ := reachable_workers (Machine.Reachable.run .initial ran) 7
    exact ⟨s, reached, of_decide_eq_true final⟩
  refine ⟨ends (requested .start 0 "a" ++ handled 0 6 ++ requested .stop 1 "b" ++ handled 1 1) ?_,
    ends (requested .start 0 "a" ++ handled 0 1 ++ requested .stop 1 "a" ++ handled 1 1 ++ handled 0 5) ?_⟩
  · decide
  · decide

end Examples

end RndRust.VolumeMaker

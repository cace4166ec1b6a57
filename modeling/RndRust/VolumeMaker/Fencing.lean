import RndRust.Lib.Updates
import RndRust.VolumeMaker.Worker

/-! Whether the generation of the record fences loops off. Within the life of a record every
claim hands out a generation of its own; a new record starts over, and then nothing of an
earlier one may still be out of reach. -/
namespace RndRust.VolumeMaker
open Lib

/-- The generation for which a handler is going to spawn a loop. -/
def HandlerPhase.claim : HandlerPhase → Option ℕ
  | .start (.claimed g) | .start (.aborted g) | .start (.cached g) => some g
  | _ => none

/-- A handler that has aborted the loop that was stored, and has not stored its own. -/
def HandlerPhase.past : HandlerPhase → Bool
  | .start (.aborted _) | .start (.cached _) | .start (.spawned _) => true
  | _ => false

namespace Project

def Claims (s : Project) (w : String) (h g : ℕ) : Prop :=
  ∃ x, s.handlers[h]? = some x ∧ x.worker = w ∧ x.phase.claim = some g

def Past (s : Project) (w : String) (h : ℕ) : Prop :=
  ∃ x, s.handlers[h]? = some x ∧ x.worker = w ∧ x.phase.past

/-- A loop that has neither exited nor been aborted. -/
def Live (s : Project) (w : String) (l g : ℕ) : Prop :=
  ∃ loop, s.loops[l]? = some loop ∧ loop.worker = w ∧ loop.generation = g ∧ loop.phase ≠ .ended

def Stored (s : Project) (w : String) (l : ℕ) : Prop := (s.workers w).taskHandle = some l

/-- The loops and the claims of a worker under a record of a generation. Those of an earlier
record are gone as soon as one handler has aborted the loop that was stored. -/
structure Fenced (s : Project) (w : String) (g : ℕ) : Prop where
  bound : ∀ h g', s.Claims w h g' → g' ≤ g
  distinct : ∀ h h' g', s.Claims w h g' → s.Claims w h' g' → h = h'
  either : ((∀ h, ¬s.Past w h) ∧ ∀ l g', s.Live w l g' → s.Stored w l) ∨
    ((∀ l g', s.Live w l g' → g' ≤ g) ∧ (∀ l l' g', s.Live w l g' → s.Live w l' g' → l = l') ∧
      ∀ l h g', s.Live w l g' → ¬s.Claims w h g')

/-- At most one loop that is alive has a given generation. -/
theorem Fenced.single {s : Project} {w : String} {g l l' g' : ℕ} (fenced : s.Fenced w g) (live : s.Live w l g')
    (live' : s.Live w l' g') : l = l' := by
  rcases fenced.either with ⟨-, stored⟩ | ⟨-, single, -⟩
  · have same := (stored l g' live).symm.trans (stored l' g' live')
    exact Option.some.inj same
  · exact single l l' g' live live'

/-- A step that gives a worker no loop and no claim, and leaves its loops in reach. -/
structure Calm (s s' : Project) (w : String) : Prop where
  claims : ∀ h g, s'.Claims w h g → s.Claims w h g
  past : ∀ h, s'.Past w h → s.Past w h
  live : ∀ l g, s'.Live w l g → s.Live w l g
  stored : ∀ l g, s'.Live w l g → s.Stored w l → s'.Stored w l

theorem Fenced.calm {s s' : Project} {w : String} {g g' : ℕ} (fenced : s.Fenced w g) (calm : Calm s s' w)
    (le : g ≤ g') : s'.Fenced w g' := by
  refine ⟨fun h n claims => Nat.le_trans (fenced.bound h n (calm.claims h n claims)) le,
    fun h h' n claims claims' => fenced.distinct h h' n (calm.claims h n claims) (calm.claims h' n claims'), ?_⟩
  rcases fenced.either with ⟨first, stored⟩ | ⟨bound, single, apart⟩
  · exact .inl ⟨fun h past => first h (calm.past h past),
      fun l n live => calm.stored l n live (stored l n (calm.live l n live))⟩
  · exact .inr ⟨fun l n live => Nat.le_trans (bound l n (calm.live l n live)) le,
      fun l l' n live live' => single l l' n (calm.live l n live) (calm.live l' n live'),
      fun l h n live claims => apart l h n (calm.live l n live) (calm.claims h n claims)⟩

section Updates

variable {s s' s'' : Project} {w v : String} {h k l g : ℕ} {phase old : HandlerPhase} {loop : Loop} {state : AppState}

theorem claims_set (known : s.handlers[h]? = some ⟨w, old⟩) (handlers : s'.handlers = s.handlers.set h ⟨w, phase⟩) :
    s'.Claims v k g ↔ if h = k then w = v ∧ phase.claim = some g else s.Claims v k g := by
  unfold Claims
  rw [handlers, getElem?_set_known known]
  split <;> simp

theorem past_set (known : s.handlers[h]? = some ⟨w, old⟩) (handlers : s'.handlers = s.handlers.set h ⟨w, phase⟩) :
    s'.Past v k ↔ if h = k then w = v ∧ phase.past else s.Past v k := by
  unfold Past
  rw [handlers, getElem?_set_known known]
  split <;> simp

theorem Calm.refl : Calm s s w := ⟨fun _ _ => id, fun _ => id, fun _ _ => id, fun _ _ _ => id⟩

theorem Calm.trans (first : Calm s s' w) (second : Calm s' s'' w) : Calm s s'' w where
  claims h g claims := first.claims h g (second.claims h g claims)
  past h past := first.past h (second.past h past)
  live l g live := first.live l g (second.live l g live)
  stored l g live stored := second.stored l g live (first.stored l g (second.live l g live) stored)

/-- What a worker has is in the handlers, in the loops and in its handle. -/
theorem Calm.of_eq (handlers : s'.handlers = s.handlers) (loops : s'.loops = s.loops)
    (handle : (s'.workers w).taskHandle = (s.workers w).taskHandle) : Calm s s' w := by
  refine ⟨?_, ?_, ?_, ?_⟩
  · simp [Claims, handlers]
  · simp [Past, handlers]
  · simp [Live, loops]
  · simp [Stored, handle]

/-- A handler goes on to a phase that is no further along than the one it is in. -/
theorem Calm.setPhase (known : s.handlers[h]? = some ⟨w, old⟩)
    (claim : w = v → ∀ g, phase.claim = some g → old.claim = some g) (past : w = v → phase.past → old.past) :
    Calm s (s.setPhase h w phase) v := by
  refine ⟨fun k g claims => ?_, fun k reached => ?_, fun _ _ => id, fun _ _ _ => id⟩
  · rw [claims_set known rfl] at claims
    split at claims
    · rename_i here
      exact ⟨_, here ▸ known, claims.1, claim claims.1 g claims.2⟩
    · exact claims
  · rw [past_set known rfl] at reached
    split at reached
    · rename_i here
      exact ⟨_, here ▸ known, reached.1, past reached.1 reached.2⟩
    · exact reached

/-- The local cache does not count. -/
theorem Calm.setTask {task : Bool} : Calm s (s.setWorker w { s.workers w with task }) v := by
  refine Calm.of_eq rfl rfl ?_
  by_cases same : v = w
  · simp [Project.setWorker, same]
  · simp [Project.setWorker, same]

theorem Calm.setLoop {loopPhase : LoopPhase} (known : s.loops[l]? = some loop) (live : loop.phase ≠ .ended) :
    Calm s (s.setLoop l loop loopPhase) v := by
  refine ⟨fun _ _ => id, fun _ => id, fun k g alive => ?_, fun _ _ _ => id⟩
  obtain ⟨loop', found, own, same, phase⟩ := alive
  rw [Project.setLoop, getElem?_set_known known] at found
  split at found
  · rename_i here
    obtain rfl := Option.some.inj found
    exact ⟨loop, here ▸ known, own, same, live⟩
  · exact ⟨loop', found, own, same, phase⟩

theorem Calm.andPhase (calm : Calm s s' v) (same : s'.handlers = s.handlers) (known : s.handlers[h]? = some ⟨w, old⟩)
    (claim : w = v → ∀ g, phase.claim = some g → old.claim = some g) (past : w = v → phase.past → old.past) :
    Calm s (s'.setPhase h w phase) v :=
  calm.trans (Calm.setPhase (same ▸ known) claim past)

theorem Calm.andLoop {loopPhase : LoopPhase} (calm : Calm s s' v) (known : s'.loops[l]? = some loop)
    (live : loop.phase ≠ .ended) : Calm s (s'.setLoop l loop loopPhase) v :=
  calm.trans (Calm.setLoop known live)

theorem Calm.andRecord {record : Option TaskOwnership} {running : Bool} (calm : Calm s s' v) :
    Calm s { s' with record, running } v :=
  calm.trans (Calm.of_eq rfl rfl rfl)

/-- The loop that was stored is not alive any more. -/
theorem live_abort (alive : (s.abortTaskLoop w).Live v l g) : s.Live v l g ∧ ¬s.Stored w l := by
  unfold abortTaskLoop at alive
  unfold Stored
  cases stored : (s.workers w).taskHandle with
  | none =>
    rw [stored] at alive
    exact ⟨alive, by simp⟩
  | some k =>
    rw [stored] at alive
    obtain ⟨loop, found, own, same, live⟩ := alive
    rw [List.getElem?_modify] at found
    obtain ⟨before, known, rfl⟩ := Option.map_eq_some_iff.mp found
    split at live
    · exact absurd rfl live
    · rename_i other
      rw [if_neg other] at own same
      exact ⟨⟨before, known, own, same, live⟩, fun here => other (Option.some.inj here)⟩

theorem Calm.abortTaskLoop : Calm s (s.abortTaskLoop w) v := by
  refine ⟨?_, ?_, fun l g alive => (live_abort alive).1, fun l g alive stored => ?_⟩
  · simp [Claims, abort_handlers]
  · simp [Past, abort_handlers]
  · have other := (live_abort alive).2
    have apart : v ≠ w := by
      rintro rfl
      exact other stored
    unfold Project.abortTaskLoop Stored
    split
    · exact stored
    · dsimp only
      rwa [Function.update_of_ne apart]

end Updates

/-- The condition: a claim that makes a new record finds no handler of its worker between a
claim and storing its handle, and no loop that is alive but the one whose handle is stored. -/
def fresh (s : Project) : Action → Bool
  | .handle h out =>
    match s.handlers[h]? with
    | some ⟨w, .start .checked⟩ =>
      out = .failed || s.record.isSome ||
        (s.handlers.all fun x => x.worker ≠ w || (x.phase.claim = none && !x.phase.past)) &&
          s.loops.zipIdx.all fun (loop, l) => loop.worker ≠ w || loop.phase = .ended || (s.workers w).taskHandle = some l
    | _ => true
  | _ => true

/-- The record is fenced for its owner. -/
def Sound (s : Project) : Prop := ∀ o, s.record = some o → s.Fenced o.workerId o.generation

section Steps

variable {s s' : Project} {w v : String} {h l g : ℕ} {out : Outcome} {way : Way} {loop : Loop}

/-- What a claim finds that makes a new record. -/
theorem fenced_fresh (known : s.handlers[h]? = some ⟨w, .start .checked⟩) (executed : out ≠ .failed)
    (none : s.record = none) (allowed : s.fresh (.handle h out)) : s.Fenced w 0 := by
  simp only [fresh, known, executed, none, Option.isSome_none, decide_false, Bool.false_or, Bool.and_eq_true,
    List.all_eq_true, Bool.or_eq_true, decide_eq_true_eq, Bool.not_eq_true'] at allowed
  obtain ⟨idle, stored⟩ := allowed
  have handlers : ∀ (k : ℕ) (x : Handler), s.handlers[k]? = some x → x.worker = w →
      x.phase.claim = Option.none ∧ x.phase.past = false := by
    intro k x found own
    rcases idle x (List.mem_of_getElem? found) with other | quiet
    · exact absurd own other
    · exact quiet
  have claimless : ∀ k g, ¬s.Claims w k g := by
    rintro k g ⟨x, found, own, claim⟩
    rw [(handlers k x found own).1] at claim
    cases claim
  refine ⟨fun k g claims => absurd claims (claimless k g), fun k _ g claims => absurd claims (claimless k g),
    .inl ⟨?_, ?_⟩⟩
  · rintro k ⟨x, found, own, past⟩
    rw [(handlers k x found own).2] at past
    cases past
  · rintro l g ⟨loop, found, own, -, live⟩
    rcases stored (loop, l) (List.mk_mem_zipIdx_iff_getElem?.mpr found) with (other | ended) | handle
    · exact absurd own other
    · exact absurd ended live
    · exact handle

/-- The claim of a handler is the newest. -/
theorem Fenced.claim (fenced : s.Fenced w g) (known : s.handlers[h]? = some ⟨w, .start .checked⟩)
    {record : Option TaskOwnership} :
    Fenced { s.setPhase h w (.start (.claimed (g + 1))) with record } w (g + 1) := by
  have claims : ∀ k n, Claims { s.setPhase h w (.start (.claimed (g + 1))) with record } w k n ↔
      if h = k then n = g + 1 else s.Claims w k n := by
    intro k n
    rw [claims_set known rfl]
    simp [HandlerPhase.claim, eq_comm]
  have past : ∀ k, Past { s.setPhase h w (.start (.claimed (g + 1))) with record } w k → s.Past w k := by
    intro k
    rw [past_set known rfl]
    split <;> simp [HandlerPhase.past]
  refine ⟨fun k n claim => ?_, fun k k' n claim claim' => ?_, ?_⟩
  · rw [claims] at claim
    split at claim
    · exact Nat.le_of_eq claim
    · exact Nat.le_succ_of_le (fenced.bound k n claim)
  · rw [claims] at claim claim'
    split at claim <;> split at claim'
    · rename_i here here'
      exact here.symm.trans here'
    · have older := fenced.bound k' n claim'
      omega
    · have older := fenced.bound k n claim
      omega
    · exact fenced.distinct k k' n claim claim'
  · rcases fenced.either with ⟨first, stored⟩ | ⟨bound, single, apart⟩
    · exact .inl ⟨fun k reached => first k (past k reached), stored⟩
    · refine .inr ⟨fun l n live => Nat.le_succ_of_le (bound l n live), single, fun l k n live claim => ?_⟩
      rw [claims] at claim
      split at claim
      · have older := bound l n live
        omega
      · exact apart l k n live claim

/-- No loop of an earlier record survives the abort of a handler. -/
theorem Fenced.abort (fenced : s.Fenced w g) {n : ℕ} (known : s.handlers[h]? = some ⟨w, .start (.claimed n)⟩) :
    Fenced ((s.abortTaskLoop w).setPhase h w (.start (.aborted n))) w g := by
  have claims : ∀ k m, Claims ((s.abortTaskLoop w).setPhase h w (.start (.aborted n))) w k m ↔ s.Claims w k m := by
    intro k m
    rw [claims_set known (by rw [setPhase, abort_handlers])]
    split
    · rename_i here
      subst here
      simp [Claims, known, HandlerPhase.claim]
    · rfl
  have live : ∀ l m, Live ((s.abortTaskLoop w).setPhase h w (.start (.aborted n))) w l m →
      s.Live w l m ∧ ¬s.Stored w l := fun l m alive => live_abort alive
  refine ⟨fun k m claim => fenced.bound k m ((claims k m).mp claim),
    fun k k' m claim claim' => fenced.distinct k k' m ((claims k m).mp claim) ((claims k' m).mp claim'), .inr ?_⟩
  rcases fenced.either with ⟨-, stored⟩ | ⟨bound, single, apart⟩
  · have none : ∀ l m, ¬Live ((s.abortTaskLoop w).setPhase h w (.start (.aborted n))) w l m :=
      fun l m alive => (live l m alive).2 (stored l m (live l m alive).1)
    exact ⟨fun l m alive => absurd alive (none l m), fun l _ m alive => absurd alive (none l m),
      fun l _ m alive => absurd alive (none l m)⟩
  · exact ⟨fun l m alive => bound l m (live l m alive).1,
      fun l l' m alive alive' => single l l' m (live l m alive).1 (live l' m alive').1,
      fun l k m alive claim => apart l k m (live l m alive).1 ((claims k m).mp claim)⟩

/-- A handler that has aborted the stored loop shows that none of an earlier record is left. -/
theorem Fenced.young (fenced : s.Fenced w g) (past : s.Past w h) :
    (∀ l g', s.Live w l g' → g' ≤ g) ∧ (∀ l l' g', s.Live w l g' → s.Live w l' g' → l = l') ∧
      ∀ l k g', s.Live w l g' → ¬s.Claims w k g' := by
  rcases fenced.either with ⟨first, -⟩ | young
  · exact absurd past (first h)
  · exact young

/-- The loop that is spawned takes the claim over. -/
theorem Fenced.spawn (fenced : s.Fenced w g) {n : ℕ} (known : s.handlers[h]? = some ⟨w, .start (.cached n)⟩) :
    Fenced { s.setPhase h w (.start (.spawned s.loops.length)) with loops := s.loops ++ [⟨w, n, .entered⟩] } w g := by
  have own : s.Claims w h n := ⟨_, known, rfl, rfl⟩
  have claims : ∀ k m, Claims { s.setPhase h w (.start (.spawned s.loops.length)) with
      loops := s.loops ++ [⟨w, n, .entered⟩] } w k m → h ≠ k ∧ s.Claims w k m := by
    intro k m
    rw [claims_set known rfl]
    split <;> simp_all [HandlerPhase.claim]
  have live : ∀ l m, Live { s.setPhase h w (.start (.spawned s.loops.length)) with
      loops := s.loops ++ [⟨w, n, .entered⟩] } w l m →
      (l = s.loops.length ∧ m = n) ∨ (l ≠ s.loops.length ∧ s.Live w l m) := by
    rintro l m ⟨loop, found, here, same, alive⟩
    rw [getElem?_append_one] at found
    split at found
    · rename_i last
      obtain rfl := Option.some.inj found
      exact .inl ⟨last, same.symm⟩
    · rename_i before
      exact .inr ⟨before, loop, found, here, same, alive⟩
  obtain ⟨bound, single, apart⟩ := fenced.young ⟨_, known, rfl, rfl⟩
  refine ⟨fun k m claim => fenced.bound k m (claims k m claim).2,
    fun k k' m claim claim' => fenced.distinct k k' m (claims k m claim).2 (claims k' m claim').2, .inr ⟨?_, ?_, ?_⟩⟩
  · intro l m alive
    rcases live l m alive with ⟨-, rfl⟩ | ⟨-, before⟩
    · exact fenced.bound h _ own
    · exact bound l m before
  · intro l l' m alive alive'
    rcases live l m alive with ⟨rfl, rfl⟩ | ⟨-, before⟩ <;> rcases live l' m alive' with ⟨rfl, here⟩ | ⟨-, before'⟩
    · rfl
    · exact absurd own (apart l' h _ before')
    · exact absurd own (apart l h _ (here ▸ before))
    · exact single l l' m before before'
  · intro l k m alive claim
    obtain ⟨other, held⟩ := claims k m claim
    rcases live l m alive with ⟨-, rfl⟩ | ⟨-, before⟩
    · exact other (fenced.distinct h k _ own held)
    · exact apart l k m before held

/-- The handle that is stored last replaces no other that is needed. -/
theorem Fenced.store (fenced : s.Fenced w g) (known : s.handlers[h]? = some ⟨w, .start (.spawned l)⟩)
    {state : AppState} : Fenced ((s.setWorker w state).setPhase h w .done) w g := by
  have claims : ∀ k m, Claims ((s.setWorker w state).setPhase h w .done) w k m → s.Claims w k m := by
    intro k m
    rw [claims_set (s := s.setWorker w state) known rfl]
    split
    · simp [HandlerPhase.claim]
    · exact id
  obtain ⟨bound, single, apart⟩ := fenced.young ⟨_, known, rfl, rfl⟩
  exact ⟨fun k m claim => fenced.bound k m (claims k m claim),
    fun k k' m claim claim' => fenced.distinct k k' m (claims k m claim) (claims k' m claim'),
    .inr ⟨bound, single, fun l k m live claim => apart l k m live (claims k m claim)⟩⟩

theorem Sound.calm (sound : Sound s) (record : ∀ o, s'.record = some o → s.record = some o)
    (calm : ∀ v, Calm s s' v) : Sound s' :=
  fun o held => (sound o (record o held)).calm (calm o.workerId) (Nat.le_refl _)

theorem Sound.handleStop (sound : Sound s) {phase : StopPhase} (known : s.handlers[h]? = some ⟨w, .stop phase⟩) :
    Sound (s.handleStop h w out phase) := by
  cases phase with
  | received =>
    have quiet : ∀ next v, next.claim = none → next.past = false → Calm s (s.setPhase h w next) v :=
      fun next v claim past => Calm.setPhase known (by simp [claim]) (by simp [past])
    simp only [Project.handleStop]
    split
    · exact sound.calm (fun _ => id) fun v => quiet _ v rfl rfl
    all_goals
      rename_i split
      refine sound.calm (fun o held => releaseTask_held (w := w) ?_) fun v => (quiet _ v rfl rfl).andRecord
      rw [split]
      exact held
  | released =>
    exact sound.calm (fun _ => id) fun v =>
      Calm.setTask.andPhase rfl known (by simp [HandlerPhase.claim]) (by simp [HandlerPhase.past])
  | removed =>
    refine sound.calm (fun o held => ?_) fun v =>
      Calm.abortTaskLoop.andPhase abort_handlers known (by simp [HandlerPhase.claim]) (by simp [HandlerPhase.past])
    rwa [Project.handleStop, setPhase, abort_record] at held

theorem Sound.runLoop (sound : Sound s) (known : s.loops[l]? = some loop)
    (taken : s.runLoop l loop out way = some s') : Sound s' := by
  have live : loop.phase ≠ .ended := by
    intro ended
    simp [Project.runLoop, ended] at taken
  have goes : ∀ {loopPhase : LoopPhase}, Sound (s.setLoop l loop loopPhase) :=
    sound.calm (fun _ => id) fun v => Calm.setLoop known live
  unfold Project.runLoop at taken
  split at taken
  · cases taken; exact goes
  · cases taken; exact goes
  · cases taken; exact goes
  · cases taken; exact goes
  · cases taken; exact goes
  · cases taken; exact goes
  · cases taken
    refine sound.calm (fun o held => ?_) fun v => (Calm.setLoop known live).andRecord
    dsimp only at held
    split at held
    · exact held
    · exact releaseTask_held held
  · cases taken
    exact sound.calm (fun _ => id) fun v => Calm.setTask.andLoop known live
  · split at taken
    · cases taken
      exact sound.calm (fun o held => abort_record ▸ held) fun v => Calm.abortTaskLoop
    · rename_i other
      cases taken
      refine sound.calm (fun o held => ?_) fun v => Calm.abortTaskLoop.andLoop ?_ live
      · rwa [setLoop, abort_record] at held
      · unfold Project.abortTaskLoop
        split
        · exact known
        · rename_i k stored
          have apart : k ≠ l := fun same => other (same ▸ stored)
          simp [apart, known]
  · cases taken
    exact sound.calm (fun _ => id) fun v => (Calm.setLoop known live).andRecord
  · cases taken

theorem Calm.restart : Calm s (s.restart w) v := by
  refine ⟨?_, ?_, ?_, ?_⟩
  · rintro k g ⟨x, found, own, claim⟩
    obtain ⟨before, known, rfl⟩ := by simpa [Project.restart] using found
    split at claim
    · cases claim
    · rw [if_neg ‹_›] at own
      exact ⟨before, known, own, claim⟩
  · rintro k ⟨x, found, own, past⟩
    obtain ⟨before, known, rfl⟩ := by simpa [Project.restart] using found
    split at past
    · cases past
    · rw [if_neg ‹_›] at own
      exact ⟨before, known, own, past⟩
  · rintro l g ⟨loop, found, own, same, live⟩
    obtain ⟨before, known, rfl⟩ := by simpa [Project.restart] using found
    split at live
    · exact absurd rfl live
    · rw [if_neg ‹_›] at own same
      exact ⟨before, known, own, same, live⟩
  · rintro l g ⟨loop, found, own, -, live⟩ stored
    obtain ⟨before, known, rfl⟩ := by simpa [Project.restart] using found
    split at live
    · exact absurd rfl live
    · rename_i other
      rw [if_neg other] at own
      have apart : v ≠ w := own ▸ other
      simpa [Stored, Project.restart, apart] using stored

theorem Calm.append {handler : Handler} (claim : handler.phase.claim = none) (past : handler.phase.past = false)
    (handlers : s'.handlers = s.handlers ++ [handler]) (loops : s'.loops = s.loops) (kept : s'.workers = s.workers) :
    Calm s s' v := by
  refine ⟨?_, ?_, ?_, ?_⟩
  · rintro k g ⟨x, found, own, claims⟩
    rw [handlers, getElem?_append_one] at found
    split at found
    · obtain rfl := Option.some.inj found
      rw [claim] at claims
      cases claims
    · exact ⟨x, found, own, claims⟩
  · rintro k ⟨x, found, own, reached⟩
    rw [handlers, getElem?_append_one] at found
    split at found
    · obtain rfl := Option.some.inj found
      rw [past] at reached
      cases reached
    · exact ⟨x, found, own, reached⟩
  · simp [Live, loops]
  · simp [Stored, kept]

/-- A claim that is granted is the next of its record, and one of a new record starts over. -/
theorem Sound.claim (sound : Sound s) (known : s.handlers[h]? = some ⟨w, .start .checked⟩) (executed : out ≠ .failed)
    (allowed : s.fresh (.handle h out)) (claimable : Claimable s.record w) :
    ∃ g, nextGeneration s.record = g + 1 ∧ s.Fenced w g := by
  cases held : s.record with
  | none => exact ⟨0, rfl, fenced_fresh known executed held allowed⟩
  | some o =>
    have own : o.workerId = w := claimable o held
    exact ⟨o.generation, rfl, own ▸ sound o held⟩

theorem Sound.checked (sound : Sound s) (known : s.handlers[h]? = some ⟨w, .start .checked⟩)
    (allowed : s.fresh (.handle h out)) : Sound (s.handleStart h w out .checked) := by
  have quiet : ∀ v, Calm s (s.setPhase h w .done) v :=
    fun v => Calm.setPhase known (by simp [HandlerPhase.claim]) (by simp [HandlerPhase.past])
  by_cases failed : out = .failed
  · subst failed
    exact sound.calm (fun _ => id) quiet
  by_cases claimable : Claimable s.record w
  · obtain ⟨g, next, fenced⟩ := sound.claim known failed allowed claimable
    have granted := claimTask_granted claimable
    rw [next] at granted
    cases out with
    | failed => exact absurd rfl failed
    | lost =>
      simp only [Project.handleStart, granted]
      rintro o ⟨⟩
      exact fenced.calm (quiet w).andRecord (Nat.le_succ g)
    | completed =>
      simp only [Project.handleStart, granted]
      rintro o ⟨⟩
      exact fenced.claim known
  · have refused := claimTask_refused claimable
    cases out with
    | failed => exact absurd rfl failed
    | lost =>
      simp only [Project.handleStart, refused]
      exact sound.calm (fun _ => id) quiet
    | completed =>
      simp only [Project.handleStart, refused]
      exact sound.calm (fun _ => id) quiet

/-- The owner is fenced by its own steps, the others are not concerned. -/
theorem Sound.goes (sound : Sound s) (record : s'.record = s.record) (own : ∀ g, s.Fenced w g → s'.Fenced w g)
    (other : ∀ v, v ≠ w → Calm s s' v) : Sound s' := by
  intro o held
  rw [record] at held
  by_cases same : o.workerId = w
  · have fenced := sound o held
    rw [same] at fenced ⊢
    exact own _ fenced
  · exact (sound o held).calm (other _ same) (Nat.le_refl _)

theorem Calm.spawn {n : ℕ} (calm : Calm s s' v) (apart : v ≠ w) :
    Calm s { s' with loops := s'.loops ++ [⟨w, n, .entered⟩] } v := by
  refine calm.trans ⟨fun _ _ => id, fun _ => id, ?_, fun _ _ _ => id⟩
  rintro l m ⟨loop, found, own, rest⟩
  rw [getElem?_append_one] at found
  split at found
  · obtain rfl := Option.some.inj found
    exact absurd own.symm apart
  · exact ⟨loop, found, own, rest⟩

theorem Calm.store {state : AppState} (apart : v ≠ w) : Calm s (s.setWorker w state) v :=
  Calm.of_eq rfl rfl (by simp [Project.setWorker, apart])

theorem Sound.handleStart (sound : Sound s) {phase : StartPhase} (known : s.handlers[h]? = some ⟨w, .start phase⟩)
    (allowed : s.fresh (.handle h out)) : Sound (s.handleStart h w out phase) := by
  cases phase with
  | received =>
    refine sound.calm (fun _ => id) fun v => Calm.setPhase known (fun _ => ?_) fun _ => ?_
    all_goals split <;> simp [HandlerPhase.claim, HandlerPhase.past]
  | checked => exact sound.checked known allowed
  | claimed n =>
    refine sound.goes abort_record (fun g fenced => fenced.abort known) fun v apart => ?_
    exact Calm.abortTaskLoop.andPhase abort_handlers known (fun same => absurd same.symm apart)
      fun same => absurd same.symm apart
  | aborted n =>
    refine sound.calm (fun _ => id) fun v => Calm.setTask.andPhase rfl known (fun _ => ?_) fun _ => ?_
    all_goals simp [HandlerPhase.claim, HandlerPhase.past]
  | cached n =>
    refine sound.goes rfl (fun g fenced => fenced.spawn known) fun v apart => ?_
    exact (Calm.setPhase known (fun same => absurd same.symm apart) fun same => absurd same.symm apart).spawn apart
  | spawned k =>
    refine sound.goes rfl (fun g fenced => fenced.store known) fun v apart => ?_
    exact (Calm.store apart).andPhase rfl known (fun same => absurd same.symm apart) fun same => absurd same.symm apart

theorem Sound.step (sound : Sound s) {a : Action} (allowed : s.fresh a) (taken : s.step a = some s') : Sound s' := by
  cases a with
  | request command =>
    cases taken
    exact sound.calm (fun _ => id) fun v => Calm.of_eq rfl rfl rfl
  | proceed r ok =>
    simp only [Project.step] at taken
    split at taken
    · rename_i request _
      cases request with
      | start marked => cases marked <;> cases taken <;> exact sound.calm (fun _ => id) fun v => Calm.of_eq rfl rfl rfl
      | stop published =>
        cases published <;> cases taken <;> exact sound.calm (fun _ => id) fun v => Calm.of_eq rfl rfl rfl
      | finished => cases taken
    · cases taken
  | deliver i w =>
    simp only [Project.step] at taken
    split at taken
    · rename_i command _
      cases taken
      refine sound.calm (fun _ => id) fun v => Calm.append ?_ ?_ rfl rfl rfl
      all_goals cases command <;> rfl
    · cases taken
  | handle h out =>
    simp only [Project.step] at taken
    split at taken
    · rename_i known
      cases taken
      exact sound.handleStart known allowed
    · rename_i known
      cases taken
      exact sound.handleStop known
    · cases taken
  | loop l out way =>
    simp only [Project.step] at taken
    split at taken
    · rename_i known
      exact sound.runLoop known taken
    · cases taken
  | forceRelease =>
    cases taken
    exact fun o held => by cases held
  | restart w =>
    cases taken
    exact sound.calm (fun _ => id) fun v => Calm.restart

end Steps

end Project

section Runs

variable {s : ℤ → Project} {p : ℤ} {o : TaskOwnership} {l l' : ℕ}

/-- **A single loop trades**: at most one loop that is alive carries the worker and the
generation of the record. -/
theorem single_loop (reached : workers.Reaches (inEach Project.fresh) s) (held : (s p).record = some o)
    (live : (s p).Live o.workerId l o.generation) (live' : (s p).Live o.workerId l' o.generation) : l = l' := by
  have sound : (s p).Sound := by
    refine (of_workers reached p).invariant Project.Sound ?_ fun _ _ _ sound allowed taken => sound.step allowed taken
    rintro o ⟨⟩
  exact (sound o held).single live live'

end Runs

section Examples

/-- A project is stopped and started again by the worker that had it. -/
def startedAgain : List Action :=
  requested .start 0 "a" ++ handled 0 6 ++ requested .stop 1 "a" ++ handled 1 3 ++
    requested .start 2 "a" ++ handled 2 6

theorem single_loop_again : ∃ s, workers.Reaches (inEach Project.fresh) s ∧ (s 7).record = some ⟨"a", 1⟩ ∧
    ∀ l, (s 7).Live "a" l 1 → l = 1 := by
  have ran : ((tasking.guard fun s a => s.fresh a).run tasking.initial startedAgain).any fun t =>
      t.record = some ⟨"a", 1⟩ ∧ t.loops[1]? = some ⟨"a", 1, .entered⟩ := by decide
  obtain ⟨t, ran, final⟩ := (Option.any_eq_true _ _).mp ran
  obtain ⟨s, reached, rfl⟩ := to_workers (Machine.Reaches.run .initial ran) 7
  obtain ⟨held, last⟩ := of_decide_eq_true final
  exact ⟨s, reached, held, fun l live => single_loop reached held live ⟨_, last, rfl, rfl, by simp⟩⟩

/-- A handler has claimed the project and is about to spawn its loop when the project is
stopped and started again: both loops carry the generation of the new record. -/
theorem single_loop_fails : ∃ s, workers.Reachable s ∧ (s 7).record = some ⟨"a", 1⟩ ∧
    (s 7).Live "a" 0 1 ∧ (s 7).Live "a" 1 1 ∧ ((s 7).workers "a").task := by
  have ran : (tasking.run tasking.initial (requested .start 0 "a" ++ handled 0 4 ++
      requested .stop 1 "a" ++ handled 1 3 ++ requested .start 2 "a" ++ handled 2 6 ++ handled 0 2)).any fun t =>
        t.record = some ⟨"a", 1⟩ ∧ t.loops[0]? = some ⟨"a", 1, .entered⟩ ∧
          t.loops[1]? = some ⟨"a", 1, .entered⟩ ∧ (t.workers "a").task := by decide
  obtain ⟨t, ran, final⟩ := (Option.any_eq_true _ _).mp ran
  obtain ⟨s, reached, rfl⟩ := reachable_workers (Machine.Reachable.run .initial ran) 7
  obtain ⟨held, first, second, task⟩ := of_decide_eq_true final
  exact ⟨s, reached, held, ⟨_, first, rfl, rfl, by simp⟩, ⟨_, second, rfl, rfl, by simp⟩, task⟩

end Examples

end RndRust.VolumeMaker

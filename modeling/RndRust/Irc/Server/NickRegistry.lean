import RndRust.Irc.Server.NickPlaces

/-! The nicknames map between operations. -/
namespace RndRust.Irc.Server
open Lib Proto

/-- No handler is inside an operation. -/
def AtRest (s : NickState) : Prop := ∀ uid < s.nextUserId, s.tasks uid = .idle ∨ s.tasks uid = .closed

/-- What the registry promises between operations: a live user's nickname is a key
that leads to it, no two live users share one, and no key leads to an absent user. -/
structure NicksAgree (s : NickState) : Prop where
  own : ∀ uid ∈ s.users, ∀ nick, s.nick uid = some nick → s.nicks (fold nick) = some uid
  unique : ∀ uid ∈ s.users, ∀ v ∈ s.users, ∀ nick nick', s.nick uid = some nick →
    s.nick v = some nick' → fold nick = fold nick' → uid = v
  live : ∀ key uid, s.nicks key = some uid → uid ∈ s.users

theorem Consistent.agree {s : NickState} (consistent : Consistent s) (rest : AtRest s) :
    NicksAgree s := by
  have rest : ∀ uid, s.tasks uid = .idle ∨ s.tasks uid = .closed := by
    intro uid
    by_cases minted : uid < s.nextUserId
    · exact rest uid minted
    · exact .inr (consistent.fresh uid (Nat.le_of_not_lt minted)).2.1
  have owns : ∀ uid key, Owns s uid key ↔ uid ∈ s.users ∧ s.key uid = some key := by
    intro uid key
    have held : Held s uid ↔ uid ∈ s.users := by
      refine ⟨?_, .inl⟩
      rintro (live | ⟨w, removes⟩)
      · exact live
      · rcases rest w with here | here <;> simp [here, NickTask.removes] at removes
    have slot : (s.tasks uid).slot = none := by
      rcases rest uid with here | here <;> rw [here] <;> rfl
    unfold Owns
    rw [slot, held]
  have own : ∀ uid ∈ s.users, ∀ nick, s.nick uid = some nick → s.nicks (fold nick) = some uid := by
    intro uid live nick named
    rw [consistent.ledger, owns]
    exact ⟨live, by simp [NickState.key, named]⟩
  refine ⟨own, ?_, fun key uid stored => ((owns uid key).mp ((consistent.ledger key uid).mp stored)).1⟩
  intro uid live v alive nick nick' named named' same
  have first := own uid live nick named
  rw [same, own v alive nick' named', Option.some.injEq] at first
  exact first.symm

/-- **The nickname registry.** In every run in which each slot is inserted while it is
vacant, and no removal reads a nickname in the middle of its user's claim, the maps
agree with the users whenever no handler is inside an operation. In every run at all, a
claim that is refused has written nothing, and what is not written is not changed. -/
theorem nick_registry (s : NickState) :
    (nickRegistry.Reaches (fun s a => orderly s a) s → AtRest s → NicksAgree s) ∧
    (nickRegistry.Reachable s → ∀ uid, s.tasks uid = .refused → s.wrote uid = false) ∧
    ∀ (a : NickStep) (s' : NickState) (uid : UserId), s.step a = some s' →
      a.actor = some uid → s'.wrote uid = false → s'.users = s.users ∧ s'.nicks = s.nicks := by
  refine ⟨fun reached rest => ?_, fun reached uid refused => ?_, ?_⟩
  · have consistent : Consistent s := by
      refine Machine.Reaches.invariant Consistent ?_
        (fun _ _ _ consistent orderly taken => step_consistent consistent orderly taken) reached
      refine ⟨fun uid => trivial, fun key uid => ?_, nofun, fun uid _ => ⟨?_, rfl, rfl⟩⟩
      · simp [nickRegistry, Owns, NickTask.slot, NickState.key]
      · simp [nickRegistry]
    exact consistent.agree rest
  · have clean : RefusalsClean s := by
      refine Machine.Reaches.invariant RefusalsClean ?_
        (fun _ _ _ before _ taken => step_refusals before taken) reached
      intro uid _
      rfl
    exact clean uid (.inl refused)
  · exact fun a s' uid taken own clean => unwritten own taken clean

/-- A claim that runs on its own, with this many steps after the first. -/
def claims (uid : UserId) (nick : Bytes) (steps : ℕ) : List NickStep :=
  .claim uid nick :: List.replicate steps (.advance uid)

instance (s : NickState) : Decidable (AtRest s) :=
  inferInstanceAs (Decidable (∀ uid < s.nextUserId, s.tasks uid = .idle ∨ s.tasks uid = .closed))

/-- User 1 renames itself, user 2 takes the nickname it gave up, and user 1 leaves. -/
theorem nick_registry_rename : ∃ s, (nickRegistry.guard fun s a => orderly s a).run nickRegistry.initial
      ([.accept, .accept] ++ claims 1 (ascii "a") 4 ++ claims 1 (ascii "b") 6 ++
        claims 2 (ascii "A") 4 ++ .close 1 :: List.replicate 4 (.advance 1)) = some s ∧
    NicksAgree s := by
  have ran : ((nickRegistry.guard fun s a => orderly s a).run nickRegistry.initial
      ([.accept, .accept] ++ claims 1 (ascii "a") 4 ++ claims 1 (ascii "b") 6 ++
        claims 2 (ascii "A") 4 ++ .close 1 :: List.replicate 4 (.advance 1))).any
      fun s => decide (AtRest s) := by decide
  obtain ⟨s, ran, rest⟩ := (Option.any_eq_true _ _).mp ran
  exact ⟨s, ran, (nick_registry s).1 (Machine.Reaches.run .initial ran) (of_decide_eq_true rest)⟩

/-- Two claims of a vacant nickname that both see it vacant end with two owners. A
user killed in the middle of its claim leaves a nickname that leads nowhere. -/
theorem nick_registry_fails :
    (∃ s, nickRegistry.Reachable s ∧ AtRest s ∧ 1 ∈ s.users ∧ 2 ∈ s.users ∧
      s.nick 1 = some (ascii "a") ∧ s.nick 2 = some (ascii "a")) ∧
    ∃ s, nickRegistry.Reachable s ∧ AtRest s ∧ s.nicks (ascii "a") = some 1 ∧ 1 ∉ s.users := by
  have both : (nickRegistry.run nickRegistry.initial
      ([.accept, .accept, .claim 1 (ascii "a"), .claim 2 (ascii "a")] ++
        List.replicate 4 (.advance 1) ++ List.replicate 4 (.advance 2))).any fun s =>
      AtRest s ∧ 1 ∈ s.users ∧ 2 ∈ s.users ∧ s.nick 1 = some (ascii "a") ∧
        s.nick 2 = some (ascii "a") := by decide
  have killed : (nickRegistry.run nickRegistry.initial
      ([.accept, .accept] ++ claims 1 (ascii "b") 4 ++ [.claim 1 (ascii "a"), .advance 1] ++
        .kill 2 (ascii "b") :: List.replicate 5 (.advance 2) ++ List.replicate 4 (.advance 1))).any
      fun s => AtRest s ∧ s.nicks (ascii "a") = some 1 ∧ 1 ∉ s.users := by decide
  obtain ⟨s, ran, rest⟩ := (Option.any_eq_true _ _).mp both
  obtain ⟨t, ran', rest'⟩ := (Option.any_eq_true _ _).mp killed
  exact ⟨⟨s, Machine.Reachable.run .initial ran, of_decide_eq_true rest⟩,
    ⟨t, Machine.Reachable.run .initial ran', of_decide_eq_true rest'⟩⟩

end RndRust.Irc.Server

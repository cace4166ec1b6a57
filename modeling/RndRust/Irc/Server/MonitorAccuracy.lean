import RndRust.Irc.Server.Informed

/-! Whether the last status a user was told of a nick that it watches is right, in every state of the server
between two handlers. -/
namespace RndRust.Irc.Server
open Lib Proto

/-- The server, and all that its handlers have sent to each user. -/
structure Recorded where
  srv : Daemon
  sent : UserId → List Message

/-- The server with a record of what is sent. -/
def recorded (config : Config) (crates : Crates) : Machine Recorded Action where
  initial := ⟨(server config crates).initial, fun _ => []⟩
  step r a := (r.srv.step a).map fun srv => ⟨srv, fun w => r.sent w ++ mailFor w (r.srv.effect a).out⟩

section Recording

variable {config : Config} {crates : Crates} {may : Recorded → Action → Prop} {r r' : Recorded} {a : Action}

theorem recorded_step (taken : (recorded config crates).step r a = some r') :
    r.srv.step a = some r'.srv ∧ r'.srv.state = (r.srv.effect a).state ∧
      ∀ w, r'.sent w = r.sent w ++ mailFor w (r.srv.effect a).out := by
  obtain ⟨srv, moved, rfl⟩ := Option.map_eq_some_iff.mp taken
  exact ⟨moved, (Daemon.step_spec moved).1, fun _ => rfl⟩

theorem recorded_reachable (reached : (recorded config crates).Reaches may r) :
    (server config crates).Reachable r.srv := by
  induction reached with
  | initial => exact .initial
  | step _ _ taken ih => exact .step ih trivial (recorded_step taken).1

/-- Whoever watches a nick was last told whether somebody has it. -/
def Told (r : Recorded) : Prop :=
  ∀ w ∈ r.srv.state.users, ∀ n ∈ (r.srv.state.objects w).monitorList,
    ∃ b, lastStatus (r.sent w) n = some b ∧ (b = true ↔ Online r.srv.state n)

theorem Told.step (told : Told r) (accounted : Accounted r.srv.state) (allowed : informs r.srv.state a)
    (taken : (recorded config crates).step r a = some r') : Told r' := by
  obtain ⟨-, state, sent⟩ := recorded_step taken
  have informed := informed_effect accounted a allowed
  intro w live n watched
  rw [state] at live watched
  rw [sent, lastStatus_append, state]
  rcases informed w live n watched with ⟨b, now, right⟩ | ⟨nothing, alive, before, online⟩
  · exact ⟨b, by rw [now, Option.some_or], right⟩
  · obtain ⟨b, earlier, right⟩ := told w alive n before
    exact ⟨b, by rw [nothing, Option.none_or, earlier], right.trans online.symm⟩

/-- In every run whose steps leave no stale status, the last status a user was told of a nick that it
watches is right in every state. -/
theorem monitor_accurate {w : UserId} {n : Bytes}
    (reached : (recorded config crates).Reaches (fun r a => informs r.srv.state a) r)
    (live : w ∈ r.srv.state.users) (watching : n ∈ (r.srv.state.objects w).monitorList) :
    ∃ b, lastStatus (r.sent w) n = some b ∧ (b = true ↔ Online r.srv.state n) := by
  have told : Told r := by
    refine Machine.Reaches.invariant_with (fun r => Accounted r.srv.state) Told
      (fun r reached => reachable_accounted (recorded_reachable reached)) ?_
      (fun r a r' accounted told allowed taken => told.step accounted allowed taken) reached
    intro w live
    cases live
  exact told w live n watching

/-- Of two users one watches the nick that the other takes. -/
theorem monitor_accurate_rename :
    ∃ r, (recorded exampleConfig exampleCrates).Reaches (fun r a => informs r.srv.state a) r ∧
    1 ∈ r.srv.state.users ∧ ascii "bob" ∈ (r.srv.state.objects 1).monitorList ∧
    ∃ b, lastStatus (r.sent 1) (ascii "bob") = some b ∧ (b = true ↔ Online r.srv.state (ascii "bob")) := by
  obtain ⟨r, reached, live, watching⟩ := Machine.Reaches.of_trace (recorded exampleConfig exampleCrates)
    (fun r a => informs r.srv.state a)
    (registers 1 "alice" ++ registers 2 "carol" ++ [sends 1 "MONITOR + bob", sends 2 "NICK bob"])
    (fun r => 1 ∈ r.srv.state.users ∧ ascii "bob" ∈ (r.srv.state.objects 1).monitorList) (by decide +kernel)
  exact ⟨r, reached, live, watching, monitor_accurate reached live watching⟩

/-- A user that registers is announced to nobody. -/
theorem monitor_accurate_fails : ¬ ∀ (config : Config) (crates : Crates) (r : Recorded) (w : UserId) (n : Bytes),
    (recorded config crates).Reachable r → w ∈ r.srv.state.users → n ∈ (r.srv.state.objects w).monitorList →
    ∃ b, lastStatus (r.sent w) n = some b ∧ (b = true ↔ Online r.srv.state n) := by
  intro accurate
  obtain ⟨r, reached, live, watching, said, there, registered, named⟩ := Machine.Reachable.of_trace
    (recorded exampleConfig exampleCrates) (registers 1 "alice" ++ sends 1 "MONITOR + bob" :: registers 2 "bob")
    (fun r => 1 ∈ r.srv.state.users ∧ ascii "bob" ∈ (r.srv.state.objects 1).monitorList ∧
      lastStatus (r.sent 1) (ascii "bob") = some false ∧ 2 ∈ r.srv.state.users ∧
      (r.srv.state.objects 2).registered ∧ (r.srv.state.objects 2).nick = some (ascii "bob")) (by decide +kernel)
  obtain ⟨b, told, right⟩ := accurate _ _ r 1 _ reached live watching
  rw [said, Option.some.injEq] at told
  have online : Online r.srv.state (ascii "bob") := ⟨2, there, registered, by rw [named, Option.map_some]⟩
  rw [← told] at right
  exact absurd (right.mpr online) (by simp)

end Recording

end RndRust.Irc.Server

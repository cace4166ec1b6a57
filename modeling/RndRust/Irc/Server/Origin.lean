import RndRust.Irc.Proto.Accepted
import RndRust.Irc.Server.Identity
import RndRust.Irc.Server.Steps

/-! The origin of what a user says. Its nick, user name and host go into one token,
and the receiver splits the token again at the first `!` and the first `@`. NICK
checks the nick and the server computes the host; nothing checks the user name. -/
namespace RndRust.Irc.Server
open Lib Proto

/-- A prefix is read back as `q`, wherever it stands and whatever follows. -/
def ReadsBack (p q : Prefix) : Prop :=
  ∀ pos left, parsePrefixRegion ⟨pos, writePrefix p ++ left⟩ = .ok (some q, ⟨pos + (writePrefix p).length, left⟩)

section Prefixes

variable {raw nick ident host : Bytes}

/-- A token is read back as it is split. -/
theorem readsBack_classify (nonempty : raw ≠ []) (clean : CleanToken raw) :
    ReadsBack (.user raw none none) (classify raw) := by
  have stable : (classify raw).Stable := ⟨by rwa [writeOrigin_classify], by rwa [writeOrigin_classify], by
    rw [writeOrigin_classify]⟩
  have same : writePrefix (.user raw none none) = writePrefix (classify raw) := by
    rw [writePrefix, writePrefix, writeOrigin_classify]
    simp [writeOrigin]
  intro pos left
  have read := parsePrefix_stable (pos + 1) left stable
  rw [same]
  simp [parsePrefixRegion, writePrefix, read]
  omega

/-- The user name of a prefix that is split twice ends at the first `@`. -/
theorem classify_ident (split : classify raw = .user nick (some ident) (some host)) : atSign ∉ ident := by
  have bare : ∀ {raw : Bytes}, classifyBare raw ≠ .user nick (some ident) (some host) := by
    intro raw same
    unfold classifyBare at same
    split at same <;> cases same
  unfold classify at split
  split at split
  · rename_i bi ai bangAt atAt
    split at split
    · cases split
      have first := (List.findIdx?_eq_some_iff_getElem.mp atAt).2.2
      intro member
      obtain ⟨n, inside, here⟩ := List.getElem_of_mem (List.drop_subset _ _ member)
      rw [List.length_take] at inside
      rw [List.getElem_take] at here
      simpa [here] using first n (by omega)
    · exact (bare split).elim
  · cases split
  · cases split
  · exact (bare split).elim

end Prefixes

/-- What holds of the names of every user. -/
structure Named (user : UserInner) : Prop where
  nick : ∀ nick ∈ user.nick, isValidNick nick
  userName : ∀ reg ∈ user.reg, CleanToken reg.userName
  cloak : ∀ host ∈ user.cloakedHost, CleanToken host
  complete : user.registered → user.nick.isSome ∧ user.reg.isSome ∧ user.cloakedHost.isSome

section Names

variable {nick : Bytes} {b : UInt8}

/-- A byte of a nick neither splits a prefix nor ends it. -/
theorem nickByte_clean (letter : isAsciiAlphabetic b || (91 ≤ b && b ≤ 96) || (123 ≤ b && b ≤ 125) ||
    isAsciiDigit b || b == 45) : b ≠ bang ∧ b ≠ atSign ∧ b ≠ sp ∧ isForbidden b = false := by
  rw [isForbidden_eq_false]
  refine ⟨?_, ?_, ?_, ?_, ?_, ?_⟩
  all_goals
    rintro rfl
    cases letter

theorem nickByte_ascii (letter : isAsciiAlphabetic b || (91 ≤ b && b ≤ 96) || (123 ≤ b && b ≤ 125) ||
    isAsciiDigit b || b == 45) : b < 128 ∧ b ≠ comma := by
  constructor
  · by_contra large
    revert letter
    simp only [isAsciiAlphabetic, isAsciiDigit] at *
    grind
  · rintro rfl
    cases letter

/-- What the bytes of a nick are. -/
theorem isValidNick_letters (valid : isValidNick nick) : nick ≠ [] ∧ ∀ b ∈ nick,
    isAsciiAlphabetic b || (91 ≤ b && b ≤ 96) || (123 ≤ b && b ≤ 125) || isAsciiDigit b || b == 45 := by
  unfold isValidNick at valid
  obtain ⟨-, shape⟩ := (Bool.and_eq_true _ _).mp valid
  cases nick with
  | nil => cases shape
  | cons first more =>
    obtain ⟨head, tail⟩ := (Bool.and_eq_true _ _).mp shape
    refine ⟨List.cons_ne_nil _ _, fun b member => ?_⟩
    rcases List.mem_cons.mp member with rfl | later
    · simp [head]
    · exact List.all_eq_true.mp tail b later

theorem isValidNick_bytes (valid : isValidNick nick) :
    nick ≠ [] ∧ ∀ b ∈ nick, b ≠ bang ∧ b ≠ atSign ∧ b ≠ sp ∧ isForbidden b = false :=
  (isValidNick_letters valid).imp_right fun letters b member => nickByte_clean (letters b member)

theorem isValidNick_ascii (valid : isValidNick nick) : (∀ b ∈ nick, b < 128) ∧ comma ∉ nick := by
  have bytes := fun b member => nickByte_ascii ((isValidNick_letters valid).2 b member)
  exact ⟨fun b member => (bytes b member).1, fun member => (bytes _ member).2 rfl⟩

theorem isValidNick_clean (valid : isValidNick nick) :
    nick ≠ [] ∧ bang ∉ nick ∧ atSign ∉ nick ∧ CleanToken nick := by
  obtain ⟨nonempty, bytes⟩ := isValidNick_bytes valid
  refine ⟨nonempty, fun member => (bytes _ member).1 rfl, fun member => (bytes _ member).2.1 rfl, ?_⟩
  exact fun b member => (bytes b member).2.2

theorem clean_of_le {b : UInt8} (large : 33 ≤ b) : b ≠ sp ∧ isForbidden b = false := by
  rw [isForbidden_eq_false]
  refine ⟨?_, ?_, ?_, ?_⟩
  all_goals
    rintro rfl
    exact absurd large (by decide)

theorem hexEncode_clean (bytes : Bytes) : CleanToken (hexEncode bytes) := by
  have digit : ∀ {d : UInt8}, d < 16 → 33 ≤ if d < 10 then 48 + d else 87 + d := by
    intro d small
    rw [UInt8.lt_iff_toNat_lt] at small
    replace small : d.toNat < 16 := small
    split
    all_goals
      rw [UInt8.le_iff_toNat_le, UInt8.toNat_add]
      simp (disch := omega) only [UInt8.toNat_ofNat, Nat.mod_eq_of_lt]
      omega
  intro b member
  obtain ⟨x, -, encoded⟩ := List.mem_flatMap.mp member
  apply clean_of_le
  rcases List.mem_pair.mp encoded with rfl | rfl
  · apply digit
    rw [UInt8.lt_iff_toNat_lt, UInt8.toNat_div]
    exact Nat.div_lt_of_lt_mul x.toNat_lt
  · apply digit
    rw [UInt8.lt_iff_toNat_lt, UInt8.toNat_mod]
    exact Nat.mod_lt _ (by decide)

theorem cloakIp_clean (crates : Crates) (ip : Bytes) : CleanToken (cloakIp crates ip) := by
  have hex := hexEncode_clean (crates.hmac ip)
  intro b member
  unfold cloakIp at member
  dsimp only at member
  simp only [List.mem_append, List.mem_cons] at member
  rcases member with ((first | rfl | second) | rfl | third) | suffix
  · exact hex.of_subset (List.take_subset _ _) b first
  · exact clean_of_le (by decide)
  · exact hex.of_subset (fun _ inside => List.drop_subset _ _ (List.take_subset _ _ inside)) b second
  · exact clean_of_le (by decide)
  · exact hex.of_subset (fun _ inside => List.drop_subset _ _ (List.take_subset _ _ inside)) b third
  · have large : (ascii ".IP").all (33 ≤ ·) := rfl
    exact clean_of_le (of_decide_eq_true (List.all_eq_true.mp large b suffix))

theorem composePrefix_clean {ident host : Bytes} (nickClean : CleanToken nick) (identClean : CleanToken ident)
    (hostClean : CleanToken host) : CleanToken (UserInner.composePrefix nick ident host) := by
  intro b member
  simp only [UserInner.composePrefix, List.mem_append, List.mem_cons] at member
  rcases member with (inNick | rfl | inIdent) | rfl | inHost
  · exact nickClean b inNick
  · exact clean_of_le (by decide)
  · exact identClean b inIdent
  · exact clean_of_le (by decide)
  · exact hostClean b inHost

end Names

namespace Named

variable {user next : UserInner} {crates : Crates} {cmd : Command}

theorem of_identity (named : Named user) (same : next.identity = user.identity) : Named next := by
  simp only [UserInner.identity, Prod.mk.injEq] at same
  obtain ⟨nick, reg, registered, -, cloak⟩ := same
  constructor
  · rw [nick]
    exact named.nick
  · rw [reg]
    exact named.userName
  · rw [cloak]
    exact named.cloak
  · rw [nick, reg, cloak, registered]
    exact named.complete

theorem finalized (named : Named user) : Named (user.finalized crates) := by
  unfold UserInner.finalized
  split
  · rename_i ready
    simp only [UserInner.ready, Bool.and_eq_true] at ready
    refine ⟨named.nick, named.userName, ?_, fun _ => ⟨ready.1.2, ready.2, rfl⟩⟩
    rintro host ⟨⟩
    exact cloakIp_clean crates _
  · exact named

/-- USER is the one command that brings a name in unchecked. -/
theorem renames (named : Named user) (changed : Renames crates user cmd next)
    (clean : ∀ userName modes realname, cmd = .user userName modes realname → CleanToken userName) :
    Named next := by
  cases changed with
  | keeps same => exact named.of_identity same
  | renamed valid registered =>
    refine ⟨?_, named.userName, named.cloak, fun done => ⟨rfl, (named.complete done).2⟩⟩
    rintro nick ⟨⟩
    exact valid
  | named valid registered =>
    refine finalized ⟨?_, named.userName, named.cloak, fun done => (registered done).elim⟩
    rintro nick ⟨⟩
    exact valid
  | described registered =>
    refine finalized ⟨named.nick, ?_, named.cloak, fun done => (registered done).elim⟩
    rintro reg ⟨⟩
    exact clean _ _ _ rfl
  | negotiated => exact finalized ⟨named.nick, named.userName, named.cloak, named.complete⟩

end Named

/-- A line is obeyed as the message it was accepted as. -/
theorem lineCommand_accepted {line : Bytes} {cmd : Command} (read : lineCommand line = some cmd) :
    ∃ m : Message, m.Accepted ∧ Command.parse m = .ok cmd := by
  unfold lineCommand at read
  split at read
  · rename_i m rest lines
    refine ⟨m, (parse_accepted (IrcCodec.readLine_ok (lines ▸ List.mem_cons_self)).2).1, ?_⟩
    cases command : Command.parse m with
    | error _ => simp [command, Except.toOption] at read
    | ok cmd => simpa [command, Except.toOption] using read
  · cases read

/-- The user name of USER stands in front of other parameters, so it is one token. -/
theorem lineCommand_user {line userName modes realname : Bytes}
    (read : lineCommand line = some (.user userName modes realname)) : CleanToken userName := by
  obtain ⟨m, accepted, parsed⟩ := lineCommand_accepted read
  obtain ⟨-, form⟩ := Params.Shaped.sendable accepted.params
  obtain ⟨third, more, values⟩ := parse_takes parsed
  rw [values] at form
  exact fun b member => ⟨(isMiddleRest_iff.mp (form.1.2.2 b member)).2.2.2, form.1.clean b member⟩

theorem cleanup_objects (s : ServerState) (uid : UserId) : (cleanup s uid).state.objects = s.objects := by
  unfold cleanup
  split
  · rfl
  · exact (removeUser_rest _ uid).1.trans (purge_rest s uid).2.2.1

theorem step_named {srv srv' : Daemon} {a : Action} (named : ∀ uid, Named (srv.state.objects uid))
    (taken : srv.step a = some srv') : ∀ uid, Named (srv'.state.objects uid) := by
  have moved := Daemon.step_moves taken
  generalize srv'.state = t at moved
  cases moved with
  | accepts host out =>
    intro uid
    rw [acceptUser_objects, Function.update_apply]
    split
    · exact ⟨by simp, by simp, by simp, by simp⟩
    · exact named uid
  | @obeys uid line flooded out cmd read handled =>
    obtain ⟨others, own⟩ := dispatchTyped_revises srv.state uid out cmd
    intro v
    by_cases same : v = uid
    · subst same
      refine (named v).renames own fun userName modes realname is => ?_
      subst is
      exact lineCommand_user read
    · rw [others v same]
      exact named v
  | cleans uid =>
    rw [cleanup_objects]
    exact named
  | rests => exact named

theorem reachable_named {config : Config} {crates : Crates} {srv : Daemon}
    (reached : (server config crates).Reachable srv) : ∀ uid, Named (srv.state.objects uid) := by
  refine Machine.Reaches.invariant (fun srv => ∀ uid, Named (srv.state.objects uid)) ?_ ?_ reached
  · intro uid
    exact ⟨by simp [server], by simp [server], by simp [server], by simp [server]⟩
  · intro srv a srv' named _ taken
    exact step_named named taken

/-- **The origin of a registered user is its own exactly when the user name it stored has no
`@`**: nobody checks that, and what stands behind it is read as the host. -/
theorem origin_unforgeable {config : Config} {crates : Crates} {srv : Daemon} {uid : UserId}
    (reached : (server config crates).Reachable srv) (registered : (srv.state.objects uid).registered) :
    let user := srv.state.objects uid
    ∃ nick reg, user.nick = some nick ∧ user.reg = some reg ∧
      (ReadsBack (.user user.originPrefix none none) (.user nick (some reg.userName) (some user.shownHost)) ↔
        atSign ∉ reg.userName) := by
  intro user
  have named : Named user := reachable_named reached uid
  obtain ⟨hasNick, hasReg, hasCloak⟩ := named.complete registered
  obtain ⟨nick, isNick⟩ := Option.isSome_iff_exists.mp hasNick
  obtain ⟨reg, isReg⟩ := Option.isSome_iff_exists.mp hasReg
  obtain ⟨cloak, isCloak⟩ := Option.isSome_iff_exists.mp hasCloak
  obtain ⟨nonempty, noBang, noAt, nickClean⟩ := isValidNick_clean (named.nick nick isNick)
  have userClean := named.userName reg isReg
  have hostClean := named.cloak cloak isCloak
  have origin : user.originPrefix = writeOrigin (.user nick (some reg.userName) (some user.shownHost)) := by
    simp [UserInner.originPrefix, UserInner.originPrefixWithNick, UserInner.composePrefix, UserInner.nickOrStar,
      UserInner.shownUserName, isNick, isReg, writeOrigin]
  have host : user.shownHost = cloak := by simp [UserInner.shownHost, isCloak]
  have separable : (Prefix.user nick (some reg.userName) (some user.shownHost)).Separable := by
    rw [host]
    exact ⟨nickClean, by simpa using userClean, by simpa using hostClean, by simp⟩
  have clean : CleanToken user.originPrefix := by
    simp only [UserInner.originPrefix, UserInner.originPrefixWithNick, UserInner.nickOrStar,
      UserInner.shownUserName, isNick, isReg, host]
    exact composePrefix_clean nickClean userClean hostClean
  have split : ReadsBack (.user user.originPrefix none none) (classify user.originPrefix) :=
    readsBack_classify (by simp [origin, writeOrigin]) clean
  refine ⟨nick, reg, isNick, isReg, ?_⟩
  constructor
  · intro back
    have both := (split 0 []).symm.trans (back 0 [])
    simp only [Except.ok.injEq, Prod.mk.injEq, Option.some.injEq] at both
    exact classify_ident both.1
  · intro noAtSign
    have shaped : (Prefix.user nick (some reg.userName) (some user.shownHost)).Shaped :=
      ⟨noBang, noAt, by simpa using noAtSign, by simp⟩
    rw [← classify_writeOrigin shaped separable, ← origin]
    exact split

/-- A user name without an `@`. -/
theorem origin_unforgeable_plain : ∃ srv, exampleServer.Reachable srv ∧ (srv.state.objects 1).registered ∧
    ∃ nick reg, (srv.state.objects 1).nick = some nick ∧ (srv.state.objects 1).reg = some reg ∧
      ReadsBack (.user (srv.state.objects 1).originPrefix none none)
        (.user nick (some reg.userName) (some (srv.state.objects 1).shownHost)) := by
  obtain ⟨srv, reached, registered, plain⟩ := Machine.Reachable.of_trace exampleServer (registers 1 "a")
    (fun srv => (srv.state.objects 1).registered ∧ (srv.state.objects 1).reg = some ⟨ascii "u", ascii "r"⟩)
    (by decide +kernel)
  obtain ⟨nick, reg, isNick, isReg, back⟩ := origin_unforgeable reached registered
  rw [plain, Option.some.injEq] at isReg
  refine ⟨srv, reached, registered, nick, reg, isNick, plain.trans (congrArg some isReg), back.mpr ?_⟩
  rw [← isReg]
  decide

/-- The host of a user is whatever stands behind the `@` in the name it sent. -/
theorem origin_unforgeable_fails : ¬ ∀ (config : Config) (crates : Crates) (srv : Daemon) (uid : UserId),
    (server config crates).Reachable srv → (srv.state.objects uid).registered →
    ∃ nick reg, (srv.state.objects uid).nick = some nick ∧ (srv.state.objects uid).reg = some reg ∧
      ReadsBack (.user (srv.state.objects uid).originPrefix none none)
        (.user nick (some reg.userName) (some (srv.state.objects uid).shownHost)) := by
  intro unforgeable
  obtain ⟨srv, reached, registered, isReg, origin⟩ := Machine.Reachable.of_trace exampleServer
    [.accept (ascii "127.0.0.1") {}, sends 1 "NICK a", sends 1 "USER root@irc.example.org 0 * :r"]
    (fun srv => (srv.state.objects 1).registered ∧
      (srv.state.objects 1).reg = some ⟨ascii "root@irc.example.org", ascii "r"⟩ ∧
      (srv.state.objects 1).originPrefix = ascii "a!root@irc.example.org@...IP") (by decide +kernel)
  obtain ⟨nick, reg, -, isReg', back⟩ := unforgeable exampleConfig exampleCrates srv 1 reached registered
  rw [isReg, Option.some.injEq] at isReg'
  have read := back 0 []
  rw [origin, ← isReg'] at read
  have other : parsePrefixRegion ⟨0, writePrefix (.user (ascii "a!root@irc.example.org@...IP") none none) ++ []⟩ =
      .ok (some (.user (ascii "a") (some (ascii "root")) (some (ascii "irc.example.org@...IP"))), ⟨30, []⟩) := by
    decide
  rw [other] at read
  simp only [Except.ok.injEq, Prod.mk.injEq, Option.some.injEq, Prefix.user.injEq] at read
  exact absurd read.1.2.1 (by decide)

end RndRust.Irc.Server

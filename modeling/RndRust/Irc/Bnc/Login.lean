import RndRust.Irc.Bnc.Downstream

/-! What a client has to send before the bouncer relays, and what it loses on the way.
Each loop reads whole lines off the connection; the second one wants a registration of
its own from the lines that follow the first. -/
namespace RndRust.Irc.Bnc
open Lib Proto IrcCodec

/-- What a line contributes to a registration. -/
inductive Item where
  | pass (password : Bytes)
  | nick
  | user
  deriving DecidableEq, Repr

/-- The message a line is read as. -/
def message (line : Bytes) : Option Message :=
  match IrcCodec.new.readLine line with
  | [.ok msg] => some msg
  | _ => none

def item (line : Bytes) : Option Item :=
  match (message line).map Command.parse with
  | some (.ok (.pass password)) => some (.pass password)
  | some (.ok (.nick _)) => some .nick
  | some (.ok (.user _ _ _)) => some .user
  | _ => none

/-- Lines as a client writes them. -/
def wire (lines : List Bytes) : Bytes := lines.flatMap (· ++ [lf])

/-- The credentials of a user for one of its networks. -/
def credentials (user : BncUser) (network : BncNetwork) : Bytes :=
  user.name ++ [47] ++ network.name ++ [58] ++ user.password

/-- The lines a configured user registers with: the three of them in any order, at most
seven others among them, and none after the one that completes them. -/
structure Login (users : List BncUser) where
  user : BncUser
  configured : user ∈ users
  network : BncNetwork
  listed : network ∈ user.networks
  lines : List Bytes
  unbroken : ∀ line ∈ lines, lf ∉ line
  parsed : ∀ line ∈ lines, (message line).isSome
  items : (lines.filterMap item).Perm [.pass (credentials user network), .nick, .user]
  short : lines.length ≤ 10
  completes : ∀ line ∈ lines.getLast?, (item line).isSome

/-- The relay is reached by the login alone, and is handed all further lines once and
in order. -/
def Lossless (users : List BncUser) (further reads : List Bytes) : Prop :=
  ∃ auth framed, handleNewDownstream users reads = .relaying auth framed ∧
    framed.handed = further.flatMap IrcCodec.new.readLine

section Reading

variable {framed framed' : Framed}

/-- The lines that lie ahead of a connection, empty ones left out. -/
def Framed.ahead (framed : Framed) : List Bytes := spoken framed.stream

theorem nextFrom_ok {buffer : Bytes} {reads : List Bytes} {msg : Message}
    (taken : Framed.nextFrom buffer reads = some (.ok msg, framed)) :
    ∃ line, IrcCodec.new.readLine line = [.ok msg] ∧
      spoken (buffer ++ reads.flatten) = line :: framed.ahead := by
  induction reads generalizing buffer with
  | nil =>
    simp only [Framed.nextFrom] at taken
    split at taken
    · rename_i decoded
      cases taken
      obtain ⟨line, read, same⟩ := decode_some decoded
      exact ⟨line, read, same _⟩
    · cases taken
    · cases taken
  | cons chunk reads ih =>
    simp only [Framed.nextFrom] at taken
    split at taken
    · rename_i decoded
      cases taken
      obtain ⟨line, read, same⟩ := decode_some decoded
      exact ⟨line, read, same _⟩
    · rename_i decoded
      obtain ⟨line, read, same⟩ := ih taken
      refine ⟨line, read, ?_⟩
      rw [List.append_assoc, (decode_none decoded).2] at same
      exact same
    · cases taken

/-- A message is the first line ahead. -/
theorem next_ok {msg : Message} (taken : framed.next = some (.ok msg, framed')) :
    ∃ line, IrcCodec.new.readLine line = [.ok msg] ∧ framed.ahead = line :: framed'.ahead :=
  nextFrom_ok taken

/-- The relay is handed at most the lines ahead, and an error at the end. -/
theorem handed_length (framed : Framed) : framed.handed.length ≤ framed.ahead.length + 1 := by
  fun_induction Framed.handed with
  | case1 framed msg framed' taken _ ih =>
    obtain ⟨line, -, ahead⟩ := next_ok taken
    simp only [ahead, List.length_cons]
    omega
  | case2 => simp
  | case3 => simp

theorem content_nil {line : Bytes} : content line = [] ↔ line = [] ∨ line = [cr] := by
  unfold content
  split
  · rename_i ends
    obtain ⟨front, rfl⟩ := List.getLast?_eq_some_iff.mp ends
    simp
  · rename_i ends
    constructor
    · exact .inl
    · rintro (rfl | rfl)
      · rfl
      · simp at ends

/-- What is cut off before a stream makes no line of it disappear. -/
theorem spoken_suffix (front stream : Bytes) :
    (spoken stream).length ≤ (spoken (front ++ stream)).length := by
  unfold spoken
  rw [lines_append, List.filter_append, List.length_append]
  refine le_add_left ?_
  have unbroken : lf ∉ tail lf front := tail_unbroken lf front
  rcases first_line lf stream with open' | ⟨line, rest, closed, rfl⟩
  · simp [open']
  · have joined : lf ∉ tail lf front ++ line := by simp [unbroken, closed]
    rw [← List.append_assoc, lines_line joined, lines_line closed]
    by_cases empty : content line = []
    · have dropped : (line :: lines lf rest).filter (content · ≠ []) =
          (lines lf rest).filter (content · ≠ []) := by simp [empty]
      rw [dropped, List.filter_cons]
      split <;> simp
    · have longer : content (tail lf front ++ line) ≠ [] := by
        intro none
        rcases content_nil.mp none with none | none
        · exact empty (content_nil.mpr (.inl (List.append_eq_nil_iff.mp none).2))
        · rcases List.append_eq_singleton_iff.mp none with ⟨-, only⟩ | ⟨-, only⟩
          · exact empty (content_nil.mpr (.inr only))
          · exact empty (content_nil.mpr (.inl only))
      simp [empty, longer]

/-- The socket without the buffer has no more lines than with it. -/
theorem reframe_ahead (framed : Framed) : framed.reframe.ahead.length ≤ framed.ahead.length :=
  spoken_suffix framed.buffer framed.reads.flatten

end Reading

section Gathering

variable {framed framed' : Framed} {g g' : Gathered} {n : ℕ} {used : List Bytes}

namespace Gathered

/-- How many of the three items are there. -/
def count (g : Gathered) : ℕ := g.pass.isSome.toNat + g.gotNick.toNat + g.gotUser.toNat

theorem count_complete (full : g.complete) : g.count = 3 := by
  simp only [complete, Bool.and_eq_true] at full
  simp [count, full.1.1, full.1.2, full.2]

/-- A line adds an item at most when it is one. -/
theorem count_take {line : Bytes} {msg : Message} (read : IrcCodec.new.readLine line = [.ok msg]) :
    (g.take msg).count ≤ g.count + (item line).toList.length := by
  have bounded : ∀ b : Bool, b.toNat ≤ 1 := Bool.toNat_le
  have pass := bounded g.pass.isSome
  have nick := bounded g.gotNick
  have user := bounded g.gotUser
  cases parsed : Command.parse msg with
  | error => simp [take, parsed]
  | ok command => cases command <;> simp [take, item, message, read, parsed, count] <;> omega

end Gathered

/-- What a loop leaves ahead, and how it came to its end: with all items, or after all
its rounds. -/
theorem gather_spec (done : gather n g framed = some (g', framed')) :
    ∃ used, framed.ahead = used ++ framed'.ahead ∧
      g'.count ≤ g.count + (used.filterMap item).length ∧ (used.length = n ∨ g'.complete) := by
  induction n generalizing g framed with
  | zero =>
    cases done
    exact ⟨[], rfl, by simp, .inl rfl⟩
  | succ n ih =>
    rw [gather] at done
    split at done
    · rename_i msg rest taken
      obtain ⟨line, read, ahead⟩ := next_ok taken
      have added := Gathered.count_take (g := g) read
      split at done
      · rename_i full
        cases done
        refine ⟨[line], ahead, ?_, .inr full⟩
        cases kind : item line <;> simpa [kind] using added
      · obtain ⟨used, left, count, ends⟩ := ih done
        refine ⟨line :: used, by rw [ahead, left]; rfl, ?_, ?_⟩
        · cases kind : item line <;> simp [kind] at added ⊢ <;> omega
        · rcases ends with all | full
          · exact .inl (by simp [all])
          · exact .inr full
    · cases done

/-- An authentication uses up three lines at least. -/
theorem gather_three (done : gather 10 {} framed = some (g', framed')) :
    framed'.ahead.length + 3 ≤ framed.ahead.length := by
  obtain ⟨used, ahead, count, ends⟩ := gather_spec done
  have items : (used.filterMap item).length ≤ used.length := List.length_filterMap_le _ _
  rw [ahead, List.length_append]
  rcases ends with all | full
  · omega
  · have three := Gathered.count_complete full
    simp only [Gathered.count] at three count
    simp at count
    omega

end Gathering

section Registration

variable {users : List BncUser} {lines further reads : List Bytes} {framed : Framed}

/-- A line gives one result, or none when it is empty. -/
theorem readLine_length (line : Bytes) :
    (IrcCodec.new.readLine line).length = if content line = [] then 0 else 1 := by
  unfold readLine
  by_cases empty : content line = []
  · simp [empty]
  · rw [if_neg empty, if_neg empty]
    split
    · rfl
    · split <;> rfl

theorem results_length : (further.flatMap IrcCodec.new.readLine).length =
    (further.filter (content · ≠ [])).length := by
  induction further with
  | nil => rfl
  | cons line further ih =>
    rw [List.flatMap_cons, List.length_append, readLine_length, ih, List.filter_cons]
    by_cases empty : content line = [] <;> simp [empty]
    omega

theorem spoken_wire (unbroken : ∀ line ∈ lines, lf ∉ line) :
    spoken (wire lines) = lines.filter (content · ≠ []) := by
  rw [spoken, wire, (lines_flatMap unbroken).1]

theorem Login.spoken (login : Login users) (unbroken : ∀ line ∈ further, lf ∉ line) :
    spoken (wire (login.lines ++ further)) = login.lines ++ further.filter (content · ≠ []) := by
  have all : ∀ line ∈ login.lines ++ further, lf ∉ line := by
    intro line member
    rcases List.mem_append.mp member with own | later
    · exact login.unbroken line own
    · exact unbroken line later
  rw [spoken_wire all, List.filter_append, List.filter_eq_self.mpr]
  intro line member
  have one := login.parsed line member
  by_contra empty
  simp only [ne_eq, decide_not, Bool.not_eq_true', decide_eq_false_iff_not, not_not] at empty
  have none := readLine_length line
  rw [if_pos empty, List.length_eq_zero_iff] at none
  simp [message, none] at one

/-- The first loop does not stop before the line that completes the registration. -/
theorem Login.gathers (login : Login users) {g : Gathered} (unbroken : ∀ line ∈ further, lf ∉ line)
    (cut : reads.flatten = wire (login.lines ++ further))
    (done : gather 10 {} { reads } = some (g, framed)) :
    framed.ahead.length ≤ (further.filter (content · ≠ [])).length := by
  obtain ⟨used, ahead, count, ends⟩ := gather_spec done
  have start : login.lines ++ further.filter (content · ≠ []) = used ++ framed.ahead := by
    rw [← ahead, Framed.ahead, Framed.stream, List.nil_append, cut, login.spoken unbroken]
  have whole : login.lines.length ≤ used.length := by
    by_contra stopped
    have early : used <+: login.lines.dropLast := by
      have front : used <+: login.lines :=
        List.prefix_of_prefix_length_le ⟨_, start.symm⟩ (List.prefix_append _ _) (by omega)
      rw [List.prefix_iff_eq_take.mp front, List.dropLast_eq_take]
      exact (List.take_prefix_take_left (by omega))
    have full : g.complete := by
      have short := login.short
      rcases ends with all | full
      · omega
      · exact full
    have three : 3 ≤ (used.filterMap item).length := by
      rw [Gathered.count_complete full] at count
      simpa [Gathered.count] using count
    -- The three items are there without the last line, which is another one of them.
    obtain ⟨last, found⟩ : ∃ last, login.lines.getLast? = some last := by
      cases empty : login.lines with
      | nil =>
        rw [empty] at stopped
        simp at stopped
      | cons first rest => exact ⟨_, List.getLast?_eq_some_getLast (by simp)⟩
    obtain ⟨kind, own⟩ := Option.isSome_iff_exists.mp (login.completes last found)
    obtain ⟨before, split⟩ := List.getLast?_eq_some_iff.mp found
    have three' := (early.filterMap item).length_le
    have all := login.items.length_eq
    rw [split, List.dropLast_concat] at three'
    rw [split, List.filterMap_append, List.length_append] at all
    simp [own] at all
    omega
  have lengths := congrArg List.length start
  simp only [List.length_append] at lengths
  omega

/-- The relay is reached through both loops. -/
theorem relaying_inv {auth : AuthInfo} (reached : handleNewDownstream users reads = .relaying auth framed) :
    ∃ g first g', gather 10 {} { reads } = some (g, first) ∧
      gather 10 {} first.reframe = some (g', framed) := by
  unfold handleNewDownstream at reached
  split at reached
  · cases reached
  · rename_i g first done
    split at reached
    · cases reached
    · split at reached
      · cases reached
      · split at reached
        · unfold handleDownstream at reached
          split at reached
          · cases reached
          · rename_i again
            cases reached
            obtain ⟨⟨g', second⟩, done', rest⟩ := Option.bind_eq_some_iff.mp again
            obtain ⟨pass, -, rest⟩ := Option.bind_eq_some_iff.mp rest
            obtain ⟨info, -, rest⟩ := Option.bind_eq_some_iff.mp rest
            cases rest
            exact ⟨g, first, g', done, done'⟩
        · cases reached

/-- **No login is lossless.** Whatever lines follow a registration and however the
stream is cut, the relay is not reached, or three lines at least that followed the
registration do not reach it. -/
theorem login_loses (login : Login users) (unbroken : ∀ line ∈ further, lf ∉ line)
    (cut : reads.flatten = wire (login.lines ++ further)) : ¬ Lossless users further reads := by
  rintro ⟨auth, framed, reached, all⟩
  obtain ⟨g, first, g', done, again⟩ := relaying_inv reached
  have followed := login.gathers unbroken cut done
  have socket := reframe_ahead first
  have three := gather_three again
  have last := handed_length framed
  rw [all, results_length] at last
  omega

end Registration

/-- One user with one network. -/
def oneUser : List BncUser := [⟨ascii "al", ascii "pw", [⟨ascii "net", ascii "al"⟩]⟩]

/-- `PASS`, `NICK` and `USER`, and nothing else. -/
def plainLogin : Login oneUser where
  user := ⟨ascii "al", ascii "pw", [⟨ascii "net", ascii "al"⟩]⟩
  configured := by decide
  network := ⟨ascii "net", ascii "al"⟩
  listed := by decide
  lines := [ascii "PASS al/net:pw\r", ascii "NICK al\r", ascii "USER al 0 * :Al\r"]
  unbroken := by decide
  parsed := by decide +kernel
  items := by decide +kernel
  short := by decide
  completes := by decide +kernel

theorem login_loses_one : ¬ Lossless oneUser [ascii "PRIVMSG #c :hi\r"]
    [wire (plainLogin.lines ++ [ascii "PRIVMSG #c :hi\r"])] :=
  login_loses plainLogin (by decide) (by decide)

/-- A client that registers once is told that its authentication failed, also when its
lines come one by one. -/
theorem login_loses_fails :
    handleNewDownstream oneUser [wire (plainLogin.lines ++ [ascii "PRIVMSG #c :hi\r"])] =
        .closed (some (ascii "Authentication failed")) ∧
      handleNewDownstream oneUser ((plainLogin.lines ++ [ascii "PRIVMSG #c :hi\r"]).map (· ++ [lf])) =
        .closed (some (ascii "Authentication failed")) ∧
      ∃ further reads, (∀ line ∈ further, lf ∉ line) ∧ reads.flatten = wire (plainLogin.lines ++ further) ∧
        ¬ Lossless oneUser further reads := by
  have whole : handleNewDownstream oneUser [wire (plainLogin.lines ++ [ascii "PRIVMSG #c :hi\r"])] =
      .closed (some (ascii "Authentication failed")) := by decide +kernel
  refine ⟨whole, by decide +kernel, [ascii "PRIVMSG #c :hi\r"], _, by decide +kernel, List.flatten_singleton, ?_⟩
  rintro ⟨auth, framed, reached, -⟩
  rw [whole] at reached
  cases reached

end RndRust.Irc.Bnc

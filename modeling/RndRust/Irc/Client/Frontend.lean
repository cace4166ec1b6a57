import RndRust.Irc.Client.Windows
import RndRust.Irc.Proto.ToMessage

/-! What the user does with the frontend, `IrcApp::update` of `app.rs`, and the commands it sends for that;
`ClientCommand` of `command.rs`, with its wire form. -/
namespace RndRust.Irc.Client
open Lib Proto

/-- A command, with the number of the network it is for. -/
inductive ClientCommand where
  | connect (network : ℕ) (host : Bytes) (port : ℕ) (tls : Bool) (nick user realname : Bytes)
  | disconnect (network : ℕ)
  | sendRaw (network : ℕ) (line : Bytes)
  | sendPrivmsg (network : ℕ) (target text : Bytes)
  | sendNotice (network : ℕ) (target text : Bytes)
  | join (network : ℕ) (channel : Bytes)
  | part (network : ℕ) (channel : Bytes) (reason : Option Bytes)
  | changeNick (network : ℕ) (nick : Bytes)
  | setTopic (network : ℕ) (channel topic : Bytes)
  | quit (network : ℕ) (reason : Option Bytes)
  | list (network : ℕ)
  | dccAcceptChat (network : ℕ) (nick : Bytes) (ip : UInt32) (port : UInt16)
  | dccAcceptSend (network : ℕ) (nick : Bytes) (ip : UInt32) (port : UInt16) (filename : Bytes) (size : UInt64) (savePath : Bytes)
  deriving DecidableEq

/-- `command_network_id`. -/
def ClientCommand.network : ClientCommand → ℕ
  | connect network _ _ _ _ _ _ | disconnect network | sendRaw network _ | sendPrivmsg network _ _ | sendNotice network _ _
  | join network _ | part network _ _ | changeNick network _ | setTopic network _ _ | quit network _ | list network
  | dccAcceptChat network _ _ _ | dccAcceptSend network _ _ _ _ _ _ => network

/-- `translate_command`. -/
def ClientCommand.translateCommand : ClientCommand → Option Message
  | .sendRaw _ line => (Message.parse line).toOption
  | .sendPrivmsg _ target text => some (Command.privmsg [target] text).toMessage
  | .sendNotice _ target text => some (Command.notice [target] text).toMessage
  | .join _ channel => some (Command.join [channel] []).toMessage
  | .part _ channel reason => some (Command.part [channel] reason).toMessage
  | .changeNick _ nick => some (Command.nick nick).toMessage
  | .setTopic _ channel topic => some (Command.topic channel (some topic)).toMessage
  | .quit _ reason => some (Command.quit reason).toMessage
  | .list _ => some (Command.unknown (ascii "LIST") {}).toMessage
  | .connect .. | .disconnect _ | .dccAcceptChat .. | .dccAcceptSend .. => none

/-- The bytes of a string literal. -/
def utf8 (text : String) : Bytes := text.toList.flatMap String.utf8EncodeChar

def Utf8.empty : Utf8 := ⟨[], by decide +kernel⟩

/-- The fields of the connect dialog. -/
structure ConnectFields extends ConnectForm where
  user : Bytes
  realname : Bytes
  tls : Bool

/-- `ConnectForm::default_local`. -/
def ConnectFields.defaultLocal : ConnectFields where
  host := ascii "127.0.0.1"
  port := ascii "6667"
  nick := ⟨ascii "user", by decide +kernel⟩
  user := ascii "user"
  realname := ascii "IRC User"
  tls := false

inductive ConnectField where
  | host (v : Bytes)
  | port (v : Bytes)
  | nick (v : Utf8)
  | user (v : Bytes)
  | realname (v : Bytes)
  | tls (v : Bool)

def ConnectFields.set (form : ConnectFields) : ConnectField → ConnectFields
  | .host v => { form with host := v }
  | .port v => { form with port := v }
  | .nick v => { form with nick := v }
  | .user v => { form with user := v }
  | .realname v => { form with realname := v }
  | .tls v => { form with tls := v }

inductive ViewState where
  | connectDialog
  | irc

inductive ThemeChoice where
  | light
  | dark

def ThemeChoice.toggle : ThemeChoice → ThemeChoice
  | light => dark
  | dark => light

def ThemeChoice.label : ThemeChoice → Bytes
  | light => ascii "Light"
  | dark => ascii "Dark"

/-- The application, with the number of the next network. -/
structure Frontend extends IrcApp where
  inputValue : Utf8 := .empty
  viewState : ViewState := .connectDialog
  connectForm : ConnectFields := .defaultLocal
  channelListFilter : Bytes := []
  showChannelList : Bool := false
  themeChoice : ThemeChoice := .dark
  nextNetwork : ℕ := 1

inductive Msg where
  | ircEvent (event : ClientEvent)
  | inputChanged (value : Utf8)
  | inputSubmit
  | windowSelected (id : ℕ)
  | connectFormChanged (field : ConnectField)
  | connectSubmit
  | connectCancel
  | showConnectDialog
  | listFilterChanged (v : Bytes)
  | listJoinChannel (chan : Bytes)
  | listClose
  | noop
  | toggleTheme

/-- A text that begins with a slash: the command's name in lower case, and the characters behind the first space. -/
structure CommandLine where
  cmd : Bytes
  args : List Bytes
  chars : ∀ char ∈ args, IsChar char

namespace CommandLine

variable (line : CommandLine)

def ofText (text : Utf8) : Option CommandLine :=
  match is : (lossyChars text.bytes).map Prod.fst with
  | [47] :: rest => some {
      cmd := toAsciiLowercase (rest.takeWhile (· ≠ [sp])).flatten
      args := (rest.dropWhile (· ≠ [sp])).tail
      chars := fun _ member => isChar_of_fromUtf8 text.valid
        (is ▸ List.mem_cons_of_mem _ ((List.dropWhile_suffix _).subset (List.mem_of_mem_tail member))) }
  | _ => none

def words : List Utf8 :=
  (splitWhitespace line.args).attach.map fun word => ⟨word.val, fromUtf8_of_mem_splitWhitespace line.chars word.property⟩

/-- The two parts at the first space of the arguments, if there is one. -/
def targetAndBody : Option (Bytes × Bytes) :=
  if line.args.contains [sp] then
    some ((line.args.takeWhile (· ≠ [sp])).flatten, (line.args.dropWhile (· ≠ [sp])).tail.flatten)
  else none

end CommandLine

def helpLines : List Bytes := [
  "=== Available Commands ===",
  "/connect <host> [port] [nick]  — Connect to a server",
  "/server <host> [port] [nick]   — Alias for /connect",
  "/join <#channel>               — Join a channel",
  "/part [#channel] [reason]      — Leave a channel",
  "/nick <newnick>                — Change your nickname",
  "/msg <nick> <message>          — Send a private message",
  "/topic <text>                  — Set the channel topic",
  "/list                          — Browse channel list",
  "/quit [reason]                 — Disconnect from server",
  "/raw <line>                    — Send a raw IRC command",
  "/theme                         — Toggle light/dark theme",
  "/help                          — Show this help",
  "",
  "=== Guidelines ===",
  "1. Be respectful to others.",
  "2. No spam or flooding — the server enforces rate limits.",
  "3. Register your nick with /msg NickServ REGISTER",
  "   or use: REGISTER <account> <email> <password>",
  "4. Channel ops (@) can set topic, kick, and ban users.",
  "5. Use /list to discover channels.",
  "6. Private messages: /msg <nick> <text>"].map utf8

namespace Frontend

variable (f : Frontend)

/-- The state after a message, and the command that it sends. -/
abbrev Updated := Frontend × Option ClientCommand

def status (network : ℕ) (text : Bytes) : Frontend := { f with toIrcApp := f.pushStatus network text }

def activeNetwork : Option ℕ := f.activeWindow.bind fun id => f.windows[id]?.map Window.network

/-- `do_connect`. -/
def connect : Updated :=
  let form := f.connectForm
  ({ f with
      toIrcApp := f.doConnect f.nextNetwork form.toConnectForm
      viewState := .irc
      nextNetwork := f.nextNetwork + 1 },
    some (.connect f.nextNetwork form.host ((parseUnsigned 65536 form.port).getD 6667) form.tls form.nick.bytes form.user
      form.realname))

/-- `/connect` with a host, and perhaps a port and a nick. -/
def connectTo (host : Utf8) (more : List Utf8) : Updated :=
  let form := { f.connectForm with host := host.bytes }
  let form := match more[0]? with
    | some port => { form with port := port.bytes }
    | none => form
  let form := match more[1]? with
    | some nick => { form with nick, user := nick.bytes }
    | none => form
  { f with connectForm := form }.connect

/-- A command for the network of the active window. -/
def submitCommand (win : Window) (line : CommandLine) : Updated :=
  let network := win.network
  let args := line.args.flatten
  if line.cmd = ascii "join" ∨ line.cmd = ascii "j" then
    (f, some (.join network (if line.args.head? = some [35] then args else 35 :: args)))
  else if line.cmd = ascii "part" ∨ line.cmd = ascii "leave" then
    (f, some (.part network (if args = [] then win.target else args) none))
  else if line.cmd = ascii "nick" then (f, if args = [] then none else some (.changeNick network args))
  else if line.cmd = ascii "msg" ∨ line.cmd = ascii "privmsg" ∨ line.cmd = ascii "query" then
    match line.targetAndBody with
    | some (target, body) =>
      ({ f with toIrcApp := (f.ensureWindow network target).1 }, some (.sendPrivmsg network target body))
    | none => (f, none)
  else if line.cmd = ascii "topic" then (f, some (.setTopic network win.target args))
  else if line.cmd = ascii "list" then
    ({ f with channelListEntries := [], channelListFilter := [], channelListLoading := true, showChannelList := true },
      some (.list network))
  else if line.cmd = ascii "raw" ∨ line.cmd = ascii "quote" then (f, if args = [] then none else some (.sendRaw network args))
  else if line.cmd = ascii "help" ∨ line.cmd = ascii "commands" then (helpLines.foldl (·.status network ·) f, none)
  else if line.cmd = ascii "theme" then
    let f := { f with themeChoice := f.themeChoice.toggle }
    (f.status network (ascii "Theme switched to " ++ f.themeChoice.label), none)
  else (f.status network (ascii "Unknown command: /" ++ line.cmd), none)

/-- A text for the target of the active window. -/
def submitText (id : ℕ) (win : Window) (text : Utf8) : Updated :=
  if win.isStatus then
    (f.status win.network (ascii "Cannot send text to the status window. Use /join #channel first."), none)
  else
    ({ f with toIrcApp := f.updateWindow id (·.push ⟨f.own win.network, text.bytes, false⟩) },
      some (.sendPrivmsg win.network win.target text.bytes))

def submitInput : Updated :=
  let text := f.inputValue
  let f := { f with inputValue := .empty }
  let win := f.activeWindow.bind fun id => f.windows[id]?.map fun win => (id, win)
  if text.bytes = [] then (f, none)
  else
    match CommandLine.ofText text with
    | some line =>
      -- These do without an active window.
      if line.cmd = ascii "connect" ∨ line.cmd = ascii "server" then
        match line.words with
        | [] => ({ f with viewState := .connectDialog }, none)
        | host :: more => f.connectTo host more
      else if line.cmd = ascii "quit" then
        let args := line.args.flatten
        (f, f.activeNetwork.map fun network => .quit network (if args = [] then none else some args))
      else
        match win with
        | some (_, win) => f.submitCommand win line
        | none => (f, none)
    | none =>
      match win with
      | some (id, win) => f.submitText id win text
      | none => (f, none)

def update : Msg → Updated
  | .ircEvent event => ({ f with toIrcApp := f.handleEvent event }, none)
  | .inputChanged value => ({ f with inputValue := value }, none)
  | .inputSubmit => f.submitInput
  | .windowSelected id => (if id < f.windows.length then { f with activeWindow := some id } else f, none)
  | .connectFormChanged field => ({ f with connectForm := f.connectForm.set field }, none)
  | .connectSubmit => f.connect
  | .connectCancel => (if f.networks.keys = [] then f else { f with viewState := .irc }, none)
  | .showConnectDialog => ({ f with connectForm := .defaultLocal, viewState := .connectDialog }, none)
  | .listFilterChanged v => ({ f with channelListFilter := v }, none)
  | .listJoinChannel chan => ({ f with showChannelList := false }, f.activeNetwork.map (.join · chan))
  | .listClose => ({ f with showChannelList := false }, none)
  | .noop => (f, none)
  | .toggleTheme => ({ f with themeChoice := f.themeChoice.toggle }, none)

end Frontend

/-- Neither opens nor closes a connection. -/
def ClientCommand.plain : ClientCommand → Bool
  | connect .. | disconnect _ => false
  | _ => true

namespace Frontend

/-- There is a window of the network. -/
def Knows (f : Frontend) (network : ℕ) : Prop := ∃ place ∈ f.places, place.1 = network

/-- What the user does: it sends nothing, or a command for the network of a window, or it connects to a new one. -/
inductive Submits (f g : Frontend) : Option ClientCommand → Prop
  | nothing (next : g.nextNetwork = f.nextNetwork) (windows : ∀ network, g.Knows network → f.Knows network) :
      Submits f g none
  | command {command : ClientCommand} (next : g.nextNetwork = f.nextNetwork)
      (windows : ∀ network, g.Knows network → f.Knows network) (plain : command.plain) (known : f.Knows command.network) :
      Submits f g (some command)
  | connect {host nick user realname : Bytes} {port : ℕ} {tls : Bool} (next : g.nextNetwork = f.nextNetwork + 1)
      (windows : ∀ network, g.Knows network → f.Knows network ∨ network = f.nextNetwork) :
      Submits f g (some (.connect f.nextNetwork host port tls nick user realname))

section Messages

variable {f : Frontend} {msg : Msg} {win : Window} {line : CommandLine} {id network : ℕ} {text : Utf8}

theorem places_status {message : Bytes} : (f.status network message).places = f.places := IrcApp.places_pushStatus

theorem places_foldl_status {messages : List Bytes} : (messages.foldl (·.status network ·) f).places = f.places ∧
    (messages.foldl (·.status network ·) f).nextNetwork = f.nextNetwork := by
  induction messages generalizing f with
  | nil => exact ⟨rfl, rfl⟩
  | cons message messages ih => exact ⟨ih.1.trans places_status, ih.2⟩

theorem known_of_active (active : f.activeNetwork = some network) : f.Knows network := by
  obtain ⟨id, -, found⟩ := Option.bind_eq_some_iff.mp active
  obtain ⟨win, here, rfl⟩ := Option.map_eq_some_iff.mp found
  exact ⟨(win.network, win.target), List.mem_map.mpr ⟨win, List.mem_of_getElem? here, rfl⟩, rfl⟩

theorem knows_of_mem (listed : win ∈ f.windows) : f.Knows win.network := ⟨_, List.mem_map.mpr ⟨win, listed, rfl⟩, rfl⟩

/-- The windows are of the networks that they were of. -/
theorem knows_of_eq {g : Frontend} (same : g.places = f.places) (network : ℕ) (knows : g.Knows network) : f.Knows network := by
  unfold Knows at knows
  rwa [same] at knows

theorem submits_connect : Submits f f.connect.1 f.connect.2 := by
  refine .connect rfl fun network => ?_
  rintro ⟨place, member, rfl⟩
  exact (IrcApp.mem_places_doConnect member).imp_left fun old => ⟨place, old, rfl⟩

theorem submits_connectTo {host : Utf8} {more : List Utf8} :
    Submits f (f.connectTo host more).1 (f.connectTo host more).2 := by
  refine .connect rfl fun network => ?_
  rintro ⟨place, member, rfl⟩
  exact (IrcApp.mem_places_doConnect member).imp_left fun old => ⟨place, old, rfl⟩

/-- A command that is left out where its argument is empty. -/
theorem submits_argument {command : ClientCommand} {args : Bytes} (plain : command.plain) (known : f.Knows command.network) :
    Submits f f (if args = [] then none else some command) := by
  split
  · exact .nothing rfl (knows_of_eq rfl)
  · exact .command rfl (knows_of_eq rfl) plain known

theorem submits_submitCommand (listed : win ∈ f.windows) :
    Submits f (f.submitCommand win line).1 (f.submitCommand win line).2 := by
  have known := knows_of_mem listed
  unfold submitCommand
  dsimp only
  split
  · exact .command rfl (knows_of_eq rfl) rfl known
  split
  · exact .command rfl (knows_of_eq rfl) rfl known
  split
  · exact submits_argument rfl known
  split
  · split
    · refine .command rfl (fun network => ?_) rfl known
      rintro ⟨place, member, rfl⟩
      rcases IrcApp.opens_ensureWindow.mem member with old | here
      · exact ⟨place, old, rfl⟩
      · rwa [here]
    · exact .nothing rfl (knows_of_eq rfl)
  split
  · exact .command rfl (knows_of_eq rfl) rfl known
  split
  · exact .command rfl (knows_of_eq rfl) rfl known
  split
  · exact submits_argument rfl known
  split
  · exact .nothing places_foldl_status.2 (knows_of_eq places_foldl_status.1)
  split
  · exact .nothing rfl (knows_of_eq places_status)
  · exact .nothing rfl (knows_of_eq places_status)

theorem submits_submitText (listed : win ∈ f.windows) :
    Submits f (f.submitText id win text).1 (f.submitText id win text).2 := by
  unfold submitText
  split
  · exact .nothing rfl (knows_of_eq places_status)
  · exact .command rfl (knows_of_eq (IrcApp.places_updateWindow (Window.keeps_rfl.push _))) rfl (knows_of_mem listed)

theorem submits_quit {reason : Option Bytes} : Submits f f (f.activeNetwork.map (.quit · reason)) := by
  cases active : f.activeNetwork with
  | none => exact .nothing rfl (knows_of_eq rfl)
  | some network => exact .command rfl (knows_of_eq rfl) rfl (known_of_active active)

/-- The text that was taken out of the input line does not matter. -/
theorem Submits.of_input {g : Frontend} {sent : Option ClientCommand} (submits : Submits { f with inputValue := .empty } g sent) :
    Submits f g sent := by
  cases submits with
  | nothing next windows => exact .nothing next windows
  | command next windows plain known => exact .command next windows plain known
  | connect next windows => exact .connect next windows

theorem mem_windows_of_active {id : ℕ}
    (active : (f.activeWindow.bind fun id => f.windows[id]?.map fun win => (id, win)) = some (id, win)) : win ∈ f.windows := by
  obtain ⟨_, -, found⟩ := Option.bind_eq_some_iff.mp active
  obtain ⟨_, here, is⟩ := Option.map_eq_some_iff.mp found
  cases is
  exact List.mem_of_getElem? here

theorem submits_submitInput : Submits f f.submitInput.1 f.submitInput.2 := by
  apply Submits.of_input
  unfold submitInput
  dsimp only
  split
  · exact .nothing rfl (knows_of_eq rfl)
  · split
    · split
      · split
        · exact .nothing rfl (knows_of_eq rfl)
        · exact submits_connectTo
      · split
        · exact submits_quit
        · split
          · rename_i active
            exact submits_submitCommand (mem_windows_of_active active)
          · exact .nothing rfl (knows_of_eq rfl)
    · split
      · rename_i active
        exact submits_submitText (mem_windows_of_active active)
      · exact .nothing rfl (knows_of_eq rfl)

theorem submits_update (own : ∀ event, msg ≠ .ircEvent event) : Submits f (f.update msg).1 (f.update msg).2 := by
  cases msg with
  | ircEvent event => exact absurd rfl (own event)
  | inputSubmit => exact submits_submitInput
  | connectSubmit => exact submits_connect
  | listJoinChannel chan =>
    unfold update
    cases active : f.activeNetwork with
    | none => exact .nothing rfl (knows_of_eq rfl)
    | some network => exact .command rfl (knows_of_eq rfl) rfl (known_of_active active)
  | windowSelected id =>
    unfold update
    dsimp only
    split <;> exact .nothing rfl (knows_of_eq rfl)
  | connectCancel =>
    unfold update
    dsimp only
    split <;> exact .nothing rfl (knows_of_eq rfl)
  | inputChanged | connectFormChanged | showConnectDialog | listFilterChanged | listClose | noop | toggleTheme =>
    exact .nothing rfl (knows_of_eq rfl)

/-- An event sends nothing, and opens windows of its own network only. -/
theorem knows_of_event {event : ClientEvent} (knows : (f.update (.ircEvent event)).1.Knows network) :
    f.Knows network ∨ network = event.network := by
  obtain ⟨place, member, rfl⟩ := knows
  exact (IrcApp.opens_handleEvent.mem member).imp_left fun old => ⟨place, old, rfl⟩

end Messages

end Frontend

end RndRust.Irc.Client

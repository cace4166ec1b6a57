import Mathlib.Data.List.Sort
import RndRust.Irc.Client.State
import RndRust.Lib.Table

/-! The windows of the frontend, `app.rs`, and what an event does to them. A string is the bytes
of its UTF-8 form. Windows are never closed, so a window is known by its place in their list;
when a message arrived is left out. -/
namespace RndRust.Irc.Client
open Lib Proto

structure DisplayMessage where
  from_ : Bytes
  text : Bytes
  isAction : Bool := false
  deriving DecidableEq

structure Window where
  network : ℕ
  /-- `Status` for the status window, the name of a channel or a nick otherwise. -/
  target : Bytes
  messages : List DisplayMessage := []
  topic : Option Bytes := none
  nicks : List Bytes := []
  isStatus : Bool := false
  deriving DecidableEq

structure NetworkInfo where
  name : Bytes
  nick : Bytes
  connected : Bool := false
  statusWindow : ℕ
  windows : List (ℕ × Bytes) := []
  deriving DecidableEq

structure ListEntry where
  channel : Bytes
  userCount : ℕ
  topic : Bytes
  deriving DecidableEq

structure IrcApp where
  activeWindow : Option ℕ := none
  windows : List Window := []
  networks : Table ℕ NetworkInfo := ∅
  ownNick : Table ℕ Bytes := ∅
  channelListEntries : List ListEntry := []
  channelListLoading : Bool := false

/-- A string of Rust: its bytes are well-formed. -/
structure Utf8 where
  bytes : Bytes
  valid : fromUtf8 bytes = some bytes

structure ConnectForm where
  host : Bytes
  port : Bytes
  nick : Utf8

def sorted (nicks : List Bytes) : List Bytes := nicks.insertionSort (· ≤ ·)

namespace Window

def push (win : Window) (message : DisplayMessage) : Window := { win with messages := win.messages ++ [message] }

def isAt (network : ℕ) (target : Bytes) (win : Window) : Bool := win.network = network && win.target = target

end Window

def addNick (nicks : List Bytes) (nick : Bytes) : List Bytes := if nicks.contains nick then nicks else sorted (nicks ++ [nick])

def removeNick (nicks : List Bytes) (nick : Bytes) : List Bytes := nicks.filter (· ≠ nick)

/-- Only the first place the nick is at gets the new one. -/
def renameNick (nicks : List Bytes) (old new : Bytes) : List Bytes :=
  match nicks.findIdx? (· = old) with
  | some pos => sorted (nicks.set pos new)
  | none => nicks

/-- A reason, in brackets after a text. -/
def inBrackets : Option Bytes → Bytes
  | some reason => ascii " (" ++ fromUtf8Lossy reason ++ ascii ")"
  | none => []

namespace IrcApp

def own (app : IrcApp) (network : ℕ) : Bytes := (app.ownNick.lookup network).getD []

def updateInfo (app : IrcApp) (network : ℕ) (f : NetworkInfo → NetworkInfo) : IrcApp :=
  match app.networks.lookup network with
  | some info => { app with networks := app.networks.insert network (f info) }
  | none => app

def updateWindow (app : IrcApp) (id : ℕ) (f : Window → Window) : IrcApp :=
  { app with windows := app.windows.modify id f }

def updateWindows (app : IrcApp) (network : ℕ) (f : Window → Window) : IrcApp :=
  { app with windows := app.windows.map fun win => if win.network = network then f win else win }

def doConnect (app : IrcApp) (id : ℕ) (form : ConnectForm) : IrcApp :=
  let status := app.windows.length
  let port := decimal ((parseUnsigned 65536 form.port).getD 6667)
  let name := form.host ++ ascii ":" ++ port
  { app with
    windows := app.windows ++ [{
      network := id
      target := ascii "Status"
      messages := [⟨ascii "*", ascii "Connecting to " ++ name ++ ascii "...", false⟩]
      isStatus := true }]
    networks := app.networks.insert id { name, nick := form.nick.bytes, statusWindow := status }
    ownNick := app.ownNick.insert id form.nick.bytes
    activeWindow := some status }

def pushStatus (app : IrcApp) (network : ℕ) (text : Bytes) : IrcApp :=
  match app.networks.lookup network with
  | some info => app.updateWindow info.statusWindow (·.push ⟨ascii "*", text, false⟩)
  | none => app

/-- The window of a target, which is opened if there is none. -/
def ensureWindow (app : IrcApp) (network : ℕ) (target : Bytes) : IrcApp × ℕ :=
  match app.windows.findIdx? (Window.isAt network target) with
  | some id => (app, id)
  | none =>
    let id := app.windows.length
    let win : Window := { network, target }
    let app := { app with windows := app.windows ++ [win] }
    let app := app.updateInfo network fun info => { info with windows := info.windows ++ [(id, target)] }
    ({ app with activeWindow := some (app.activeWindow.getD id) }, id)

/-- Change the window of a target. -/
def withWindow (app : IrcApp) (network : ℕ) (target : Bytes) (f : Window → Window) : IrcApp :=
  let (app, id) := app.ensureWindow network target
  app.updateWindow id f

def showWelcomeGuidelines (app : IrcApp) (network : ℕ) (channel : Bytes) : IrcApp :=
  app.withWindow network channel fun win =>
    ((win.push ⟨ascii "*", ascii "Welcome to " ++ fromUtf8Lossy channel ++ ascii "!", false⟩).push
      ⟨ascii "*", ascii "Type /help for a list of commands.", false⟩).push
      ⟨ascii "*", ascii "Be respectful. No spam. Have fun.", false⟩

def handleJoin (app : IrcApp) (network : ℕ) (channel nick : Bytes) : IrcApp :=
  let joined := app.withWindow network channel fun win =>
    { win with nicks := addNick win.nicks nick }.push ⟨ascii "-->", nick ++ ascii " has joined", true⟩
  if nick = app.own network then joined.showWelcomeGuidelines network channel else joined

def handlePart (app : IrcApp) (network : ℕ) (channel nick : Bytes) (reason : Option Bytes) : IrcApp :=
  app.withWindow network channel fun win =>
    { win with nicks := removeNick win.nicks nick }.push ⟨ascii "<--", nick ++ ascii " has left" ++ inBrackets reason, true⟩

def handleNickChange (app : IrcApp) (network : ℕ) (old new : Bytes) : IrcApp :=
  let named :=
    if old = app.own network then
      { app with ownNick := app.ownNick.insert network new }.updateInfo network fun info => { info with nick := new }
    else app
  (named.updateWindows network fun win => { win with nicks := renameNick win.nicks old new }).pushStatus network
    (old ++ ascii " is now known as " ++ new)

def handleQuit (app : IrcApp) (network : ℕ) (nick : Bytes) (reason : Option Bytes) : IrcApp :=
  (app.updateWindows network fun win => { win with nicks := removeNick win.nicks nick }).pushStatus network
    (nick ++ ascii " has quit" ++ inBrackets reason)

def handleRegistered (app : IrcApp) (network : ℕ) (nick : Bytes) : IrcApp :=
  let app := app.updateInfo network fun info => { info with nick, name := nick }
  { app with ownNick := app.ownNick.insert network nick }.pushStatus network (ascii "Registered as " ++ nick)

/-- A message for the user's own nick is shown in the window of the sender. -/
def handleMessage (app : IrcApp) (network : ℕ) (target from_ text : Bytes) : IrcApp :=
  app.withWindow network (if target = app.own network then from_ else target)
    (·.push ⟨fromUtf8Lossy from_, fromUtf8Lossy text, false⟩)

def handleNotice (app : IrcApp) (network : ℕ) (target from_ text : Bytes) : IrcApp :=
  if target = ascii "*" ∨ from_ = [] then
    app.pushStatus network (ascii "-" ++ fromUtf8Lossy from_ ++ ascii "- " ++ fromUtf8Lossy text)
  else app.withWindow network target (·.push ⟨fromUtf8Lossy from_, ascii "-NOTICE- " ++ fromUtf8Lossy text, false⟩)

def handleEvent (app : IrcApp) : ClientEvent → IrcApp
  | .connected network =>
    (app.updateInfo network fun info => { info with connected := true }).pushStatus network (ascii "Connected.")
  | .disconnected network reason =>
    (app.updateInfo network fun info => { info with connected := false }).pushStatus network
      (ascii "Disconnected: " ++ reason)
  | .registered network nick => app.handleRegistered network (fromUtf8Lossy nick)
  | .message network target from_ text => app.handleMessage network target from_ text
  | .notice network target from_ text => app.handleNotice network target from_ text
  | .join network channel nick => app.handleJoin network channel (fromUtf8Lossy nick)
  | .part network channel nick reason => app.handlePart network channel (fromUtf8Lossy nick) reason
  | .topicChange network channel topic =>
    app.withWindow network channel fun win => { win with topic := some (fromUtf8Lossy topic) }
  | .numeric network code params =>
    app.pushStatus network
      (ascii "[" ++ padded 3 code ++ ascii "] " ++ join (ascii " ") ((params.drop 1).map fromUtf8Lossy))
  | .listEntry _ channel userCount topic =>
    { app with channelListEntries := app.channelListEntries ++ [⟨channel, userCount, fromUtf8Lossy topic⟩] }
  | .listEnd _ => { app with channelListLoading := false }
  | .nickChange network old new => app.handleNickChange network (fromUtf8Lossy old) (fromUtf8Lossy new)
  | .quit network nick reason => app.handleQuit network (fromUtf8Lossy nick) reason
  | .error network message => app.pushStatus network (ascii "ERROR: " ++ message)

end IrcApp

end RndRust.Irc.Client

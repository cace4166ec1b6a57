import RndRust.Irc.Client.Gui
import RndRust.Lib.Updates

/-! What an event of a network does to the nick lists of its windows and to the user's own nick. -/
namespace RndRust.Irc.Client
open Lib Proto

/-- A change of a window that leaves it where it is. -/
structure Window.Keeps (f : Window → Window) (g : List Bytes → List Bytes) : Prop where
  network : ∀ win, (f win).network = win.network
  target : ∀ win, (f win).target = win.target
  nicks : ∀ win, (f win).nicks = g win.nicks

namespace Window

variable {f : Window → Window} {g : List Bytes → List Bytes}

/-- A message does not change who is there. -/
theorem Keeps.push (keeps : Keeps f g) (message : DisplayMessage) : Keeps (fun win => (f win).push message) g :=
  ⟨keeps.network, keeps.target, keeps.nicks⟩

theorem keeps_rfl : Keeps (fun win => win) fun nicks => nicks := ⟨fun _ => rfl, fun _ => rfl, fun _ => rfl⟩

theorem keeps_nicks (g : List Bytes → List Bytes) : Keeps (fun win => { win with nicks := g win.nicks }) g :=
  ⟨fun _ => rfl, fun _ => rfl, fun _ => rfl⟩

theorem keeps_topic {topic : Option Bytes} : Keeps (fun win => { win with topic }) fun nicks => nicks :=
  ⟨fun _ => rfl, fun _ => rfl, fun _ => rfl⟩

end Window

namespace IrcApp

/-- The nick list of the window of a target. -/
def nicksOf (app : IrcApp) (network : ℕ) (target : Bytes) : Option (List Bytes) :=
  (app.windows.find? (Window.isAt network target)).map Window.nicks

/-- Which window is for which target of which network. -/
def places (app : IrcApp) : List (ℕ × Bytes) := app.windows.map fun win => (win.network, win.target)

/-- What opens windows of a network: each is the first of its target. -/
inductive Opens (network : ℕ) (places : List (ℕ × Bytes)) : List (ℕ × Bytes) → Prop
  | same : Opens network places places
  | another {now : List (ℕ × Bytes)} {target : Bytes} (before : Opens network places now)
      (fresh : (network, target) ∉ now) : Opens network places (now ++ [(network, target)])

/-- A target has one window at most, so that it does not matter in which order they are searched. -/
def Distinct (app : IrcApp) : Prop := app.places.Nodup

section Windows

variable {app : IrcApp} {network id : ℕ} {target channel nick old new text : Bytes} {f : Window → Window}
  {g : List Bytes → List Bytes} {reason : Option Bytes} {info : NetworkInfo → NetworkInfo}

theorem isAt_keeps (keeps : Window.Keeps f g) (win : Window) :
    Window.isAt network target (f win) = Window.isAt network target win := by
  unfold Window.isAt
  rw [keeps.network, keeps.target]

@[simp] theorem windows_updateInfo : (app.updateInfo network info).windows = app.windows := by
  unfold updateInfo
  split <;> rfl

@[simp] theorem ownNick_updateInfo : (app.updateInfo network info).ownNick = app.ownNick := by
  unfold updateInfo
  split <;> rfl

theorem nicksOf_updateWindow (keeps : Window.Keeps f g)
    (here : app.windows.findIdx? (Window.isAt network target) = some id) :
    (app.updateWindow id f).nicksOf network channel =
      if channel = target then (app.nicksOf network target).map g else app.nicksOf network channel := by
  unfold nicksOf updateWindow
  rw [find?_modify (isAt_keeps keeps)]
  by_cases same : channel = target
  · subst same
    rw [if_pos here, if_pos rfl, Option.map_map, Option.map_map]
    congr 1
    funext win
    exact keeps.nicks win
  · rw [if_neg same, if_neg]
    -- The window that is changed is of the other target.
    intro other
    obtain ⟨inside, is, -⟩ := List.findIdx?_eq_some_iff_getElem.mp here
    obtain ⟨_, is', -⟩ := List.findIdx?_eq_some_iff_getElem.mp other
    simp only [Window.isAt, Bool.and_eq_true, decide_eq_true_eq] at is is'
    exact same (is'.2.symm.trans is.2)

theorem nicksOf_updateWindow_same (keeps : Window.Keeps f fun nicks => nicks) :
    (app.updateWindow id f).nicksOf network channel = app.nicksOf network channel := by
  unfold nicksOf updateWindow
  rw [find?_modify (isAt_keeps keeps)]
  split
  · rw [Option.map_map]
    congr 1
    funext win
    exact keeps.nicks win
  · rfl

theorem nicksOf_updateWindows (keeps : Window.Keeps f g) :
    (app.updateWindows network f).nicksOf network channel = (app.nicksOf network channel).map g := by
  have same : (Window.isAt network channel ∘ fun win => if win.network = network then f win else win) =
      Window.isAt network channel := by
    funext win
    rw [Function.comp_apply]
    split
    · exact isAt_keeps keeps win
    · rfl
  unfold nicksOf updateWindows
  rw [List.find?_map, same, Option.map_map, Option.map_map]
  refine Option.map_congr fun win found => ?_
  have own : win.network = network := by
    have is := List.find?_some found
    simp only [Window.isAt, Bool.and_eq_true, decide_eq_true_eq] at is
    exact is.1
  rw [Function.comp_apply, Function.comp_apply, if_pos own]
  exact keeps.nicks win

@[simp] theorem nicksOf_pushStatus : (app.pushStatus id text).nicksOf network channel = app.nicksOf network channel := by
  unfold pushStatus
  split
  · exact nicksOf_updateWindow_same (Window.keeps_rfl.push _)
  · rfl

@[simp] theorem ownNick_pushStatus : (app.pushStatus network text).ownNick = app.ownNick := by
  unfold pushStatus
  split <;> rfl

/-- The window that is there afterwards is the one found, or a new one without nicks. -/
theorem nicksOf_ensureWindow : (app.ensureWindow network target).1.nicksOf network channel =
    if channel = target then some ((app.nicksOf network target).getD []) else app.nicksOf network channel := by
  unfold ensureWindow nicksOf
  split
  · rename_i found
    split
    · rename_i same
      subst same
      obtain ⟨inside, is, -⟩ := List.findIdx?_eq_some_iff_getElem.mp found
      have some : (app.windows.find? (Window.isAt network channel)).isSome :=
        List.find?_isSome.mpr ⟨_, List.getElem_mem inside, is⟩
      obtain ⟨win, is⟩ := Option.isSome_iff_exists.mp some
      rw [is]
      rfl
    · rfl
  · rename_i none
    have missing : app.windows.find? (Window.isAt network target) = .none :=
      List.find?_eq_none.mpr fun win member => by simpa using List.findIdx?_eq_none_iff.mp none win member
    dsimp only
    rw [windows_updateInfo, List.find?_append]
    split
    · rename_i same
      subst same
      rw [missing]
      simp [Window.isAt]
    · rename_i other
      have apart : Window.isAt network channel { network, target } = false := by
        simp [Window.isAt, Ne.symm other]
      rw [List.find?_cons, apart]
      simp

theorem ensureWindow_found : (app.ensureWindow network target).1.windows.findIdx? (Window.isAt network target) =
    some (app.ensureWindow network target).2 := by
  unfold ensureWindow
  split
  · assumption
  · rename_i none
    dsimp only
    rw [windows_updateInfo, List.findIdx?_append, none]
    simp [Window.isAt]

@[simp] theorem ownNick_ensureWindow : (app.ensureWindow network target).1.ownNick = app.ownNick := by
  unfold ensureWindow
  split
  · rfl
  · exact ownNick_updateInfo

/-- Who is shown in the window of a target after it is changed. -/
theorem nicksOf_withWindow (keeps : Window.Keeps f g) : (app.withWindow network target f).nicksOf network channel =
    if channel = target then some (g ((app.nicksOf network target).getD [])) else app.nicksOf network channel := by
  unfold withWindow
  rw [nicksOf_updateWindow keeps ensureWindow_found, nicksOf_ensureWindow, nicksOf_ensureWindow, if_pos rfl]
  split <;> rfl

@[simp] theorem ownNick_withWindow : (app.withWindow network target f).ownNick = app.ownNick :=
  ownNick_ensureWindow

theorem nicksOf_handleJoin : (app.handleJoin network target nick).nicksOf network channel =
    if channel = target then some (addNick ((app.nicksOf network target).getD []) nick)
    else app.nicksOf network channel := by
  have keeps := (Window.keeps_nicks (addNick · nick)).push ⟨ascii "-->", nick ++ ascii " has joined", true⟩
  unfold handleJoin
  dsimp only
  split
  · unfold showWelcomeGuidelines
    rw [nicksOf_withWindow (((Window.keeps_rfl.push _).push _).push _), nicksOf_withWindow keeps, nicksOf_withWindow keeps,
      if_pos rfl]
    split <;> rfl
  · exact nicksOf_withWindow keeps

@[simp] theorem ownNick_handleJoin : (app.handleJoin network target nick).ownNick = app.ownNick := by
  unfold handleJoin
  dsimp only
  split
  · unfold showWelcomeGuidelines
    rw [ownNick_withWindow, ownNick_withWindow]
  · exact ownNick_withWindow

theorem nicksOf_handlePart : (app.handlePart network target nick reason).nicksOf network channel =
    if channel = target then some (removeNick ((app.nicksOf network target).getD []) nick)
    else app.nicksOf network channel := by
  unfold handlePart
  exact nicksOf_withWindow ((Window.keeps_nicks (removeNick · nick)).push _)

theorem nicksOf_handleNickChange : (app.handleNickChange network old new).nicksOf network channel =
    (app.nicksOf network channel).map (renameNick · old new) := by
  unfold handleNickChange
  rw [nicksOf_pushStatus, nicksOf_updateWindows (Window.keeps_nicks (renameNick · old new))]
  split
  · unfold nicksOf
    rw [windows_updateInfo]
  · rfl

theorem ownNick_handleNickChange : (app.handleNickChange network old new).ownNick =
    if old = app.own network then app.ownNick.insert network new else app.ownNick := by
  unfold handleNickChange
  rw [ownNick_pushStatus]
  split
  · exact ownNick_updateInfo
  · rfl

theorem nicksOf_handleQuit : (app.handleQuit network nick reason).nicksOf network channel =
    (app.nicksOf network channel).map (removeNick · nick) := by
  unfold handleQuit
  rw [nicksOf_pushStatus, nicksOf_updateWindows (Window.keeps_nicks (removeNick · nick))]

@[simp] theorem ownNick_handleQuit : (app.handleQuit network nick reason).ownNick = app.ownNick :=
  ownNick_pushStatus

theorem nicksOf_handleRegistered : (app.handleRegistered network nick).nicksOf network channel =
    app.nicksOf network channel := by
  unfold handleRegistered
  rw [nicksOf_pushStatus]
  unfold nicksOf
  rw [windows_updateInfo]

theorem ownNick_handleRegistered : (app.handleRegistered network nick).ownNick = app.ownNick.insert network nick := by
  unfold handleRegistered
  rw [ownNick_pushStatus, ownNick_updateInfo]

end Windows

section Distinct

variable {app : IrcApp} {network id : ℕ} {target nick old new text : Bytes} {f : Window → Window}
  {g : List Bytes → List Bytes} {reason : Option Bytes} {info : NetworkInfo → NetworkInfo} {form : ConnectForm}

theorem places_updateWindow (keeps : Window.Keeps f g) : (app.updateWindow id f).places = app.places := by
  unfold places updateWindow
  apply List.ext_getElem?
  intro i
  rw [List.getElem?_map, List.getElem?_map, List.getElem?_modify]
  cases app.windows[i]? with
  | none => rfl
  | some win =>
    simp only [Option.map_eq_map, Option.map_some]
    split
    · rw [keeps.network, keeps.target]
    · rfl

theorem places_updateWindows (keeps : Window.Keeps f g) : (app.updateWindows network f).places = app.places := by
  unfold places updateWindows
  rw [List.map_map]
  refine List.map_congr_left fun win _ => ?_
  rw [Function.comp_apply]
  split
  · rw [keeps.network, keeps.target]
  · rfl

@[simp] theorem places_updateInfo : (app.updateInfo network info).places = app.places := by
  unfold places
  rw [windows_updateInfo]

@[simp] theorem places_pushStatus : (app.pushStatus network text).places = app.places := by
  unfold pushStatus
  split
  · exact places_updateWindow (Window.keeps_rfl.push _)
  · rfl

section Opens

variable {places now later : List (ℕ × Bytes)} {place : ℕ × Bytes}

theorem Opens.trans (opens : Opens network places now) (more : Opens network now later) : Opens network places later := by
  induction more with
  | same => exact opens
  | another _ fresh ih => exact .another ih fresh

theorem Opens.nodup (opens : Opens network places now) (distinct : places.Nodup) : now.Nodup := by
  induction opens with
  | same => exact distinct
  | another _ fresh ih => exact nodup_append_one fresh ih

theorem Opens.mem (opens : Opens network places now) (member : place ∈ now) : place ∈ places ∨ place.1 = network := by
  induction opens with
  | same => exact .inl member
  | another _ _ ih =>
    rcases List.mem_append.mp member with old | new
    · exact ih old
    · rw [List.mem_singleton.mp new]
      exact .inr rfl

end Opens

theorem opens_ensureWindow : Opens network app.places (app.ensureWindow network target).1.places := by
  unfold ensureWindow
  split
  · exact .same
  · rename_i none
    have fresh : (network, target) ∉ app.places := by
      intro member
      obtain ⟨win, listed, is⟩ := List.mem_map.mp member
      cases is
      simpa [Window.isAt] using List.findIdx?_eq_none_iff.mp none win listed
    unfold places
    dsimp only
    rw [windows_updateInfo, List.map_append]
    exact .another .same fresh

theorem opens_withWindow (keeps : Window.Keeps f g) : Opens network app.places (app.withWindow network target f).places := by
  unfold withWindow
  rw [places_updateWindow keeps]
  exact opens_ensureWindow

theorem distinct_doConnect (fresh : ∀ win ∈ app.windows, win.network ≠ id) (distinct : app.Distinct) :
    (app.doConnect id form).Distinct := by
  unfold Distinct places doConnect
  dsimp only
  rw [List.map_append]
  refine nodup_append_one (fun member => ?_) distinct
  obtain ⟨win, listed, is⟩ := List.mem_map.mp member
  exact fresh win listed (congrArg Prod.fst is)

theorem mem_places_doConnect {place : ℕ × Bytes} (member : place ∈ (app.doConnect id form).places) :
    place ∈ app.places ∨ place.1 = id := by
  unfold places doConnect at member
  dsimp only at member
  rw [List.map_append] at member
  rcases List.mem_append.mp member with old | new
  · exact .inl old
  · rw [List.mem_singleton.mp new]
    exact .inr rfl

/-- An event opens windows of its own network. -/
theorem opens_handleEvent {event : ClientEvent} : Opens event.network app.places (app.handleEvent event).places := by
  cases event with
  | connected network =>
    unfold handleEvent
    rw [places_pushStatus, places_updateInfo]
    exact .same
  | disconnected network reason =>
    unfold handleEvent
    rw [places_pushStatus, places_updateInfo]
    exact .same
  | registered network nick =>
    show Opens network app.places (app.handleRegistered network (fromUtf8Lossy nick)).places
    unfold handleRegistered
    rw [places_pushStatus]
    exact (congrArg (Opens network app.places) places_updateInfo).mpr .same
  | message network target from_ text => exact opens_withWindow (Window.keeps_rfl.push _)
  | notice network target from_ text =>
    show Opens network app.places (app.handleNotice network target from_ text).places
    unfold handleNotice
    split
    · rw [places_pushStatus]
      exact .same
    · exact opens_withWindow (Window.keeps_rfl.push _)
  | join network channel nick =>
    show Opens network app.places (app.handleJoin network channel (fromUtf8Lossy nick)).places
    unfold handleJoin
    dsimp only
    split
    · refine .trans ?_ (opens_withWindow (((Window.keeps_rfl.push _).push _).push _))
      exact opens_withWindow ((Window.keeps_nicks (addNick · (fromUtf8Lossy nick))).push _)
    · exact opens_withWindow ((Window.keeps_nicks (addNick · (fromUtf8Lossy nick))).push _)
  | part network channel nick reason =>
    exact opens_withWindow ((Window.keeps_nicks (removeNick · (fromUtf8Lossy nick))).push _)
  | topicChange network channel topic => exact opens_withWindow Window.keeps_topic
  | numeric network code params =>
    unfold handleEvent
    rw [places_pushStatus]
    exact .same
  | listEntry network channel userCount topic => exact .same
  | listEnd network => exact .same
  | nickChange network old new =>
    show Opens network app.places (app.handleNickChange network (fromUtf8Lossy old) (fromUtf8Lossy new)).places
    unfold handleNickChange
    rw [places_pushStatus, places_updateWindows (Window.keeps_nicks (renameNick · (fromUtf8Lossy old) (fromUtf8Lossy new)))]
    split
    · rw [places_updateInfo]
      exact .same
    · exact .same
  | quit network nick reason =>
    show Opens network app.places (app.handleQuit network (fromUtf8Lossy nick) reason).places
    unfold handleQuit
    rw [places_pushStatus, places_updateWindows (Window.keeps_nicks (removeNick · (fromUtf8Lossy nick)))]
    exact .same
  | error network message =>
    unfold handleEvent
    rw [places_pushStatus]
    exact .same

theorem distinct_handleEvent {event : ClientEvent} (distinct : app.Distinct) : (app.handleEvent event).Distinct :=
  opens_handleEvent.nodup distinct

end Distinct
end IrcApp
end RndRust.Irc.Client

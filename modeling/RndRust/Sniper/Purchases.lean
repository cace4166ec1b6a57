import RndRust.Sniper.Twitter

/-! How often a tweet is bought for. Every call of `inner_buy` looks at the flag of its
tweet before it sets it, and the two are separate steps. -/
namespace RndRust.Sniper
open Lib

/-- The request a call is about to buy, once it has one. -/
def Stage.request? : Stage → Option BuyRequest
  | .requested request _ | .passed request _ | .flagged request _ => some request
  | _ => none

/-- Whether the next step of an activity calls `full_buy` for the tweet. -/
def Activity.owes (id : String) : Activity → Bool
  | .buying { stage := .flagged request _, .. } _ => request.uuid = id
  | _ => false

/-- A request carries the id of its tweet. -/
def Activity.Named : Activity → Prop
  | .buying call _ => ∀ request, call.stage.request? = some request → request.uuid = call.tweet.id
  | _ => True

namespace Bot

/-- The condition: the flag is not set yet when a call that has found it unset sets it. -/
def separate (s : Bot) : Action → Bool
  | .proceed i _ _ =>
    match s.activities[i]? with
    | some (.buying { tweet, stage := .passed .., .. } _) => (s.state.tweetsBought tweet.id).isNone
    | _ => true
  | _ => true

/-- The calls of `full_buy` for a tweet, with those that come next. -/
def calls (s : Bot) (id : String) : ℕ :=
  s.purchases.countP (·.uuid = id) + s.activities.countP (·.owes id)

/-- A call needs the flag, and no two have it. -/
structure Once (s : Bot) : Prop where
  named : ∀ a ∈ s.activities, a.Named
  flagged : ∀ id, s.state.tweetsBought id = none → s.calls id = 0
  single : ∀ id, s.calls id ≤ 1

/-- No call is added and no flag is changed. -/
structure Quiet (s t : Bot) : Prop where
  named : (∀ a ∈ s.activities, a.Named) → ∀ a ∈ t.activities, a.Named
  flags : t.state.tweetsBought = s.state.tweetsBought
  calls : ∀ id, t.calls id ≤ s.calls id

variable {s t : Bot} {i : ℕ} {old new : Activity} {id : String}

theorem Once.quiet (once : Once s) (quiet : Quiet s t) : Once t where
  named := quiet.named once.named
  flagged id unset := by
    rw [quiet.flags] at unset
    exact Nat.eq_zero_of_le_zero (once.flagged id unset ▸ quiet.calls id)
  single id := Nat.le_trans (quiet.calls id) (once.single id)

theorem named_become (named : ∀ a ∈ s.activities, a.Named) (own : new.Named) :
    ∀ a ∈ (s.become i new).activities, a.Named := by
  intro a member
  rcases List.mem_or_eq_of_mem_set member with member | rfl
  · exact named a member
  · exact own

theorem named_spawn (named : ∀ a ∈ s.activities, a.Named) (own : new.Named) :
    ∀ a ∈ (s.spawn new).activities, a.Named := by
  intro a member
  rcases List.mem_append.mp member with member | member
  · exact named a member
  · rwa [List.mem_singleton.mp member]

theorem calls_become (new : Activity) (id : String) (known : s.activities[i]? = some old) :
    (s.become i new).calls id + (if old.owes id then 1 else 0) = s.calls id + if new.owes id then 1 else 0 := by
  have counted := countP_set_known (y := new) (p := (·.owes id)) known
  simp only [calls, become]
  omega

theorem calls_spawn (none : new.owes id = false) : (s.spawn new).calls id = s.calls id := by
  simp [calls, spawn, none]

theorem quiet_become {state : AppState} (known : s.activities[i]? = some old) (own : old.Named → new.Named)
    (none : ∀ id, new.owes id = false) (flags : state.tweetsBought = s.state.tweetsBought) :
    Quiet s ({ s with state }.become i new) where
  named named := named_become (s := { s with state }) named (own (named old (List.mem_of_getElem? known)))
  flags := flags
  calls id := by
    have counted := calls_become (s := { s with state }) new id known
    have same : calls { s with state } id = s.calls id := rfl
    rw [none id, same] at counted
    simp only [Bool.false_eq_true, if_false] at counted
    omega

theorem Quiet.spawn (quiet : Quiet s t) (own : new.Named) (none : ∀ id, new.owes id = false) :
    Quiet s (t.spawn new) where
  named named := named_spawn (quiet.named named) own
  flags := quiet.flags
  calls id := by
    rw [calls_spawn (none id)]
    exact quiet.calls id

section Calls

variable {base58 : Base58} {state : AppState} {call : InnerBuy} {after : After} {retryUuid : String}
  {tweet : TwitterMiniTweet} {tasks : List TaskWallet} {mintAddress answer : Option String}

theorem quiet_enter (state : AppState) (known : s.activities[i]? = some old)
    (flags : state.tweetsBought = s.state.tweetsBought) :
    Quiet s ({ s with state }.enter i tweet tasks mintAddress after) := by
  refine quiet_become known (fun _ request at_ => ?_) (fun _ => rfl) flags
  cases at_

theorem quiet_returned (known : s.activities[i]? = some old) (flags : state.tweetsBought = s.state.tweetsBought) :
    Quiet s ({ s with state }.turn i base58 call after .returned) := by
  cases after with
  | text =>
    simp only [turn, resume]
    split
    · exact quiet_enter state known flags
    · refine Quiet.spawn ?_ trivial fun _ => rfl
      exact quiet_become known (fun _ => trivial) (fun _ => rfl) flags
  | images => exact quiet_become known (fun _ => trivial) (fun _ => rfl) flags
  | nothing => exact quiet_become known (fun _ => trivial) (fun _ => rfl) flags

/-- The call of `full_buy` has been counted before. -/
theorem quiet_fullBuy {request : BuyRequest} {rest : List TaskWallet}
    (known : s.activities[i]? = some (.buying call after)) (at_ : call.stage = .flagged request rest) :
    Quiet s (({ s with state := s.state }).turn i base58 call after (.fullBuy request (.loop rest))) where
  named named := by
    apply named_become (s := s) named
    intro request at_
    cases at_
  flags := rfl
  calls id := by
    have counted := calls_become (.buying { call with stage := .loop rest } after) id known
    have owed : Activity.owes id (.buying call after) = decide (request.uuid = id) := by
      obtain ⟨tweet, tasks, mintAddress, stage⟩ := call
      subst at_
      rfl
    rw [owed] at counted
    simp only [calls, turn, become, Activity.owes, Bool.false_eq_true, if_false, decide_eq_true_eq, List.countP_append,
      List.countP_singleton] at counted ⊢
    omega

/-- One step of a call is quiet, but for the write of the flag. -/
theorem quiet_buying (known : s.activities[i]? = some (.buying call after))
    (reads : ∀ request rest, call.stage ≠ .passed request rest) :
    Quiet s ({ s with state := (call.step s.state retryUuid).1 }.turn i base58 call after
      (call.step s.state retryUuid).2) := by
  have next : ∀ (state : AppState) (stage : Stage), state.tweetsBought = s.state.tweetsBought →
      (∀ request rest, stage ≠ .flagged request rest) →
      (Activity.Named (.buying call after) → ∀ request, stage.request? = some request → request.uuid = call.tweet.id) →
      Quiet s ({ s with state }.turn i base58 call after (.next stage)) := by
    intro state stage flags unflagged own
    refine quiet_become known own (fun id => ?_) flags
    cases stage with
    | flagged request rest => exact absurd rfl (unflagged request rest)
    | _ => rfl
  have named : Activity.Named (.buying call after) → ∀ request, call.stage.request? = some request →
      request.uuid = call.tweet.id := id
  obtain ⟨tweet, tasks, mintAddress, stage⟩ := call
  cases stage with
  | entered =>
    simp only [InnerBuy.step]
    split
    · exact quiet_returned known rfl
    · exact next _ _ rfl (by simp) (by simp [Stage.request?])
  | unbought =>
    simp only [InnerBuy.step]
    split
    · exact next _ _ rfl (by simp) (by simp [Stage.request?])
    · exact next _ _ rfl (by simp) (by simp [Stage.request?])
  | unretried =>
    simp only [InnerBuy.step]
    exact next _ _ rfl (by simp) (by simp [Stage.request?])
  | loop left =>
    cases left with
    | nil =>
      simp only [InnerBuy.step]
      exact quiet_returned known rfl
    | cons task left =>
      simp only [InnerBuy.step]
      split
      · rename_i request made
        refine next _ _ rfl (by simp) fun _ request' at_ => ?_
        cases at_
        exact TaskWallet.request?_uuid made
      · exact next _ _ rfl (by simp) (by simp [Stage.request?])
  | requested request left =>
    simp only [InnerBuy.step]
    split
    · exact next _ _ rfl (by simp) fun own => named own
    · exact next _ _ rfl (by simp) (by simp [Stage.request?])
  | passed request left => exact absurd rfl (reads request left)
  | flagged request left =>
    simp only [InnerBuy.step]
    exact quiet_fullBuy known rfl

/-- Only a call that has found the flag unset does something that counts. -/
theorem quiet_proceed (known : s.activities[i]? = some old)
    (reads : ∀ call after request rest, old = .buying call after → call.stage ≠ .passed request rest)
    (taken : s.proceed i base58 answer retryUuid old = some t) : Quiet s t := by
  have on : ∀ (state : AppState) (new : Activity), state.tweetsBought = s.state.tweetsBought → new.Named →
      (∀ id, new.owes id = false) → Quiet s ({ s with state }.become i new) :=
    fun _ _ flags own none => quiet_become known (fun _ => own) none flags
  cases old with
  | received tweet =>
    cases taken
    split
    · exact on s.state _ rfl trivial fun _ => rfl
    · exact on s.state _ rfl trivial fun _ => rfl
  | undetected tweet =>
    cases taken
    exact on (s.state.addTweetDetected tweet.id) _ rfl trivial fun _ => rfl
  | detected tweet =>
    cases taken
    split
    · exact on s.state _ rfl trivial fun _ => rfl
    · exact on s.state _ rfl trivial fun _ => rfl
  | unbought tweet =>
    cases taken
    exact quiet_enter s.state known rfl
  | buying call after =>
    cases taken
    exact quiet_buying known fun request rest => reads call after request rest rfl
  | images tweet tasks left =>
    cases left with
    | nil =>
      cases taken
      exact on s.state _ rfl trivial fun _ => rfl
    | cons image left =>
      simp only [proceed] at taken
      split at taken
      · cases taken
        split
        · exact on s.state _ rfl trivial fun _ => rfl
        · exact on s.state _ rfl trivial fun _ => rfl
      · cases taken
        exact on s.state _ rfl trivial fun _ => rfl
  | unseen tweet tasks image left =>
    cases taken
    apply Quiet.spawn
    · exact on (s.state.addTweetImage image) _ rfl trivial fun _ => rfl
    · trivial
    · exact fun _ => rfl
  | bruteforce tweet tasks =>
    cases answer with
    | some mint =>
      cases taken
      exact quiet_enter s.state known rfl
    | none =>
      cases taken
      exact on s.state _ rfl trivial fun _ => rfl
  | analysis tweet tasks =>
    cases answer with
    | some mint =>
      cases taken
      exact on s.state _ rfl trivial fun _ => rfl
    | none =>
      cases taken
      exact on s.state _ rfl trivial fun _ => rfl
  | analysed tweet tasks mint =>
    simp only [proceed] at taken
    split at taken
    · cases taken
      exact quiet_enter s.state known rfl
    · cases taken
      exact on s.state _ rfl trivial fun _ => rfl
  | done => cases taken

/-- Whoever sets the flag first is the one that buys. -/
theorem Once.flag {request : BuyRequest} {rest : List TaskWallet} (once : Once s)
    (known : s.activities[i]? = some (.buying call after)) (at_ : call.stage = .passed request rest)
    (unset : s.state.tweetsBought call.tweet.id = none) :
    Once ({ s with state := s.state.addTweetBought call.tweet.id }.become i
      (.buying { call with stage := .flagged request rest } after)) := by
  have own : request.uuid = call.tweet.id := by
    apply once.named _ (List.mem_of_getElem? known)
    rw [at_]
    rfl
  have owed : ∀ id, Activity.owes id (.buying call after) = false := by
    obtain ⟨tweet, tasks, mintAddress, stage⟩ := call
    subst at_
    exact fun _ => rfl
  have counted : ∀ id, calls ({ s with state := s.state.addTweetBought call.tweet.id }.become i
      (.buying { call with stage := .flagged request rest } after)) id =
      s.calls id + if call.tweet.id = id then 1 else 0 := by
    intro id
    have counted := calls_become (s := { s with state := s.state.addTweetBought call.tweet.id })
      (.buying { call with stage := .flagged request rest } after) id known
    rw [owed id] at counted
    simp only [Bool.false_eq_true, if_false, Activity.owes, own, decide_eq_true_eq] at counted
    exact counted
  constructor
  · apply named_become (s := { s with state := s.state.addTweetBought call.tweet.id }) once.named
    intro request' same
    cases same
    exact own
  · intro id free
    have other : id ≠ call.tweet.id := by
      rintro rfl
      simp [become, AppState.addTweetBought] at free
    have before : s.state.tweetsBought id = none := by
      simpa [become, AppState.addTweetBought, Function.update_of_ne other] using free
    rw [counted, if_neg (Ne.symm other), once.flagged id before]
  · intro id
    rw [counted]
    by_cases same : call.tweet.id = id
    · subst same
      rw [if_pos rfl, once.flagged _ unset]
    · rw [if_neg same]
      exact once.single id

theorem Once.step {a : Action} (once : Once s) (allowed : s.separate a) (taken : s.step base58 a = some t) :
    Once t := by
  cases a with
  | tweet tweet =>
    cases taken
    exact once.quiet (Quiet.spawn ⟨id, rfl, fun _ => Nat.le_refl _⟩ trivial fun _ => rfl)
  | tasks tasks =>
    cases taken
    exact once.quiet ⟨id, rfl, fun _ => Nat.le_refl _⟩
  | retried id' retries =>
    cases taken
    exact once.quiet ⟨id, rfl, fun _ => Nat.le_refl _⟩
  | proceed i answer retryUuid =>
    obtain ⟨old, known, taken⟩ := Option.bind_eq_some_iff.mp taken
    by_cases flags : ∃ call after request rest, old = .buying call after ∧ call.stage = .passed request rest
    · obtain ⟨⟨tweet, tasks, mintAddress, stage⟩, after, request, rest, rfl, at_⟩ := flags
      subst at_
      cases taken
      have unset : s.state.tweetsBought tweet.id = none := by
        simpa [separate, known] using allowed
      exact once.flag known rfl unset
    · apply once.quiet
      refine quiet_proceed known ?_ taken
      exact fun call after request rest same at_ => flags ⟨call, after, request, rest, same, at_⟩

end Calls

end Bot

section Runs

variable {serverName : String} {base58 : Base58} {s : Bot}

/-- How often `inner_buy` has called `full_buy` for a tweet. -/
def Bot.bought (s : Bot) (id : String) : ℕ := s.purchases.countP (·.uuid = id)

/-- **A tweet is bought for at most once**, when no call sets the flag after another has. -/
theorem bought_at_most_once (reached : (bot serverName base58).Reaches (fun s a => s.separate a) s) (id : String) :
    s.bought id ≤ 1 := by
  have once : s.Once := by
    refine reached.invariant Bot.Once ?_ fun _ _ _ once allowed taken => once.step allowed taken
    exact ⟨by simp [bot], fun _ _ => rfl, fun _ => by simp [Bot.calls, bot]⟩
  exact Nat.le_trans (Nat.le_add_right _ _) (once.single id)

end Runs

section Examples

def coin : TwitterMiniTweet where
  id := "1"
  type := "TWEET"
  handle := "elon"
  subtweet := none
  replyTo := none
  text := "new coin"
  urls := []
  images := ["https://pbs.twimg.com/media/A.jpg", "https://pbs.twimg.com/media/B.jpg"]

def order : TaskWallet where
  privateKey := some "key"
  nonceAccountAddress := some "nonce"
  twitterHandle := some "elon"
  servers := none
  blockLeaders := some "JITO"
  value := some 1
  tip := some 1
  slippage := 10
  tries := 3
  frontrunningProtection := false
  enableAlerts := false
  selectedPool := "ALL"
  twitterStrategy := some "TWEET"
  twitterHandleChecker := none
  twitterTokenOverride := none
  words := none

/-- No word of the tweet is a key. -/
def letters : Base58 := ⟨Char.isAlphanum, fun _ => false⟩

def proceeds (activity steps : ℕ) (answer : Option String) : List Action :=
  List.replicate steps (.proceed activity answer "fresh")

/-- The tweet comes, and a task is spawned for each of its images. -/
def delivered : List Action := [.tasks [order], .tweet coin] ++ proceeds 0 14 none

/-- A token was found in an image. -/
def found (activity steps : ℕ) : List Action := proceeds activity steps (some "mint")

theorem bought_at_most_once_image : ∃ s, (bot "eu" letters).Reaches (fun s a => s.separate a) s ∧ s.bought "1" = 1 ∧
    s.bought "1" ≤ 1 := by
  obtain ⟨s, reached, once⟩ := Machine.Reaches.of_trace (bot "eu" letters) (fun s a => s.separate a)
    (delivered ++ found 2 8) (·.bought "1" = 1) (by decide)
  exact ⟨s, reached, once, bought_at_most_once reached "1"⟩

/-- The tasks of two images find the flag unset before either sets it. -/
theorem bought_at_most_once_fails :
    ∃ s, (bot "eu" letters).Reachable s ∧ s.bought "1" = 2 ∧ ¬s.bought "1" ≤ 1 := by
  obtain ⟨s, reached, twice⟩ := Machine.Reachable.of_trace (bot "eu" letters)
    (delivered ++ found 2 6 ++ found 3 6 ++ found 2 2 ++ found 3 2) (·.bought "1" = 2) (by decide)
  exact ⟨s, reached, twice, by omega⟩

end Examples

end RndRust.Sniper

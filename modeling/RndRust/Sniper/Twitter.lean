import RndRust.Lib.Runs
import RndRust.Lib.Updates
import RndRust.Sniper.State

/-! `twitter.rs`: from a tweet to the purchases for it. The text of a tweet, a search through
it and its images lead to calls of `inner_buy`, all of them at once; an action is one
operation on the shared state, or the answer of a search. -/
namespace RndRust.Sniper
open Lib

/-- What a public key looks like: Unicode and the base-58 decoder decide. -/
structure Base58 where
  isAlphanumeric : Char → Bool
  isPubkey : String → Bool

def Base58.detectBs58 (base58 : Base58) (input : String) : Option String :=
  let spaced := input.toList.map fun x => if base58.isAlphanumeric x || x = ' ' then x else ' '
  (split (String.ofList spaced) ' ').find? base58.isPubkey

/-- `none` where an index is out of range. -/
def adjustTweetImg (input : String) : Option String :=
  match split ((split input '/').getLastD "") '.' with
  | id :: format :: _ => some ("https://pbs.twimg.com/media/" ++ id ++ "?format=" ++ format ++ "&name=small")
  | _ => none

namespace TwitterMiniTweet

/-- The text in which a task's words are looked for. -/
def searchText (tweet : TwitterMiniTweet) : String :=
  match tweet.subtweet with
  | some subtweet => tweet.text ++ " " ++ subtweet
  | none => tweet.text

/-- The text in which a token is looked for. -/
def fullText (tweet : TwitterMiniTweet) : String :=
  tweet.urls.foldl (fun text url => text ++ " " ++ url) tweet.searchText

end TwitterMiniTweet

namespace TaskWallet

/-- The tasks that `handle_tweet` goes on with. -/
def selected (task : TaskWallet) (handle : String) : Bool :=
  task.twitterHandle = some handle && task.value.isSome && task.tip.isSome && task.privateKey.isSome &&
    task.twitterStrategy.isSome && task.nonceAccountAddress.isSome

/-- Whether the reply is to someone the task does not wait for. -/
def misses (task : TaskWallet) (tweet : TwitterMiniTweet) (strategy : String) : Bool :=
  (strategy = "RETWEET" || strategy = "QUOTE" || strategy = "REPLY") &&
    match task.twitterHandleChecker, tweet.replyTo with
    | some checker, some handle => handle ≠ checker
    | _, _ => false

/-- Whether one of the task's words is in the tweet. -/
def speaks (task : TaskWallet) (tweet : TwitterMiniTweet) : Bool :=
  match task.words with
  | some words => (split words ',').any (contains tweet.searchText)
  | none => true

/-- What the loop of `inner_buy` comes to for a task: its request, or the next task. A
selected task has all the fields that are unwrapped. -/
def request? (task : TaskWallet) (tweet : TwitterMiniTweet) (mintAddress : Option String)
    (retryUuid : String) : Option BuyRequest := do
  let strategies := split (← task.twitterStrategy) ','
  let strategy ← strategies.find? (contains · tweet.type)
  guard (!task.misses tweet strategy)
  guard (task.speaks tweet)
  let mint ← task.twitterTokenOverride.or mintAddress
  return {
    retryUuid
    uuid := tweet.id
    privateKey := ← task.privateKey
    nonceAccountAddress := ← task.nonceAccountAddress
    mint
    value := ← task.value
    tip := ← task.tip
    slippage := task.slippage
    tries := task.tries
    frontrunningProtection := task.frontrunningProtection
    enableAlerts := task.enableAlerts
    selectedPool := task.selectedPool
    servers := task.servers
    blockLeaders := task.blockLeaders
  }

theorem request?_uuid {task : TaskWallet} {tweet : TwitterMiniTweet} {mintAddress : Option String}
    {retryUuid : String} {request : BuyRequest}
    (made : task.request? tweet mintAddress retryUuid = some request) : request.uuid = tweet.id := by
  unfold request? at made
  iterate 9 obtain ⟨_, -, made⟩ := Option.bind_eq_some_iff.mp made
  cases made
  rfl

end TaskWallet

/-- Where a call of `inner_buy` is. -/
inductive Stage where
  | entered
  /-- The tweet was not bought for. -/
  | unbought
  | unretried
  /-- At the head of the loop, with the tasks that are left. -/
  | loop (tasks : List TaskWallet)
  /-- Before the second look at the flag. -/
  | requested (request : BuyRequest) (tasks : List TaskWallet)
  /-- The flag was not set. -/
  | passed (request : BuyRequest) (tasks : List TaskWallet)
  /-- Before `full_buy`. -/
  | flagged (request : BuyRequest) (tasks : List TaskWallet)
  deriving DecidableEq

structure InnerBuy where
  tweet : TwitterMiniTweet
  tasks : List TaskWallet
  mintAddress : Option String
  stage : Stage
  deriving DecidableEq

/-- What a step of `inner_buy` leads to. -/
inductive Turn where
  | next (stage : Stage)
  | fullBuy (request : BuyRequest) (stage : Stage)
  | returned

/-- The next operation of a call; `retryUuid` is a fresh id. -/
def InnerBuy.step (call : InnerBuy) (state : AppState) (retryUuid : String) : AppState × Turn :=
  let id := call.tweet.id
  match call.stage with
  | .entered => (state, if (state.tweetsBought id).isSome then .returned else .next .unbought)
  | .unbought => (state, .next (if (state.retries id).isNone then .unretried else .loop call.tasks))
  | .unretried => (state.addRetries id 1, .next (.loop call.tasks))
  | .loop [] => (state, .returned)
  | .loop (task :: tasks) =>
    match task.request? call.tweet call.mintAddress retryUuid with
    | some request => (state, .next (.requested request tasks))
    | none => (state, .next (.loop tasks))
  | .requested request tasks =>
    (state, .next (if (state.tweetsBought id).isNone then .passed request tasks else .loop tasks))
  | .passed request tasks => (state.addTweetBought id, .next (.flagged request tasks))
  | .flagged request tasks => (state, .fullBuy request (.loop tasks))

/-- What follows a call of `inner_buy`: the first of `handle_tweet` has no token, the second
has the one in the text, and the other tasks call it last. -/
inductive After where
  | text
  | images
  | nothing
  deriving DecidableEq

/-- A task of the runtime: `handle_tweet`, or one that it has spawned. -/
inductive Activity where
  /-- Before `handle_tweet` asks whether the tweet was detected. -/
  | received (tweet : TwitterMiniTweet)
  | undetected (tweet : TwitterMiniTweet)
  | detected (tweet : TwitterMiniTweet)
  /-- Before it reads the tasks. -/
  | unbought (tweet : TwitterMiniTweet)
  | buying (call : InnerBuy) (after : After)
  /-- In `handle_images`, with the images that are left. -/
  | images (tweet : TwitterMiniTweet) (tasks : List TaskWallet) (images : List String)
  | unseen (tweet : TwitterMiniTweet) (tasks : List TaskWallet) (image : String) (images : List String)
  /-- `bruteforce_text` has not returned. -/
  | bruteforce (tweet : TwitterMiniTweet) (tasks : List TaskWallet)
  /-- `process_image_and_buy` has not come to a token. -/
  | analysis (tweet : TwitterMiniTweet) (tasks : List TaskWallet)
  | analysed (tweet : TwitterMiniTweet) (tasks : List TaskWallet) (mint : String)
  | done
  deriving DecidableEq

/-- The bot, with the calls of `full_buy` that `inner_buy` has made. -/
structure Bot where
  state : AppState
  activities : List Activity := []
  purchases : List BuyRequest := []

inductive Action where
  /-- A tweet is delivered, perhaps again. -/
  | tweet (tweet : TwitterMiniTweet)
  /-- The tasks of the users change. -/
  | tasks (tasks : List TaskWallet)
  /-- The event loop counts a retry. -/
  | retried (id : String) (retries : ℤ)
  /-- The next step of an activity. An answer is what a search has found; the id is for a
  request. -/
  | proceed (activity : ℕ) (answer : Option String) (retryUuid : String)

namespace Bot

variable (s : Bot) (i : ℕ)

def become (activity : Activity) : Bot := { s with activities := s.activities.set i activity }

def spawn (activity : Activity) : Bot := { s with activities := s.activities ++ [activity] }

/-- `inner_buy` from its start. -/
def enter (tweet : TwitterMiniTweet) (tasks : List TaskWallet) (mintAddress : Option String)
    (after : After) : Bot :=
  s.become i (.buying ⟨tweet, tasks, mintAddress, .entered⟩ after)

/-- `inner_buy` has returned to its caller. -/
def resume (base58 : Base58) (call : InnerBuy) : After → Bot
  | .text =>
    match base58.detectBs58 call.tweet.fullText with
    | some found => s.enter i call.tweet call.tasks (some found) .images
    | none => (s.become i (.images call.tweet call.tasks call.tweet.images)).spawn
        (.bruteforce call.tweet call.tasks)
  | .images => s.become i (.images call.tweet call.tasks call.tweet.images)
  | .nothing => s.become i .done

def turn (base58 : Base58) (call : InnerBuy) (after : After) : Turn → Bot
  | .next stage => s.become i (.buying { call with stage } after)
  | .fullBuy request stage =>
    { s.become i (.buying { call with stage } after) with purchases := s.purchases ++ [request] }
  | .returned => s.resume i base58 call after

/-- An activity that is at the given point goes on. -/
def proceed (base58 : Base58) (answer : Option String) (retryUuid : String) : Activity → Option Bot
  | .received tweet =>
    some <| s.become i (if (s.state.tweetsDetected tweet.id).isNone then .undetected tweet else .detected tweet)
  | .undetected tweet =>
    some <| { s with state := s.state.addTweetDetected tweet.id }.become i (.detected tweet)
  | .detected tweet =>
    some <| s.become i (if (s.state.tweetsBought tweet.id).isSome then .done else .unbought tweet)
  | .unbought tweet =>
    some <| s.enter i tweet (s.state.tasks.filter (·.selected tweet.handle)) none .text
  | .buying call after =>
    let (state, turn) := call.step s.state retryUuid
    some <| { s with state }.turn i base58 call after turn
  | .images _ _ [] => some <| s.become i .done
  | .images tweet tasks (image :: images) =>
    match adjustTweetImg image with
    | some image =>
      some <| s.become i
        (if (s.state.tweetsImages image).isNone then .unseen tweet tasks image images else .images tweet tasks images)
    | none => some <| s.become i .done
  | .unseen tweet tasks image images =>
    some <| ({ s with state := s.state.addTweetImage image }.become i (.images tweet tasks images)).spawn
      (.analysis tweet tasks)
  | .bruteforce tweet tasks =>
    match answer with
    | some mint => some <| s.enter i tweet tasks (some mint) .nothing
    | none => some <| s.become i .done
  | .analysis tweet tasks =>
    match answer with
    | some mint => some <| s.become i (.analysed tweet tasks mint)
    | none => some <| s.become i .done
  | .analysed tweet tasks mint =>
    if (s.state.tweetsBought tweet.id).isNone then some <| s.enter i tweet tasks (some mint) .nothing
    else some <| s.become i .done
  | .done => none

def step (base58 : Base58) (s : Bot) : Action → Option Bot
  | .tweet tweet => some <| s.spawn (.received tweet)
  | .tasks tasks => some { s with state := s.state.setTasks tasks }
  | .retried id retries => some { s with state := s.state.addRetries id retries }
  | .proceed i answer retryUuid => do s.proceed i base58 answer retryUuid (← s.activities[i]?)

end Bot

/-- A bot that has just started. -/
def bot (serverName : String) (base58 : Base58) : Machine Bot Action where
  initial := { state := { serverName } }
  step := Bot.step base58

end RndRust.Sniper

import Mathlib.Data.Int.Notation
import Mathlib.Data.List.Infix
import Mathlib.Data.Rat.Init
import Mathlib.Logic.Function.Basic

/-! What the sniper keeps: the tasks of its users, the tweets it is told of, the purchases
it is to make and how often each was tried. -/
namespace RndRust.Sniper

/-- `str::contains`. -/
def contains (text part : String) : Bool := decide (part.toList <:+: text.toList)

/-- `str::split` at one character. -/
def split (text : String) (separator : Char) : List String :=
  (text.toList.splitOn separator).map String.ofList

/-- A user's standing order. -/
structure TaskWallet where
  privateKey : Option String
  nonceAccountAddress : Option String
  twitterHandle : Option String
  servers : Option String
  blockLeaders : Option String
  value : Option ℚ
  tip : Option ℚ
  slippage : ℤ
  tries : ℤ
  frontrunningProtection : Bool
  enableAlerts : Bool
  selectedPool : String
  twitterStrategy : Option String
  twitterHandleChecker : Option String
  twitterTokenOverride : Option String
  words : Option String
  deriving DecidableEq

structure BuyRequest where
  retryUuid : String
  uuid : String
  privateKey : String
  nonceAccountAddress : String
  mint : String
  value : ℚ
  tip : ℚ
  slippage : ℤ
  tries : ℤ
  frontrunningProtection : Bool
  enableAlerts : Bool
  selectedPool : String
  servers : Option String
  blockLeaders : Option String
  deriving DecidableEq

/-- A tweet, with what is read of its author, of the tweet it refers to and of its reply. -/
structure TwitterMiniTweet where
  id : String
  type : String
  handle : String
  subtweet : Option String
  replyTo : Option String
  text : String
  urls : List String
  images : List String
  deriving DecidableEq

/-- The maps behind locks. -/
structure AppState where
  serverName : String
  tasks : List TaskWallet := []
  spamTasks : List BuyRequest := []
  spamTasksAvailable : String → Option Bool := fun _ => none
  tweetsDetected : String → Option Bool := fun _ => none
  tweetsBought : String → Option Bool := fun _ => none
  tweetsImages : String → Option Bool := fun _ => none
  retries : String → Option ℤ := fun _ => none

namespace AppState

variable (state : AppState)

def setTasks (tasks : List TaskWallet) : AppState := { state with tasks }

def addTweetDetected (id : String) : AppState :=
  { state with tweetsDetected := Function.update state.tweetsDetected id (some true) }

def addTweetImage (image : String) : AppState :=
  { state with tweetsImages := Function.update state.tweetsImages image (some true) }

def addTweetBought (id : String) : AppState :=
  { state with tweetsBought := Function.update state.tweetsBought id (some true) }

def addSpamTasksAvailable (uuid : String) : AppState :=
  { state with spamTasksAvailable := Function.update state.spamTasksAvailable uuid (some true) }

def addSpamTask (task : BuyRequest) : AppState :=
  { state with spamTasks := state.spamTasks ++ [task] }

def removeSpamTasksByUuid (uuid : String) : AppState :=
  { state with spamTasks := state.spamTasks.filter (·.uuid ≠ uuid) }

def addRetries (id : String) (retries : ℤ) : AppState :=
  { state with retries := Function.update state.retries id (some retries) }

end AppState

end RndRust.Sniper

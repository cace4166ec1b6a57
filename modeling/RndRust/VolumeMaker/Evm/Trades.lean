import RndRust.Lib.Words
import RndRust.VolumeMaker.Evm.Transactions
import RndRust.VolumeMaker.Evm.Uniswap

/-! The transactions that a trade is made of, `exec_transaction` up to where they are signed and
sent, and what the approvals among them do on the chain. -/
namespace RndRust.VolumeMaker.Evm
open Lib Lib.Abi

/-- An address that is written as a number. -/
def Address.ofNat (n : ℕ) : Address := ⟨beBytes 20 n, length_beBytes⟩

def Network.getBaseToken : Network → Address
  | .ethereum => .ofNat 0xC02aaA39b223FE8D0A0e5C4F27eAD9083C756Cc2
  | .bsc => .ofNat 0xbb4CdB9CBd36B01bD1cBaEBF2De08d9173bc095c
  | .base => .ofNat 0x4200000000000000000000000000000000000006
  | .arbitrum => .ofNat 0x82aF49447D8a07e3bd95BD0d56f35241523fBab1
  | .avalanche => .ofNat 0xB31f66AA3C1e785363F0875A1B74E27b85FD66c7

def Network.uniswapRouterV2 : Network → Address
  | .ethereum => .ofNat 0x7a250d5630B4cF539739dF2C5dAcb4c659F2488D
  | _ => .ofNat 0x4752ba5dbc23f44d87826276bf6fd6b1c372ad24

def Network.uniswapV4UniversalRouter : Network → Address
  | .ethereum => .ofNat 0x66a9893cc07d91d95644aedd05d03f95e1dba8af
  | _ => .ofNat 0x6fF5693b99212Da76ad316178A184AB56D299b43

def permit2Address : Address := .ofNat 0x000000000022D473030F116dDEE9F6B43aC78BA3

/-- The native currency of a pool of version 4. -/
def native : Address := .ofNat 0

/-- An action of the planner of version 4. -/
inductive V4Action where
  | swapExactIn (config : SwapExactIn)
  | settleAll (currency : Address) (amount : ℕ)
  | takeAll (currency : Address) (minAmount : ℕ)
  deriving DecidableEq

/-- A call of a contract, with its arguments. -/
inductive Call where
  | approve (spender : Address) (value : Word 256)
  | permit2Approve (token spender : Address) (amount : Word 160) (expiration : Word 48)
  | swapExactETHForTokens (amountOutMin : ℕ) (path : List Address) (recipient : Address) (deadline : ℕ)
  | swapExactTokensForETH (amountIn amountOutMin : ℕ) (path : List Address) (recipient : Address) (deadline : ℕ)
  | execute (actions : List V4Action) (deadline : ℕ)
  deriving DecidableEq

structure BuildRequest where
  sender : Address
  target : Address
  gasLimit : ℕ
  input : Call
  value : ℕ
  nonce : ℕ
  txType : String
  deriving DecidableEq

/-- The allowances on the chain: of a token for an owner and a spender, and of Permit2 for an owner,
a token and a spender. -/
structure Chain where
  erc20 : Address → Address → Address → Word 256
  permit2 : Address → Address → Address → Word 160

/-- Set one entry of a table of three keys. -/
def setEntry {α : Type} (table : Address → Address → Address → α) (a b c : Address) (value : α) :
    Address → Address → Address → α :=
  fun x y z => if x = a ∧ y = b ∧ z = c then value else table x y z

/-- A transaction is executed: an approval sets the allowance that it names. -/
def Chain.execute (chain : Chain) (tx : BuildRequest) : Chain :=
  match tx.input with
  | .approve spender value => { chain with erc20 := setEntry chain.erc20 tx.target tx.sender spender value }
  | .permit2Approve token spender amount _ =>
    if tx.target = permit2Address then { chain with permit2 := setEntry chain.permit2 tx.sender token spender amount }
    else chain
  | _ => chain

/-- What `exec_transaction` is asked for, and what it fetches but for the allowances. -/
structure Trade where
  network : Network
  signer : Address
  token : Address
  version : ℕ
  poolKey : PoolKey
  buy : Bool
  amountIn : Word 256
  amountOutMinimum : ℕ
  deadline : ℕ
  nonce : ℕ

namespace Trade

/-- The swap of version 4. -/
def v4Actions (t : Trade) (currencyIn settled taken : Address) : List V4Action :=
  [.swapExactIn ⟨currencyIn, encodeMultihopExactInPath [t.poolKey] currencyIn, t.amountIn.val, t.amountOutMinimum⟩,
    .settleAll settled t.amountIn.val, .takeAll taken t.amountOutMinimum]

/-- The branch of `exec_transaction` that buys. -/
def buyRequests (t : Trade) : List BuildRequest :=
  if t.version = 2 then
    [{ sender := t.signer
       target := t.network.uniswapRouterV2
       gasLimit := 1000000
       input := .swapExactETHForTokens t.amountOutMinimum [] t.signer t.deadline
       value := t.amountIn.val
       nonce := t.nonce
       txType := "BUY" }]
  else if t.version = 4 then
    [{ sender := t.signer
       target := t.network.uniswapV4UniversalRouter
       gasLimit := 500000
       input := .execute (t.v4Actions native t.poolKey.currency0 t.poolKey.currency1) t.deadline
       value := t.amountIn.val
       nonce := t.nonce
       txType := "BUY" }]
  else []

/-- An approval, where what is allowed is not more than `amount_in`. -/
def approval (t : Trade) (allowance : ℕ) (target : Address) (gasLimit nonce : ℕ) (input : Call) : List BuildRequest :=
  if allowance ≤ t.amountIn.val then [{ sender := t.signer, target, gasLimit, input, value := 0, nonce, txType := "APPROVE" }]
  else []

/-- The token's approval of Permit2, for version 4 only. -/
def tokenApproval (t : Trade) (chain : Chain) : List BuildRequest :=
  if t.version = 2 then []
  else t.approval (chain.erc20 t.token t.signer permit2Address).val t.token 100000 t.nonce
    (.approve permit2Address (Fin.last (2 ^ 256 - 1)))

/-- Who pulls the tokens of a sale. -/
def spender (t : Trade) : Address :=
  if t.version = 2 then t.network.uniswapRouterV2 else t.network.uniswapV4UniversalRouter

/-- The allowance of the spender, which the shared branch looks at. -/
def allowance (t : Trade) (chain : Chain) : ℕ :=
  if t.version = 2 then (chain.erc20 t.token t.signer t.spender).val else (chain.permit2 t.signer t.token t.spender).val

/-- Permit2's approval of the spender, for both versions. -/
def spenderApproval (t : Trade) (chain : Chain) (nonce : ℕ) : List BuildRequest :=
  t.approval (t.allowance chain) permit2Address 150000 nonce
    (.permit2Approve t.token t.spender (Fin.last (2 ^ 160 - 1)) (Fin.last (2 ^ 48 - 1)))

/-- The swap of a sale. -/
def sale (t : Trade) (nonce : ℕ) : BuildRequest :=
  if t.version = 2 then
    { sender := t.signer
      target := t.network.uniswapRouterV2
      gasLimit := 1000000
      input := .swapExactTokensForETH t.amountIn.val t.amountOutMinimum [] t.signer t.deadline
      value := 0
      nonce
      txType := "SELL" }
  else
    { sender := t.signer
      target := t.network.uniswapV4UniversalRouter
      gasLimit := 500000
      input := .execute (t.v4Actions t.token t.token
        (if t.token = t.poolKey.currency0 then t.poolKey.currency1 else t.poolKey.currency0)) t.deadline
      value := 0
      nonce
      txType := "SELL" }

/-- The branch of `exec_transaction` that sells. -/
def sellRequests (t : Trade) (chain : Chain) : Except String (List BuildRequest) :=
  if t.version = 2 ∨ t.version = 4 then
    let first := t.tokenApproval chain
    let second := t.spenderApproval chain (t.nonce + first.length)
    .ok (first ++ second ++ [t.sale (t.nonce + first.length + second.length)])
  else .error s!"Unsupported pool version {t.version} for sell"

/-- `exec_transaction`, as far as the requests it builds. -/
def execTransaction (t : Trade) (chain : Chain) : Except String (List BuildRequest) :=
  if t.buy then .ok t.buyRequests else t.sellRequests chain

end Trade

/-- The swap goes from one token to the other. -/
def Call.Leads (start finish : Address) : Call → Prop
  | .swapExactETHForTokens _ path _ _ | .swapExactTokensForETH _ _ path _ _ =>
    path.head? = some start ∧ path.getLast? = some finish
  | .execute actions _ => ∃ config, .swapExactIn config ∈ actions ∧ config.currencyIn = start ∧
      config.path.getLast?.map PathKey.intermediateCurrency = some finish
  | _ => False

namespace Trade

/-- What the token is traded for. -/
def counter (t : Trade) : Address := if t.version = 2 then t.network.getBaseToken else native

/-- The contract that pulls the tokens of a sale may take `amount_in`. -/
def Pulls (t : Trade) (chain : Chain) : Prop :=
  if t.version = 2 then t.amountIn.val ≤ (chain.erc20 t.token t.signer t.network.uniswapRouterV2).val
  else t.amountIn.val ≤ (chain.erc20 t.token t.signer permit2Address).val ∧
    t.amountIn.val ≤ (chain.permit2 t.signer t.token t.network.uniswapV4UniversalRouter).val

/-- The requests are a trade that can be executed. -/
structure Executable (t : Trade) (chain : Chain) (requests : List BuildRequest) : Prop where
  nonces : requests.map BuildRequest.nonce = List.range' t.nonce requests.length
  values : ∀ request ∈ requests, request.value = if t.buy then t.amountIn.val else 0
  leads : ∃ swap, requests.getLast? = some swap ∧
    swap.input.Leads (if t.buy then t.counter else t.token) (if t.buy then t.token else t.counter)
  pulls : t.buy = false → t.Pulls (requests.dropLast.foldl Chain.execute chain)

/-- The pool of version 4 is of the token and the native currency. -/
def Pairs (t : Trade) : Prop :=
  t.poolKey.currency0 = native ∧ t.poolKey.currency1 = t.token ∨ t.poolKey.currency0 = t.token ∧ t.poolKey.currency1 = native

end Trade

section Approvals

variable {t : Trade} {chain : Chain} {nonce : ℕ}

@[simp] theorem setEntry_same {α : Type} {table : Address → Address → Address → α} {a b c : Address} {value : α} :
    setEntry table a b c value a b c = value := by simp [setEntry]

/-- After the token's approval Permit2 may take any amount, and no allowance of Permit2 has changed. -/
theorem tokenApproval_allows (chain : Chain) (version : t.version = 4) :
    t.amountIn.val ≤ (((t.tokenApproval chain).foldl Chain.execute chain).erc20 t.token t.signer permit2Address).val ∧
      ((t.tokenApproval chain).foldl Chain.execute chain).permit2 = chain.permit2 := by
  rw [Trade.tokenApproval, if_neg (by omega), Trade.approval]
  split
  · simp only [List.foldl_cons, List.foldl_nil, Chain.execute, setEntry_same, Fin.val_last, and_true]
    have := t.amountIn.isLt
    omega
  · rename_i enough
    exact ⟨(Nat.lt_of_not_le enough).le, rfl⟩

/-- After Permit2's approval the spender may take any amount that Permit2 can allow. -/
theorem spenderApproval_allows {now : Chain} (nonce : ℕ) (version : t.version = 4) (same : now.permit2 = chain.permit2) :
    (t.amountIn.val ≤ (((t.spenderApproval chain nonce).foldl Chain.execute now).permit2 t.signer t.token
        t.network.uniswapV4UniversalRouter).val ↔ t.amountIn.val < 2 ^ 160) ∧
      ((t.spenderApproval chain nonce).foldl Chain.execute now).erc20 = now.erc20 := by
  have spender : t.spender = t.network.uniswapV4UniversalRouter := if_neg (by omega)
  have allowance : t.allowance chain = (now.permit2 t.signer t.token t.network.uniswapV4UniversalRouter).val := by
    rw [Trade.allowance, if_neg (by omega), spender, same]
  rw [Trade.spenderApproval, Trade.approval, allowance, spender]
  split
  · simp only [List.foldl_cons, List.foldl_nil, Chain.execute, if_true, setEntry_same, Fin.val_last, and_true]
    omega
  · rename_i enough
    have small := (now.permit2 t.signer t.token t.network.uniswapV4UniversalRouter).isLt
    exact ⟨iff_of_true (Nat.lt_of_not_le enough).le ((Nat.lt_of_not_le enough).trans small), rfl⟩

theorem approval_shape {allowance gasLimit : ℕ} {target : Address} {input : Call} :
    (t.approval allowance target gasLimit nonce input).map BuildRequest.nonce =
        List.range' nonce (t.approval allowance target gasLimit nonce input).length ∧
      ∀ request ∈ t.approval allowance target gasLimit nonce input, request.value = 0 := by
  unfold Trade.approval
  split <;> simp

theorem tokenApproval_shape : (t.tokenApproval chain).map BuildRequest.nonce =
      List.range' t.nonce (t.tokenApproval chain).length ∧ ∀ request ∈ t.tokenApproval chain, request.value = 0 := by
  unfold Trade.tokenApproval
  split
  · simp
  · exact approval_shape

theorem sale_shape : (t.sale nonce).nonce = nonce ∧ (t.sale nonce).value = 0 := by
  unfold Trade.sale
  split <;> exact ⟨rfl, rfl⟩

end Approvals

section Paths

variable {t : Trade}

/-- A path through the one pool leads to its other currency. -/
theorem encodeMultihop_leads (pairs : t.Pairs) (currencyIn : Address) (isToken : currencyIn = t.token ∨ currencyIn = native) :
    (encodeMultihopExactInPath [t.poolKey] currencyIn).getLast?.map PathKey.intermediateCurrency =
      some (if currencyIn = t.token then native else t.token) := by
  simp only [encodeMultihopExactInPath, List.getLast?_singleton, Option.map_some, Option.some.injEq]
  by_cases degenerate : t.token = native
  · rcases pairs with ⟨first, second⟩ | ⟨first, second⟩ <;> simp [first, second, degenerate]
  · rcases pairs with ⟨first, second⟩ | ⟨first, second⟩
    all_goals
      rcases isToken with rfl | rfl
      all_goals simp [first, second, degenerate, Ne.symm degenerate]

theorem v4Actions_leads (pairs : t.Pairs) {currencyIn settled taken : Address} {deadline : ℕ}
    (isToken : currencyIn = t.token ∨ currencyIn = native) :
    (Call.execute (t.v4Actions currencyIn settled taken) deadline).Leads currencyIn
      (if currencyIn = t.token then native else t.token) :=
  ⟨_, List.mem_cons_self, rfl, encodeMultihop_leads pairs currencyIn isToken⟩

end Paths

namespace Trade

variable {t : Trade} {chain : Chain} {requests : List BuildRequest}

theorem buy_executable (buys : t.buy) (versions : t.version = 2 ∨ t.version = 4) (pairs : t.version = 4 → t.Pairs) :
    t.Executable chain t.buyRequests ↔ t.version = 4 := by
  rcases versions with two | four
  · have requests : t.buyRequests = [⟨t.signer, t.network.uniswapRouterV2, 1000000,
        .swapExactETHForTokens t.amountOutMinimum [] t.signer t.deadline, t.amountIn.val, t.nonce, "BUY"⟩] := if_pos two
    refine iff_of_false (fun executable => ?_) (by omega)
    obtain ⟨swap, last, leads⟩ := executable.leads
    rw [requests, List.getLast?_singleton, Option.some.injEq] at last
    subst last
    cases leads.1
  · have requests : t.buyRequests = [⟨t.signer, t.network.uniswapV4UniversalRouter, 500000,
        .execute (t.v4Actions native t.poolKey.currency0 t.poolKey.currency1) t.deadline, t.amountIn.val, t.nonce,
        "BUY"⟩] := by rw [buyRequests, if_neg (by omega), if_pos four]
    refine iff_of_true ⟨?_, ?_, ?_, ?_⟩ four
    · rw [requests]
      rfl
    · rw [requests]
      simp [buys]
    · have finish : (if native = t.token then native else t.token) = t.token := by split <;> simp_all
      rw [requests, if_pos buys, if_pos buys, counter, if_neg (by omega)]
      refine ⟨_, List.getLast?_singleton, ?_⟩
      exact finish ▸ v4Actions_leads (pairs four) (.inr rfl)
    · intro sells
      rw [buys] at sells
      cases sells

/-- The requests of a sale: the approvals that are missing, and the swap. -/
theorem sell_executable (chain : Chain) (sells : t.buy = false) (versions : t.version = 2 ∨ t.version = 4)
    (pairs : t.version = 4 → t.Pairs) :
    ∃ requests, t.sellRequests chain = .ok requests ∧
      (t.Executable chain requests ↔ t.version = 4 ∧ t.amountIn.val < 2 ^ 160) := by
  refine ⟨_, by rw [sellRequests, if_pos versions], ?_⟩
  set first := t.tokenApproval chain with firstIs
  set second := t.spenderApproval chain (t.nonce + first.length) with secondIs
  set swap := t.sale (t.nonce + first.length + second.length) with swapIs
  have last : (first ++ second ++ [swap]).getLast? = some swap := List.getLast?_concat
  have before : (first ++ second ++ [swap]).dropLast = first ++ second := List.dropLast_concat
  rcases versions with two | four
  · refine iff_of_false (fun executable => ?_) (by omega)
    obtain ⟨swap', last', leads⟩ := executable.leads
    obtain rfl : swap = swap' := Option.some.inj (last.symm.trans last')
    rw [swapIs, sale, if_pos two] at leads
    cases leads.1
  · have tokens := tokenApproval_allows chain four
    have spends := spenderApproval_allows (t.nonce + first.length) four tokens.2
    rw [← firstIs] at tokens spends
    rw [← secondIs] at spends
    have pulled : t.Pulls ((first ++ second).foldl Chain.execute chain) ↔ t.amountIn.val < 2 ^ 160 := by
      rw [Pulls, if_neg (by omega), List.foldl_append, spends.2, spends.1]
      exact and_iff_right tokens.1
    constructor
    · intro executable
      have pulls := executable.pulls sells
      rw [before, pulled] at pulls
      exact ⟨four, pulls⟩
    · rintro ⟨-, small⟩
      have firstShape : first.map BuildRequest.nonce = List.range' t.nonce first.length ∧
          ∀ request ∈ first, request.value = 0 := tokenApproval_shape
      have secondShape : second.map BuildRequest.nonce = List.range' (t.nonce + first.length) second.length ∧
          ∀ request ∈ second, request.value = 0 := approval_shape
      refine ⟨?_, ?_, ⟨swap, last, ?_⟩, fun _ => by rwa [before, pulled]⟩
      · rw [List.map_append, List.map_append, firstShape.1, secondShape.1, List.range'_append_1, List.map_singleton,
          swapIs, sale_shape.1, List.length_append, List.length_append, List.length_singleton, List.range'_1_concat,
          Nat.add_assoc]
      · rw [sells]
        simp only [List.mem_append, List.mem_singleton]
        rintro request ((listed | listed) | rfl)
        · exact firstShape.2 request listed
        · exact secondShape.2 request listed
        · exact sale_shape.2
      · have finish : (if t.token = t.token then native else t.token) = native := if_pos rfl
        have new : ¬ t.version = 2 := by omega
        simp only [sells, swapIs, sale, counter, if_neg new, Bool.false_eq_true, if_false]
        exact finish ▸ v4Actions_leads (pairs four) (.inl rfl)

end Trade

/-- **A trade is executable as built exactly when its pool is of version 4 and, for a sale, Permit2 can
allow the amount**: a swap of version 2 has no path, and its sale approves with Permit2 what the router
pulls itself. -/
theorem trades_executable_iff {t : Trade} {chain : Chain} (versions : t.version = 2 ∨ t.version = 4)
    (pairs : t.version = 4 → t.Pairs) :
    ∃ requests, t.execTransaction chain = .ok requests ∧
      (t.Executable chain requests ↔ t.version = 4 ∧ (t.buy ∨ t.amountIn.val < 2 ^ 160)) := by
  cases buys : t.buy with
  | true =>
    refine ⟨t.buyRequests, by rw [Trade.execTransaction, if_pos buys], ?_⟩
    simpa using Trade.buy_executable buys versions pairs
  | false =>
    obtain ⟨requests, built, executable⟩ := Trade.sell_executable chain buys versions pairs
    refine ⟨requests, by rw [Trade.execTransaction, if_neg (by simp [buys]), built], ?_⟩
    simpa using executable

/-- A sale by a wallet that has approved nothing. -/
def exampleSale (version : ℕ) : Trade where
  network := .base
  signer := .ofNat 1
  token := .ofNat 2
  version
  poolKey := ⟨native, .ofNat 2, 3000, 60, native⟩
  buy := false
  amountIn := ⟨5, by decide⟩
  amountOutMinimum := 0
  deadline := 100
  nonce := 7

def noAllowances : Chain where
  erc20 _ _ _ := ⟨0, by decide⟩
  permit2 _ _ _ := ⟨0, by decide⟩

theorem trades_executable_sale : ∃ requests, (exampleSale 4).execTransaction noAllowances = .ok requests ∧
    (exampleSale 4).Executable noAllowances requests := by
  obtain ⟨requests, built, executable⟩ := @trades_executable_iff (exampleSale 4) noAllowances (.inr rfl)
    fun _ => .inl ⟨rfl, rfl⟩
  exact ⟨requests, built, executable.mpr ⟨rfl, .inr (by decide)⟩⟩

/-- The path of version 2 is empty, and its router is left without an allowance. -/
theorem trades_executable_fails : ∃ requests, (exampleSale 2).execTransaction noAllowances = .ok requests ∧
    (requests.dropLast.foldl Chain.execute noAllowances).erc20 (.ofNat 2) (.ofNat 1) (exampleSale 2).spender = 0 ∧
    ¬ (exampleSale 2).Executable noAllowances requests := by
  refine ⟨_, rfl, by decide +kernel, fun executable => ?_⟩
  obtain ⟨swap, last, leads⟩ := executable.leads
  cases last
  cases leads.1

end RndRust.VolumeMaker.Evm

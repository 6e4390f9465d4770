import DMS.Core.BigFloat
import DMS.Tokenomics.PaymentStores

/-! # Validating payments

`handleContractPaymentValidationRequestFromContractHost` of `dms/node/behaviors_contract.go`: it
looks up what the payment should come to, asks a chain client for the transfers of the transaction,
and marks the payment as paid when one of them is large enough.
-/

namespace DMS.Node

open Tokenomics

structure ERC20Tx where
  sender : GoString
  receiver : GoString
  amount : GoString
  txHash : GoString
deriving DecidableEq, Repr

/-- `cardano.Transfer`, with each asset as its unit and quantity. -/
structure CardanoTransfer where
  sender : GoString
  receiver : GoString
  assets : List (GoString × Int)
deriving DecidableEq, Repr

/-- The replies of the clients to one request. `asset` is the unit that the node is
configured for. -/
structure ChainReplies where
  blockNumber : Except String Nat
  erc20Transfers : Except String (List ERC20Tx)
  asset : GoString
  transfersForAsset : List CardanoTransfer

/-- `ContractPaymentValidationRequest` -/
structure PaymentValidationRequest where
  txHash : GoString
  uniqueID : GoString
  blockchain : GoString
  quoteID : GoString
deriving DecidableEq, Repr

def ethereumBlockchain : GoString := ascii "ETHEREUM"

def cardanoBlockchain : GoString := ascii "CARDANO"

def foldByte (c : UInt8) : UInt8 := if 65 ≤ c ∧ c ≤ 90 then c + 32 else c

/-- `strings.EqualFold` for texts in the ASCII range. -/
def equalFold (a b : GoString) : Bool := a.map foldByte = b.map foldByte

/-- `%s` of a `big.Int` -/
def intText (n : Int) : GoString := (if n < 0 then ascii "-" else []) ++ itoa n.natAbs

/-- `compareDecimals`: `none` when one of the texts is no number. -/
def compareDecimals (a b : GoString) : Option Bool :=
  (parseFloat 256 a).bind fun af => (parseFloat 256 b).map fun bf => af.ge bf

structure Validator where
  payments : PaymentStore
  quotes : Collection PaymentQuote

def expectedAmount (s : Validator) (req : PaymentValidationRequest) (payment : Payment) :
    Except String (GoString × Option PaymentQuote) :=
  if req.quoteID ≠ [] then
    match PaymentQuote.getQuote s.quotes req.quoteID with
    | .error e => .error ("failed to get quote: " ++ e)
    | .ok quote => .ok (quote.convertedAmount, some quote)
  else
    match PaymentQuote.getQuoteByUniqueID s.quotes req.uniqueID with
    | some quote => .ok (quote.convertedAmount, some quote)
    | none => .ok (payment.amount, none)

/-- What the checks of a chain have to say: the errors that were sent while they went on,
whether the payment is verified, and the reason why it is not. -/
structure Verdict where
  replies : List String
  verified : Bool
  errorMsg : String

def notVerified (amount expected : GoString) : String :=
  "not verified: tx amount: " ++ printed amount ++ " expected amount: " ++ printed expected

def addressOn (blockchain : GoString) (payment : Payment) : Option PaymentAddressInfo :=
  payment.contract.paymentDetails.addresses.find? (·.blockchain = blockchain)

def checkTransfers (addr : PaymentAddressInfo) (txHash expected : GoString)
    (txs : List ERC20Tx) : Except String Verdict :=
  match txs.find? fun tx => equalFold tx.txHash txHash with
  | none => .ok ⟨[], false, ""⟩
  | some tx =>
    if equalFold tx.sender addr.requesterAddr = false then
      .error ("requester transaction address " ++ printed addr.requesterAddr ++
        " doesn't match the one in transaction: " ++ printed tx.sender)
    else if compareDecimals tx.amount expected = some true then .ok ⟨[], true, ""⟩
    else .ok ⟨[], false, notVerified tx.amount expected⟩

def checkEthereum (payment : Payment) (txHash expected : GoString) (chain : ChainReplies) :
    Except String Verdict :=
  match addressOn ethereumBlockchain payment with
  | none => .error "ethereum address was not found in payment addresses: %!w(<nil>)"
  | some addr =>
    match chain.blockNumber with
    | .error e => .error ("failed to get block number: " ++ e)
    | .ok _ =>
      match chain.erc20Transfers with
      | .error e => .error ("failed to get erc20 transfer: " ++ e)
      | .ok txs => checkTransfers addr txHash expected txs

def assetAmount (asset : GoString) (transfer : CardanoTransfer) : GoString :=
  ((transfer.assets.find? (·.1 = asset)).map fun a => intText a.2).getD []

/-- One turn of the loop over the transfers of a Cardano transaction. An error is sent, but
the turn goes on. -/
def checkTransfer (addr : PaymentAddressInfo) (asset expected : GoString) (v : Verdict)
    (transfer : CardanoTransfer) : Verdict :=
  let replies := v.replies ++ (if transfer.sender ≠ addr.requesterAddr then
      ["requester transaction address not found: " ++ printed addr.requesterAddr] else []) ++
    (if transfer.receiver ≠ addr.providerAddr then
      ["provider transaction address not found: " ++ printed addr.providerAddr] else [])
  let amount := assetAmount asset transfer
  if compareDecimals amount expected = some true then ⟨replies, true, v.errorMsg⟩
  else ⟨replies, v.verified, notVerified amount expected⟩

def checkCardano (payment : Payment) (expected : GoString) (chain : ChainReplies) :
    Except String Verdict :=
  match addressOn cardanoBlockchain payment with
  | none => .error "cardano address was not found in payment addresses: %!w(<nil>)"
  | some addr =>
    .ok (chain.transfersForAsset.foldl (checkTransfer addr chain.asset expected) ⟨[], false, ""⟩)

def checkChain (payment : Payment) (req : PaymentValidationRequest) (expected : GoString)
    (chain : ChainReplies) : Except String Verdict :=
  if req.blockchain = ethereumBlockchain then checkEthereum payment req.txHash expected chain
  else if req.blockchain = cardanoBlockchain then checkCardano payment expected chain
  else .error ("unsupported blockchain payment info: " ++ printed req.blockchain)

/-- The error texts of the replies, in the order in which they are sent, and what became of
the stores; `marked` is the payment that was stored as paid. -/
structure Validation where
  replies : List String
  state : Validator
  marked : Option Payment

def Validation.refused (s : Validator) (error : String) : Validation := ⟨[error], s, none⟩

def settle (s : Validator) (now : GoTime) (payment : Payment) (quote : Option PaymentQuote)
    (v : Verdict) : Validation :=
  if v.verified then
    let claimed := quote.bind fun q =>
      (PaymentQuote.markQuoteAsUsed s.quotes now q.quoteID).toOption
    let quotes := claimed.getD s.quotes
    let payment := { payment with paid := true }
    match s.payments.update payment with
    | .error e => ⟨v.replies ++ [e], { s with quotes }, none⟩
    | .ok payments => ⟨v.replies ++ [""], { payments, quotes }, some payment⟩
  else
    ⟨v.replies ++ [if v.errorMsg ≠ "" then v.errorMsg else "not verified"], s, none⟩

/-- `handleContractPaymentValidationRequestFromContractHost` -/
def validatePayment (s : Validator) (now : GoTime) (req : PaymentValidationRequest)
    (chain : ChainReplies) : Validation :=
  match s.payments.getByUniqueID req.uniqueID with
  | none => .refused s ("failed to find payment with unique id: " ++ printed req.uniqueID)
  | some payment =>
    match expectedAmount s req payment with
    | .error e => .refused s e
    | .ok (expected, quote) =>
      match checkChain payment req expected chain with
      | .error e => .refused s e
      | .ok v => settle s now payment quote v

def Passes (payment : Payment) (req : PaymentValidationRequest) (expected : GoString)
    (chain : ChainReplies) : Prop :=
  if req.blockchain = ethereumBlockchain then
    ∃ addr block txs tx, addressOn ethereumBlockchain payment = some addr ∧
      chain.blockNumber = .ok block ∧ chain.erc20Transfers = .ok txs ∧
      (txs.find? fun tx => equalFold tx.txHash req.txHash) = some tx ∧
      equalFold tx.sender addr.requesterAddr = true ∧
      compareDecimals tx.amount expected = some true
  else
    req.blockchain = cardanoBlockchain ∧ ∃ addr, addressOn cardanoBlockchain payment = some addr ∧
        ∃ transfer ∈ chain.transfersForAsset,
          compareDecimals (assetAmount chain.asset transfer) expected = some true

variable {expected : GoString} {payment : Payment} {chain : ChainReplies}
  {req : PaymentValidationRequest} {s : Validator} {now : GoTime} {quote : Option PaymentQuote}

theorem checkTransfers_verified {addr txHash txs} :
    (∃ v, checkTransfers addr txHash expected txs = .ok v ∧ v.verified = true) ↔
      ∃ tx, (txs.find? fun tx => equalFold tx.txHash txHash) = some tx ∧
        equalFold tx.sender addr.requesterAddr = true ∧
        compareDecimals tx.amount expected = some true := by
  unfold checkTransfers
  cases txs.find? fun tx => equalFold tx.txHash txHash with
  | none => simp
  | some tx =>
    cases hsender : equalFold tx.sender addr.requesterAddr with
    | false => simp [hsender]
    | true =>
      by_cases hamount : compareDecimals tx.amount expected = some true
      · simp [hsender, hamount]
      · simp [hsender, hamount]

theorem checkTransfer_verified (addr : PaymentAddressInfo) (asset expected : GoString)
    (v : Verdict) (transfer : CardanoTransfer) :
    (checkTransfer addr asset expected v transfer).verified = true ↔
      v.verified = true ∨ compareDecimals (assetAmount asset transfer) expected = some true := by
  unfold checkTransfer
  dsimp only
  split <;> next h => simp [h]

theorem checkCardano_verified :
    (∃ v, checkCardano payment expected chain = .ok v ∧ v.verified = true) ↔
      ∃ addr, addressOn cardanoBlockchain payment = some addr ∧
        ∃ transfer ∈ chain.transfersForAsset,
          compareDecimals (assetAmount chain.asset transfer) expected = some true := by
  unfold checkCardano
  cases addressOn cardanoBlockchain payment with
  | none => simp
  | some addr =>
    have hloop := GoMap.foldl_iff_exists (fun v : Verdict => v.verified = true)
      (fun t => compareDecimals (assetAmount chain.asset t) expected = some true)
      (checkTransfer_verified addr chain.asset expected) chain.transfersForAsset ⟨[], false, ""⟩
    simpa using hloop

theorem checkChain_verified :
    (∃ v, checkChain payment req expected chain = .ok v ∧ v.verified = true) ↔
      Passes payment req expected chain := by
  unfold checkChain Passes
  split
  · unfold checkEthereum
    match addressOn ethereumBlockchain payment, chain.blockNumber, chain.erc20Transfers with
    | none, _, _ | some _, .error _, _ | some _, .ok _, .error _ => simp
    | some addr, .ok block, .ok txs => simp [checkTransfers_verified]
  split
  · next hcardano => simp [checkCardano_verified, hcardano, true_and]
  · next hcardano => simp [hcardano]

theorem settle_marked {v} (hstored : s.payments.getByUniqueID payment.uniqueID = some payment) :
    (settle s now payment quote v).marked.isSome = true ↔
      v.verified = true ∧ payment.uniqueID ≠ [] := by
  have hpresent : (s.payments.payments.lookup payment.uniqueID).isNone = false := by
    rw [show s.payments.payments.lookup payment.uniqueID = some payment from hstored]
    rfl
  unfold settle PaymentStore.update
  by_cases hverified : v.verified = true
  · by_cases huid : payment.uniqueID = []
    · simp [hverified, huid]
    · simp [hverified, huid, hpresent]
  · simp [hverified]

theorem validatePayment_marked : (validatePayment s now req chain).marked.isSome = true ↔
      ∃ payment expected quote, s.payments.getByUniqueID req.uniqueID = some payment ∧
        expectedAmount s req payment = .ok (expected, quote) ∧ req.uniqueID ≠ [] ∧
        Passes payment req expected chain := by
  unfold validatePayment
  cases hpayment : s.payments.getByUniqueID req.uniqueID with
  | none => simp [Validation.refused]
  | some payment =>
    have huid : payment.uniqueID = req.uniqueID := s.payments.keyed _ _ hpayment
    cases hexpected : expectedAmount s req payment with
    | error e => simp [Validation.refused, hexpected]
    | ok found =>
      obtain ⟨expected, quote⟩ := found
      have hpasses : (∃ v, checkChain payment req expected chain = .ok v ∧ v.verified = true) ↔
          Passes payment req expected chain := checkChain_verified
      rw [← huid] at hpayment ⊢
      simp only [Option.some.injEq, exists_and_left, exists_eq_left', hexpected,
        Except.ok.injEq, Prod.mk.injEq, exists_and_right]
      cases hcheck : checkChain payment req expected chain with
      | error e => simp [Validation.refused, ← hpasses, hcheck]
      | ok v => simp [settle_marked hpayment, ← hpasses, hcheck, and_comm]

def AtLeast (a b : GoString) : Prop :=
  ∃ x y, scanNumber a = some x ∧ scanNumber b = some y ∧ x.atLeast y

def Transferred (payment : Payment) (req : PaymentValidationRequest) (expected : GoString)
    (chain : ChainReplies) : Prop :=
  if req.blockchain = ethereumBlockchain then
    ∃ addr txs, addressOn ethereumBlockchain payment = some addr ∧ chain.erc20Transfers = .ok txs ∧
      ∃ tx ∈ txs, equalFold tx.txHash req.txHash = true ∧
        equalFold tx.sender addr.requesterAddr = true ∧
        equalFold tx.receiver addr.providerAddr = true ∧ AtLeast tx.amount expected
  else
    req.blockchain = cardanoBlockchain ∧ ∃ addr, addressOn cardanoBlockchain payment = some addr ∧
        ∃ transfer ∈ chain.transfersForAsset, transfer.sender = addr.requesterAddr ∧
          transfer.receiver = addr.providerAddr ∧
          AtLeast (assetAmount chain.asset transfer) expected

/-- A quote that a payment may be settled with: made for it, not used, not expired. -/
structure Open (now : GoTime) (uniqueID : GoString) (quote : PaymentQuote) : Prop where
  own : quote.uniqueID = uniqueID
  unused : quote.used = false
  unexpired : ¬ quote.expiresAt < now

def Quoted (now : GoTime) (payment : Payment) (expected : GoString) : Option PaymentQuote → Prop
  | none => expected = payment.amount
  | some quote => Open now payment.uniqueID quote ∧ expected = quote.convertedAmount

def Sound (s : Validator) (now : GoTime) (req : PaymentValidationRequest)
    (chain : ChainReplies) : Prop :=
  (validatePayment s now req chain).marked.isSome = true →
    ∃ payment expected quote, s.payments.getByUniqueID req.uniqueID = some payment ∧
      expectedAmount s req payment = .ok (expected, quote) ∧
      Quoted now payment expected quote ∧ Transferred payment req expected chain

/-- The transfers of the transaction go from the requester to the provider, over plain amounts. On
Ethereum the handler tests the sender itself, and asks the client for transfers to the provider. -/
structure BetweenParties (payment : Payment) (req : PaymentValidationRequest)
    (chain : ChainReplies) : Prop where
  ethereum : req.blockchain = ethereumBlockchain → ∀ addr txs,
    addressOn ethereumBlockchain payment = some addr → chain.erc20Transfers = .ok txs →
    ∀ tx ∈ txs, equalFold tx.txHash req.txHash = true →
      equalFold tx.receiver addr.providerAddr = true ∧ Plain tx.amount
  cardano : req.blockchain = cardanoBlockchain → ∀ addr,
    addressOn cardanoBlockchain payment = some addr → ∀ transfer ∈ chain.transfersForAsset,
      transfer.sender = addr.requesterAddr ∧ transfer.receiver = addr.providerAddr ∧
        Plain (assetAmount chain.asset transfer)

/-- What the handler takes for granted. A quote that the request names is not tested at all, one
that is found for the payment may have expired, and amounts are rounded to 256 bits. -/
structure Granted (s : Validator) (now : GoTime) (req : PaymentValidationRequest)
    (chain : ChainReplies) : Prop where
  named : req.quoteID ≠ [] → ∀ quote, PaymentQuote.getQuote s.quotes req.quoteID = .ok quote →
    Open now req.uniqueID quote ∧ Plain quote.convertedAmount
  found : req.quoteID = [] → ∀ quote,
    PaymentQuote.getQuoteByUniqueID s.quotes req.uniqueID = some quote →
    ¬ quote.expiresAt < now ∧ Plain quote.convertedAmount
  unquoted : req.quoteID = [] → PaymentQuote.getQuoteByUniqueID s.quotes req.uniqueID = none →
    ∀ payment, s.payments.getByUniqueID req.uniqueID = some payment → Plain payment.amount
  payment : ∀ payment, s.payments.getByUniqueID req.uniqueID = some payment →
    BetweenParties payment req chain

theorem quoted_of_granted (h : Granted s now req chain)
    (hpayment : s.payments.getByUniqueID req.uniqueID = some payment)
    (hexpected : expectedAmount s req payment = .ok (expected, quote)) :
    Quoted now payment expected quote ∧ Plain expected := by
  have huid : payment.uniqueID = req.uniqueID := s.payments.keyed _ _ hpayment
  unfold expectedAmount at hexpected
  split at hexpected
  · next hid =>
    split at hexpected
    · simp at hexpected
    · next q hq =>
      obtain ⟨rfl, rfl⟩ := Prod.mk.inj (Except.ok.inj hexpected)
      obtain ⟨hopen, hplain⟩ := h.named hid q hq
      exact ⟨⟨huid ▸ hopen, rfl⟩, hplain⟩
  rename_i hid
  split at hexpected
  · next q hq =>
    obtain ⟨rfl, rfl⟩ := Prod.mk.inj (Except.ok.inj hexpected)
    obtain ⟨hexpires, hplain⟩ := h.found (not_not.mp hid) q hq
    obtain ⟨hown, hunused⟩ := PaymentQuote.of_getQuoteByUniqueID hq
    exact ⟨⟨⟨hown.trans huid.symm, hunused, hexpires⟩, rfl⟩, hplain⟩
  · next hnone =>
    obtain ⟨rfl, rfl⟩ := Prod.mk.inj (Except.ok.inj hexpected)
    exact ⟨rfl, h.unquoted (not_not.mp hid) hnone payment hpayment⟩

theorem atLeast_of_compareDecimals {a} (ha : Plain a) (hb : Plain expected)
    (h : compareDecimals a expected = some true) : AtLeast a expected := by
  obtain ⟨x, hx, h⟩ := Option.bind_eq_some_iff.mp h
  obtain ⟨y, hy, h⟩ := Option.map_eq_some_iff.mp h
  exact ha.atLeast hb hx hy h

theorem transferred_of_passes (hbetween : BetweenParties payment req chain)
    (hplain : Plain expected)
    (hpasses : Passes payment req expected chain) : Transferred payment req expected chain := by
  unfold Passes at hpasses
  unfold Transferred
  split at hpasses
  · next heth =>
    obtain ⟨addr, _, txs, tx, haddr, -, htxs, hfind, hsender, hamount⟩ := hpasses
    have htx := List.mem_of_find?_eq_some hfind
    have hhash : equalFold tx.txHash req.txHash = true := (List.find?_some hfind :)
    obtain ⟨hreceiver, htext⟩ := hbetween.ethereum heth addr txs haddr htxs tx htx hhash
    rw [if_pos heth]
    exact ⟨addr, txs, haddr, htxs, tx, htx, hhash, hsender, hreceiver,
      atLeast_of_compareDecimals htext hplain hamount⟩
  · next heth =>
    obtain ⟨hcardano, addr, haddr, transfer, hin, hamount⟩ := hpasses
    obtain ⟨hsender, hreceiver, htext⟩ := hbetween.cardano hcardano addr haddr transfer hin
    rw [if_neg heth]
    exact ⟨hcardano, addr, haddr, transfer, hin, hsender, hreceiver,
      atLeast_of_compareDecimals htext hplain hamount⟩

def sampleAddress (blockchain : GoString) : PaymentAddressInfo where
  blockchain
  currency := ascii "NTX"
  requesterAddr := ascii "0xaa"
  providerAddr := ascii "0xbb"

def sampleContract : Contract where
  contractDID := ascii "did:contract"
  duration := ⟨.unixEpoch, .unixEpoch + 1⟩
  paymentDetails := {
      paymentModel := .fixedRental
      feePerTimeUnit := []
      timeUnit := []
      fixedRentalAmount := ascii "100"
      paymentPeriod := ascii "hour"
      paymentPeriodCount := 1
      addresses := [sampleAddress ethereumBlockchain, sampleAddress cardanoBlockchain] }
  currentState := .active
  transitions := []
  disableBilling := false
  metadata := ∅

def samplePayment (uniqueID : String) : Payment where
  uniqueID := ascii uniqueID
  contract := sampleContract
  amount := ascii "100"
  paid := false

def sampleQuote : PaymentQuote where
  quoteID := ascii "quote"
  uniqueID := ascii "second"
  convertedAmount := ascii "1"
  expiresAt := .unixEpoch
  used := true
  usedAt := .unixEpoch

def sampleValidator : Validator where
  payments := {
      payments := (AList.insert (ascii "second") (samplePayment "second") ∅).insert
        (ascii "first") (samplePayment "first")
      keyed := by
        intro uniqueID p hp
        rcases List.mem_pair.mp (AList.mem_lookup_iff.mp hp) with heq | heq
        · cases heq
          rfl
        · cases heq
          rfl }
  quotes := {
      docs := [sampleQuote]
      arrange := fun _ l => l
      perm := fun _ _ => List.Perm.refl _ }

/-- One transfer over `amount`, from `sender` to the provider. -/
def sampleReplies (sender : String) (amount : Int) : ChainReplies where
  blockNumber := .ok 50000
  erc20Transfers := .ok
    [⟨ascii sender, ascii "0xbb", intText amount ++ ascii ".000000", ascii "0xhash"⟩]
  asset := ascii "ntx"
  transfersForAsset := [⟨ascii sender, ascii "0xbb", [(ascii "ntx", amount)]⟩]

def sampleValidationRequest (uniqueID quoteID : String) (blockchain : GoString) :
    PaymentValidationRequest where
  txHash := ascii "0xhash"
  uniqueID := ascii uniqueID
  blockchain
  quoteID := ascii quoteID

end DMS.Node

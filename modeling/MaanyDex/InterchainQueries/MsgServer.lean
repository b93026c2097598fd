/-
`x/interchainqueries/keeper/msg_server.go`, and the runs of the module.

`SubmitQueryResult` calls the owner of the query back, so it is cut in two: `submitQueryResult`
is what happens before the call, and `resume` what happens after it.  Between the two the owner
may send any messages.  The transactions of a run are scripts over the messages.

`Effect` says everything that a message can do up to the call; what is shown about the module
is shown from it and from `resume_ok`.
-/
import MaanyDex.InterchainQueries.Keeper
import MaanyDex.Lib.Callbacks

namespace MaanyDex.InterchainQueries

open Run (bind_ok bind2_ok bind3_ok map_ok mapError_ok)

variable {ι : Type} (chain : Chain ι)

/-! ### Registering -/

variable (w : World ι) (msg : MsgRegisterInterchainQuery)

/-- `RegisterInterchainQuery`, up to `SaveQuery`. -/
def newQuery : RegisteredQuery where
  id := w.lastID + 1
  owner := msg.sender
  queryType := msg.queryType
  keys := msg.keys
  transactionsFilter := msg.transactionsFilter
  connectionId := msg.connectionId
  updatePeriod := msg.updatePeriod
  lastSubmittedResultLocalHeight := 0
  lastSubmittedResultRemoteHeight := none
  deposit := w.params.queryDeposit
  submitTimeout := w.params.querySubmitTimeout
  registeredAtHeight := w.height

/-- `AccAddressFromBech32`, with the error of the caller. -/
def parseAddress (s : Bytes) (format : String) : Result Address :=
  match chain.accAddressFromBech32 s with
  | none => .error (.errf format s)
  | some a => .ok a

/-- The client of a connection, with the error of the caller. -/
def getConnection (connectionId : Bytes) (format : String) : Result Bytes :=
  match chain.connection w.outside connectionId with
  | none => .error (.errf format connectionId)
  | some clientID => .ok clientID

def registerInterchainQuery : Result (World ι) := do
  (msg.validate chain w.params).mapError (.wrap "failed to validate MsgRegisterInterchainQuery: ")
  let senderAddr ← parseAddress chain msg.sender "failed to parse address: %s: invalid address"
  ensure (chain.hasContractInfo w.outside senderAddr)
    (.errf "%s is not a contract address: not a contract" msg.sender)
  let _ ← getConnection chain w msg.connectionId "failed to get connection with ID '%s'"
  let w' ← (collectDeposit chain { w with lastID := w.lastID + 1 } (newQuery w msg)).mapError
    (.wrap "failed to collect deposit: ")
  .ok (saveQuery w' (newQuery w msg))

/-! ### Removing -/

/-- `ValidateRemoval`; the sums are sums of `uint64`. -/
def validateRemoval (q : RegisteredQuery) (currentBlock : UInt64) (caller : Bytes) : Result Unit :=
  ensure (q.owner = caller
      || (q.registeredAtHeight + q.submitTimeout < currentBlock
        && q.lastSubmittedResultLocalHeight + q.submitTimeout < currentBlock))
    (.err "only owner can remove a query within its service period: unauthorized")

/-- `GetSigners` of a message with one signer. -/
def getSigner (sender : Bytes) : Result Address :=
  match chain.accAddressFromBech32 sender with
  | none => .error (.panic "decoding bech32 failed")
  | some a => .ok a

def removeInterchainQuery (msg : MsgRemoveInterchainQueryRequest) : Result (World ι) := do
  (msg.validate chain).mapError (.wrap "failed to validate MsgRemoveInterchainQueryRequest: ")
  let query ← (getQueryByID w msg.queryId).mapError (.wrap "failed to get query by query id: ")
  validateRemoval query w.height msg.sender
  let sender ← getSigner chain msg.sender
  mustPayOutDeposit chain (removeQuery w query) query sender

/-! ### Updating -/

variable (query : RegisteredQuery) (msg : MsgUpdateInterchainQueryRequest)

def validateUpdateInterchainQueryParams : Result Unit := do
  let newKvKeysSet := !msg.newKeys.isEmpty
  let newTxFilterSet := !msg.newTransactionsFilter.isEmpty
  ensure (!(isKV query.queryType && !newKvKeysSet && newTxFilterSet))
    (.err ("params to update don't correspond with query type: "
      ++ "can't update TX filter for a KV query: invalid request"))
  ensure (!(isTX query.queryType && !newTxFilterSet && newKvKeysSet))
    (.err ("params to update don't correspond with query type: "
      ++ "can't update KV keys for a TX query: invalid request"))

/-- The query with the parameters of an update. -/
def updatedQuery : RegisteredQuery :=
  { query with
    updatePeriod := if 0 < msg.newUpdatePeriod then msg.newUpdatePeriod else query.updatePeriod
    keys := if msg.newKeys ≠ [] ∧ isKV query.queryType then msg.newKeys else query.keys
    transactionsFilter :=
      if msg.newTransactionsFilter ≠ [] ∧ isTX query.queryType then msg.newTransactionsFilter
      else query.transactionsFilter }

def updateInterchainQuery : Result (World ι) := do
  (msg.validate chain w.params).mapError
    (.wrap "failed to validate MsgUpdateInterchainQueryRequest: ")
  let query ← (getQueryByID w msg.queryId).mapError (.wrap "failed to get query by query id: ")
  ensure (query.owner = msg.sender) (.err "authorization failed: unauthorized")
  validateUpdateInterchainQueryParams query msg
  .ok (saveQuery w (updatedQuery query msg))

/-! ### Submitting -/

/-- Where a handler waits for a contract. -/
inductive Callback where
  /-- `SudoKVQueryResult`. -/
  | kvQueryResult
  /-- `SudoTxQueryResult`; `id` is the one in the query itself. -/
  | txQueryResult (queryID : UInt64) (txHash : Bytes) (id : UInt64)

/-- The branch of `SubmitQueryResult` for key-value results, up to the call. -/
def submitKvResults (clientID : Bytes) (result : QueryResult) : Result (World ι) := do
  ensure (isKV query.queryType)
    (.errf "invalid query result for query type: %s: invalid type" query.queryType)
  (checkLastRemoteHeight query ⟨result.revision, result.height⟩).mapError
    (.wrap "height is invalid: ")
  ensure (result.kvResults.length = query.keys.length)
    (.err ("KV keys length from result is not equal to registered query keys length: "
      ++ "invalid result"))
  let root ← (chain.consensusRoot w.outside query.connectionId result.revision
    (result.height + 1)).mapError (.wrap "failed to get consensus state: ")
  let specs ← chain.proofSpecs w.outside clientID
  let kvResults ← (result.kvResults.zip query.keys).mapM fun (result, key) =>
    verifyKvResult chain specs root result key
  .ok (saveKVQueryResult w query { result with kvResults := kvResults })

/-- The branch of `SubmitQueryResult` for transactions, up to the call. -/
def submitTx (queryID : UInt64) (query : RegisteredQuery) (queryOwner : Address)
    (clientID : Bytes) (block : Block) (tx : TxValue) :
    Result (World ι × Option Callback) := do
  ensure (isTX query.queryType)
    (.errf "invalid query result for query type: %s: invalid type" query.queryType)
  let processed ← (processBlock chain w queryOwner queryID clientID block tx).mapError
    (.wrap "failed to ProcessBlock: ")
  if processed.2 then
    .ok (processed.1, some (.txQueryResult queryID (chain.txHash tx.data) query.id))
  else
    (updateLastLocalHeight processed.1 query.id w.height).map (·, none)

/-- `SubmitQueryResult` after the branch for key-value results. -/
def submitBlock (queryID : UInt64) (query : RegisteredQuery) (queryOwner : Address)
    (clientID : Bytes) (result : QueryResult) : Result (World ι × Option Callback) :=
  match result.block with
  | none => .ok (w, none)
  | some block =>
    match block.tx with
    | none => .ok (w, none)
    | some tx => submitTx chain w queryID query queryOwner clientID block tx

/-- `SubmitQueryResult` up to the call of the owner. -/
def submitQueryResult (msg : MsgSubmitQueryResult) : Result (World ι × Option Callback) := do
  let result ← (msg.validate chain).mapError (.wrap "failed to validate MsgSubmitQueryResult: ")
  let query ← (getQueryByID w msg.queryId).mapError (.wrap "failed to get query by id: ")
  let clientID ← getConnection chain w query.connectionId
    "registered query has invalid connection id: %s: invalid connection id"
  let queryOwner ← parseAddress chain query.owner "failed to decode owner contract address (%s)"
  if result.kvResults = [] then submitBlock chain w msg.queryId query queryOwner clientID result
  else do
    let w ← submitKvResults chain w query clientID result
    if result.allowKvCallbacks then do
      ensure (chain.hasContractInfo w.outside queryOwner)
        (.errf "contract %s rejected KV query result: not a contract address" query.owner)
      .ok (w, some .kvQueryResult)
    else submitBlock chain w msg.queryId query queryOwner clientID result

/-- `SubmitQueryResult` after the call of the owner. -/
def resume : Callback → World ι → Result (World ι)
  | .kvQueryResult, w => .ok w
  | .txQueryResult queryID txHash id, w =>
    (updateLastLocalHeight (saveTransactionAsProcessed w queryID txHash) id w.height).mapError
      (.wrap "failed to update last local height for a result: ")

/-! ### Parameters -/

def updateParams (req : MsgUpdateParams) : Result (World ι) := do
  ensure (chain.accAddressFromBech32 req.authority).isSome
    (.err "failed to validate MsgUpdateParams: authority is invalid")
  ensure (chain.authority = req.authority)
    (.errf "invalid authority; got %s: invalid request" req.authority)
  .ok { w with params := req.params }

/-! ### Runs -/

/-- The messages of a run, and what else can happen between them. -/
inductive Msg (ι : Type) where
  | register (msg : MsgRegisterInterchainQuery)
  | remove (msg : MsgRemoveInterchainQueryRequest)
  | update (msg : MsgUpdateInterchainQueryRequest)
  | submit (msg : MsgSubmitQueryResult)
  | updateParams (msg : MsgUpdateParams)
  /-- Another module calls the keeper. -/
  | saveKVQueryResult (queryID : UInt64) (result : QueryResult)
  /-- Another module calls the keeper. -/
  | updateLastRemoteHeight (queryID : UInt64) (height : Height)
  /-- Somebody else moves coins. -/
  | bankSend (src dst : Address) (coins : Coins)
  /-- Other modules do something. -/
  | elsewhere (outside : ι)

/-- The signature of a message. -/
def signed (sender : Bytes) : Result Unit :=
  ensure ((chain.accAddressFromBech32 sender).any canSign) (.err "unauthorized")

/-- Handle a message up to the call of a contract. -/
def enter : Msg ι → Result (World ι × Option Callback)
  | .register msg => do
      signed chain msg.sender
      (registerInterchainQuery chain w msg).map (·, none)
  | .remove msg => do
      signed chain msg.sender
      (removeInterchainQuery chain w msg).map (·, none)
  | .update msg => do
      signed chain msg.sender
      (updateInterchainQuery chain w msg).map (·, none)
  | .submit msg => do
      signed chain msg.sender
      submitQueryResult chain w msg
  | .updateParams msg => do
      signed chain msg.authority
      (updateParams chain w msg).map (·, none)
  | .saveKVQueryResult queryID result => (saveKVQueryResultByID w queryID result).map (·, none)
  | .updateLastRemoteHeight queryID height =>
    (updateLastRemoteHeight w queryID height).map (·, none)
  | .bankSend src dst coins => do
      ensure (src ≠ depositAccount) (.err "unauthorized")
      let bank ← w.bank.sendCoins chain.toSdk src dst coins
      .ok ({ w with bank := bank }, none)
  | .elsewhere outside => .ok ({ w with outside := outside }, none)

/-- The module and the contracts that it calls. -/
def system : Callbacks.System (World ι) (Msg ι) Callback Fault where
  enter := enter chain
  leave := resume
  rejected := .err "contract failed"
  failed
    | .kvQueryResult => .wrap "contract rejected KV query result: failed to sudo: "
    | .txQueryResult _ _ _ => .wrap "contract rejected transaction query result: failed to sudo: "
  fatal
    | .panic _ => true
    | _ => false

inductive Event (ι : Type) where
  /-- A transaction: everything that its messages make contracts do is in its script. -/
  | tx (script : Callbacks.Script (Msg ι))
  | endBlock

/-- One transaction, or the end of a block. -/
def step : Event ι → Result (World ι)
  | .tx script => Callbacks.exec (system chain) script w
  | .endBlock => do
      let w ← txQueriesCleanup w
      .ok { w with height := w.height + 1 }

/-- A chain on which no query was registered. -/
structure Initial (w : World ι) : Prop where
  lastID : w.lastID = 0
  queries : w.queries = ∅
  results : w.results = ∅
  store : w.store = ∅
  collected : w.collected = []
  paid : w.paid = []
  delivered : w.delivered = []

/-! ### What messages do -/

variable {chain}

/-- The entries of a result are those that the query asks for, in this order. -/
def Answers (result : QueryResult) : Prop :=
  result.kvResults.map (fun v => (⟨v.storagePrefix, v.key⟩ : KVKey)) = query.keys

/-- What a message does up to the call of a contract. -/
inductive Effect (chain : Chain ι) (w : World ι) : Msg ι → World ι → Option Callback → Prop
  /-- A query is registered and its deposit is collected. -/
  | register {msg : MsgRegisterInterchainQuery} {owner : Address} {bank : Bank} :
      chain.accAddressFromBech32 msg.sender = some owner → canSign owner = true →
      w.bank.sendCoins chain.toSdk owner depositAccount w.params.queryDeposit = .ok bank →
      Effect chain w (.register msg)
        { w with
          bank := bank
          lastID := w.lastID + 1
          queries := w.queries.insert (w.lastID + 1) (newQuery w msg)
          collected := (w.lastID + 1, w.params.queryDeposit) :: w.collected } none
  /-- A query is removed and its deposit is paid to the remover. -/
  | remove {msg : MsgRemoveInterchainQueryRequest} {query : RegisteredQuery} {remover : Address}
      {bank : Bank} :
      w.queries.lookup msg.queryId = some query →
      chain.accAddressFromBech32 msg.sender = some remover → canSign remover = true →
      w.bank.sendCoins chain.toSdk depositAccount remover query.deposit = .ok bank →
      Effect chain w (.remove msg)
        { removeQuery w query with
          bank := bank
          paid := (query.id, query.deposit, remover) :: w.paid } none
  /-- A query gets new parameters. -/
  | update {msg : MsgUpdateInterchainQueryRequest} {query : RegisteredQuery} :
      w.queries.lookup msg.queryId = some query →
      Effect chain w (.update msg) (saveQuery w (updatedQuery query msg)) none
  /-- A key-value result is stored, and the owner is called or not. -/
  | kvResult {msg : MsgSubmitQueryResult} {query : RegisteredQuery}
      {submitted result : QueryResult} {called : Option Callback} :
      msg.result = some submitted → submitted.kvResults ≠ [] →
      w.queries.lookup msg.queryId = some query → isKV query.queryType = true →
      checkLastRemoteHeight query ⟨result.revision, result.height⟩ = .ok () →
      Answers query result → called = none ∨ called = some .kvQueryResult →
      Effect chain w (.submit msg) (saveKVQueryResult w query result) called
  /-- There is no transaction in the block. -/
  | nothing {msg : MsgSubmitQueryResult} {result : QueryResult} :
      msg.result = some result → result.kvResults = [] →
      (result.block.bind fun block => block.tx) = none → Effect chain w (.submit msg) w none
  /-- The transaction is processed already. -/
  | processed {msg : MsgSubmitQueryResult} {query query' : RegisteredQuery} {result : QueryResult}
      {block : Block} {tx : TxValue} {outside : ι} :
      w.queries.lookup msg.queryId = some query → isTX query.queryType = true →
      w.queries.lookup query.id = some query' → msg.result = some result →
      result.kvResults = [] → result.block = some block → block.tx = some tx →
      checkTransactionIsAlreadyProcessed w msg.queryId (chain.txHash tx.data) = true →
      Effect chain w (.submit msg)
        (saveQuery { w with outside := outside }
          { query' with lastSubmittedResultLocalHeight := w.height }) none
  /-- The transaction is delivered to the owner. -/
  | deliver {msg : MsgSubmitQueryResult} {query : RegisteredQuery} {result : QueryResult}
      {block : Block} {tx : TxValue} {outside : ι} :
      msg.result = some result → result.kvResults = [] → result.block = some block →
      block.tx = some tx → w.queries.lookup msg.queryId = some query → isTX query.queryType = true →
      checkTransactionIsAlreadyProcessed w msg.queryId (chain.txHash tx.data) = false →
      Effect chain w (.submit msg)
        { w with
          outside := outside
          delivered := (msg.queryId, chain.txHash tx.data) :: w.delivered }
        (some (.txQueryResult msg.queryId (chain.txHash tx.data) query.id))
  | updateParams {msg : MsgUpdateParams} :
      Effect chain w (.updateParams msg) { w with params := msg.params } none
  /-- A result is stored as it is. -/
  | saveKVQueryResult {queryID : UInt64} {query : RegisteredQuery} {result : QueryResult} :
      w.queries.lookup queryID = some query →
      Effect chain w (.saveKVQueryResult queryID result) (saveKVQueryResult w query result) none
  /-- A query gets a new remote height. -/
  | updateLastRemoteHeight {queryID : UInt64} {query : RegisteredQuery} {height : Height} :
      w.queries.lookup queryID = some query → checkLastRemoteHeight query height = .ok () →
      Effect chain w (.updateLastRemoteHeight queryID height)
        (saveQuery w { query with lastSubmittedResultRemoteHeight := some height }) none
  | bankSend {src dst : Address} {coins : Coins} {bank : Bank} :
      src ≠ depositAccount → w.bank.sendCoins chain.toSdk src dst coins = .ok bank →
      Effect chain w (.bankSend src dst coins) { w with bank := bank } none
  | elsewhere {outside : ι} :
      Effect chain w (.elsewhere outside) { w with outside := outside } none

variable {w w' : World ι} {called : Option Callback}

lemma not_isTX_of_isKV {queryType : Bytes} (h : isKV queryType = true) :
    isTX queryType = false := by
  rw [of_decide_eq_true h]
  decide

variable {id : UInt64} {query : RegisteredQuery}

lemma getQueryByID_ok (h : getQueryByID w id = .ok query) : w.queries.lookup id = some query := by
  unfold getQueryByID at h
  split at h
  · cases h
  · cases h
    assumption

lemma getRegisteredQueryByID_ok
    (h : getRegisteredQueryByID w id = .ok query) : w.queries.lookup id = some query := by
  unfold getRegisteredQueryByID at h
  split at h
  · cases h
  · cases h
    assumption

lemma updateLastLocalHeight_ok {height : UInt64}
    (h : updateLastLocalHeight w id height = .ok w') :
    ∃ query, w.queries.lookup id = some query
      ∧ w' = saveQuery w { query with lastSubmittedResultLocalHeight := height } := by
  obtain ⟨query, hquery, h⟩ := bind_ok h
  cases h
  exact ⟨query, getRegisteredQueryByID_ok (mapError_ok hquery), rfl⟩

variable {u : Unit}

lemma signed_ok {sender : Bytes} (h : signed chain sender = .ok u) :
    ∃ a, chain.accAddressFromBech32 sender = some a ∧ canSign a = true := by
  have hany := ensure_ok h
  rcases ha : chain.accAddressFromBech32 sender with - | a
  · rw [ha] at hany
    cases hany
  · rw [ha] at hany
    exact ⟨a, rfl, hany⟩

lemma registerInterchainQuery_ok {msg : MsgRegisterInterchainQuery}
    (hsigned : signed chain msg.sender = .ok u)
    (h : registerInterchainQuery chain w msg = .ok w') : Effect chain w (.register msg) w' none := by
  obtain ⟨owner, howner, hsign⟩ := signed_ok hsigned
  obtain ⟨_, _, _, -, -, -, h⟩ := bind3_ok h
  obtain ⟨_, w₁, -, hcollect, h⟩ := bind2_ok h
  cases h
  have hcollect := mapError_ok hcollect
  unfold collectDeposit at hcollect
  have howner' : chain.accAddressFromBech32 (newQuery w msg).owner = some owner := howner
  rw [howner'] at hcollect
  obtain ⟨bank, hbank, hcollect⟩ := bind_ok hcollect
  cases hcollect
  exact .register howner hsign hbank

lemma removeInterchainQuery_ok {msg : MsgRemoveInterchainQueryRequest}
    (hsigned : signed chain msg.sender = .ok u)
    (h : removeInterchainQuery chain w msg = .ok w') : Effect chain w (.remove msg) w' none := by
  obtain ⟨remover, hremover, hsign⟩ := signed_ok hsigned
  obtain ⟨_, query, _, -, hquery, -, h⟩ := bind3_ok h
  obtain ⟨sender, bank, hsender, hbank, h⟩ := bind2_ok h
  cases h
  have hsender' : sender = remover := by
    unfold getSigner at hsender
    rw [hremover] at hsender
    exact (Except.ok.inj hsender).symm
  subst hsender'
  have hpaid := mapError_ok hbank
  unfold Bank.sendCoinsFromModuleToAccount at hpaid
  rw [chain.blockedAddr_of_canSign sender hsign] at hpaid
  have hkept : (removeQuery w query).bank = w.bank ∧ (removeQuery w query).paid = w.paid := by
    unfold removeQuery
    dsimp only
    split
    · exact ⟨rfl, rfl⟩
    · split
      · exact ⟨rfl, rfl⟩
      · exact ⟨rfl, rfl⟩
  rw [hkept.1] at hpaid
  rw [hkept.2]
  exact .remove (getQueryByID_ok (mapError_ok hquery)) hremover hsign hpaid

lemma updateInterchainQuery_ok {msg : MsgUpdateInterchainQueryRequest}
    (h : updateInterchainQuery chain w msg = .ok w') : Effect chain w (.update msg) w' none := by
  obtain ⟨_, query, -, hquery, h⟩ := bind2_ok h
  obtain ⟨_, _, -, -, h⟩ := bind2_ok h
  cases h
  exact .update (getQueryByID_ok (mapError_ok hquery))

variable {owner : Address} {queryID : UInt64} {clientID : Bytes}

lemma processBlock_ok {block : Block} {tx : TxValue} {r : World ι × Bool}
    (h : processBlock chain w owner queryID clientID block tx = .ok r) :
    ∃ outside, checkTransactionIsAlreadyProcessed w queryID (chain.txHash tx.data) = true
        ∧ r = ({ w with outside := outside }, false)
      ∨ checkTransactionIsAlreadyProcessed w queryID (chain.txHash tx.data) = false
        ∧ r = ({ w with
          outside := outside
          delivered := (queryID, chain.txHash tx.data) :: w.delivered }, true) := by
  obtain ⟨_, _, outside, -, -, -, h⟩ := bind3_ok h
  obtain ⟨_, _, -, -, h⟩ := bind2_ok h
  refine ⟨outside, ?_⟩
  rcases hdone : checkTransactionIsAlreadyProcessed w queryID (chain.txHash tx.data) with - | -
  · rw [hdone] at h
    obtain ⟨w₁, hdeliver, rfl⟩ := map_ok h
    obtain ⟨_, _, -, -, hdeliver⟩ := bind2_ok hdeliver
    cases hdeliver
    exact .inr ⟨rfl, rfl⟩
  · rw [hdone] at h
    cases h
    exact .inl ⟨rfl, rfl⟩

variable {msg : MsgSubmitQueryResult} {result : QueryResult}

lemma submitBlock_ok (hresult : msg.result = some result)
    (hkv : result.kvResults = []) (hquery : w.queries.lookup msg.queryId = some query)
    (h : submitBlock chain w msg.queryId query owner clientID result = .ok (w', called)) :
    Effect chain w (.submit msg) w' called := by
  unfold submitBlock at h
  rcases hblock : result.block with - | block
  · rw [hblock] at h
    cases h
    exact .nothing hresult hkv (by rw [hblock]; rfl)
  · rw [hblock] at h
    rcases htx : block.tx with - | tx
    · simp only [htx] at h
      cases h
      exact .nothing hresult hkv (by rw [hblock]; exact htx)
    · simp only [htx] at h
      obtain ⟨_, r, htype, hr, h⟩ := bind2_ok h
      obtain ⟨outside, ⟨hdone, rfl⟩ | ⟨hdone, rfl⟩⟩ := processBlock_ok (mapError_ok hr)
      · obtain ⟨w₁, hheight, heq⟩ := map_ok h
        cases heq
        obtain ⟨query', hquery', rfl⟩ := updateLastLocalHeight_ok hheight
        exact .processed hquery (ensure_ok htype) hquery' hresult hkv hblock htx hdone
      · cases h
        exact .deliver hresult hkv hblock htx hquery (ensure_ok htype) hdone

lemma submitBlock_of_isKV (htype : isKV query.queryType = true)
    (h : submitBlock chain w queryID query owner clientID result = .ok (w', called)) :
    w' = w ∧ called = none := by
  unfold submitBlock at h
  split at h
  · cases h
    exact ⟨rfl, rfl⟩
  · split at h
    · cases h
      exact ⟨rfl, rfl⟩
    · obtain ⟨_, htx, -⟩ := bind_ok h
      have htx' := ensure_ok htx
      rw [not_isTX_of_isKV htype] at htx'
      cases htx'

variable {specs root : Bytes}

lemma verifyKvResult_ok {value value' : StorageValue} {key : KVKey}
    (h : verifyKvResult chain specs root value key = .ok value') :
    (⟨value'.storagePrefix, value'.key⟩ : KVKey) = key := by
  obtain ⟨proof, _, _, -, hkey, hpath, h⟩ := bind3_ok h
  have hkey : value.key = key.key := of_decide_eq_true (ensure_ok hkey)
  have hpath : value.storagePrefix = key.path := of_decide_eq_true (ensure_ok hpath)
  have hkept : value'.storagePrefix = value.storagePrefix ∧ value'.key = value.key := by
    split at h
    · cases h
    · split at h
      · obtain ⟨_, -, h⟩ := bind_ok h
        cases h
        exact ⟨rfl, rfl⟩
      · obtain ⟨_, -, h⟩ := bind_ok h
        cases h
        exact ⟨rfl, rfl⟩
      · cases h
  rw [hkept.1, hkept.2, hkey, hpath]

lemma verifyKvResults_ok {values values' : List StorageValue}
    {keys : List KVKey} (hlength : values.length = keys.length)
    (h : (values.zip keys).mapM (fun p => verifyKvResult chain specs root p.1 p.2) = .ok values') :
    values'.map (fun v => (⟨v.storagePrefix, v.key⟩ : KVKey)) = keys := by
  have hall := Run.mapM_ok h
  have hsnd : (values.zip keys).map Prod.snd = keys := List.map_snd_zip hlength.ge
  rw [← hsnd]
  clear h hsnd hlength
  generalize values.zip keys = pairs at hall
  induction hall with
  | nil => rfl
  | cons hp _ ih => rw [List.map_cons, List.map_cons, ih, verifyKvResult_ok hp]

lemma submitKvResults_ok (h : submitKvResults chain w query clientID result = .ok w') :
    ∃ stored, w' = saveKVQueryResult w query stored ∧ isKV query.queryType = true
      ∧ checkLastRemoteHeight query ⟨stored.revision, stored.height⟩ = .ok ()
      ∧ Answers query stored := by
  obtain ⟨_, _, _, htype, hheight, hlength, h⟩ := bind3_ok h
  obtain ⟨root, specs, values, -, -, hvalues, h⟩ := bind3_ok h
  cases h
  refine ⟨_, rfl, ensure_ok htype, mapError_ok hheight, ?_⟩
  exact verifyKvResults_ok (of_decide_eq_true (ensure_ok hlength)) hvalues

lemma submitQueryResult_ok
    (h : submitQueryResult chain w msg = .ok (w', called)) : Effect chain w (.submit msg) w' called := by
  obtain ⟨result, query, hresult, hquery, h⟩ := bind2_ok h
  obtain ⟨clientID, owner, -, -, h⟩ := bind2_ok h
  have hquery := getQueryByID_ok (mapError_ok hquery)
  have hresult : msg.result = some result := by
    have hvalid := mapError_ok hresult
    unfold MsgSubmitQueryResult.validate at hvalid
    split at hvalid
    · cases hvalid
    · obtain ⟨_, _, _, -, -, -, hvalid⟩ := bind3_ok hvalid
      cases hvalid
      assumption
  by_cases hkv : result.kvResults = []
  · rw [if_pos hkv] at h
    exact submitBlock_ok hresult hkv hquery h
  · rw [if_neg hkv] at h
    obtain ⟨w₁, hstored, h⟩ := bind_ok h
    obtain ⟨stored, rfl, htype, hheight, hanswers⟩ := submitKvResults_ok hstored
    split at h
    · obtain ⟨_, -, h⟩ := bind_ok h
      cases h
      exact .kvResult hresult hkv hquery htype hheight hanswers (.inr rfl)
    · obtain ⟨rfl, rfl⟩ := submitBlock_of_isKV htype h
      exact .kvResult hresult hkv hquery htype hheight hanswers (.inl rfl)

/-- **What messages do**, up to the call of a contract. -/
lemma enter_ok {msg : Msg ι} (h : enter chain w msg = .ok (w', called)) :
    Effect chain w msg w' called := by
  cases msg with
  | register msg =>
    obtain ⟨_, hsigned, h⟩ := bind_ok h
    obtain ⟨w₁, hw₁, heq⟩ := map_ok h
    cases heq
    exact registerInterchainQuery_ok hsigned hw₁
  | remove msg =>
    obtain ⟨_, hsigned, h⟩ := bind_ok h
    obtain ⟨w₁, hw₁, heq⟩ := map_ok h
    cases heq
    exact removeInterchainQuery_ok hsigned hw₁
  | update msg =>
    obtain ⟨_, -, h⟩ := bind_ok h
    obtain ⟨w₁, hw₁, heq⟩ := map_ok h
    cases heq
    exact updateInterchainQuery_ok hw₁
  | submit msg =>
    obtain ⟨_, -, h⟩ := bind_ok h
    exact submitQueryResult_ok h
  | updateParams msg =>
    obtain ⟨_, -, h⟩ := bind_ok h
    obtain ⟨w₁, hw₁, heq⟩ := map_ok h
    cases heq
    obtain ⟨_, _, -, -, hw₁⟩ := bind2_ok hw₁
    cases hw₁
    exact .updateParams
  | saveKVQueryResult queryID result =>
    obtain ⟨w₁, hw₁, heq⟩ := map_ok h
    cases heq
    obtain ⟨query, hquery, hw₁⟩ := bind_ok hw₁
    cases hw₁
    exact .saveKVQueryResult (getRegisteredQueryByID_ok (mapError_ok hquery))
  | updateLastRemoteHeight queryID height =>
    obtain ⟨w₁, hw₁, heq⟩ := map_ok h
    cases heq
    obtain ⟨query, _, hquery, hheight, hw₁⟩ := bind2_ok hw₁
    cases hw₁
    exact .updateLastRemoteHeight (getRegisteredQueryByID_ok (mapError_ok hquery))
      (mapError_ok hheight)
  | bankSend src dst coins =>
    obtain ⟨_, bank, hsrc, hbank, h⟩ := bind2_ok h
    cases h
    exact .bankSend (of_decide_eq_true (ensure_ok hsrc)) hbank
  | elsewhere outside =>
    cases h
    exact .elsewhere

/-- **What is done after a call**: nothing, or the transaction is marked and the query, which
still has to be there, gets its new height. -/
lemma resume_ok {callback : Callback} (h : resume callback w = .ok w') :
    callback = .kvQueryResult ∧ w' = w
      ∨ ∃ queryID txHash id query, callback = .txQueryResult queryID txHash id
        ∧ w.queries.lookup id = some query
        ∧ w' = saveQuery (saveTransactionAsProcessed w queryID txHash)
          { query with lastSubmittedResultLocalHeight := w.height } := by
  rcases callback with - | ⟨queryID, txHash, id⟩
  · cases h
    exact .inl ⟨rfl, rfl⟩
  · obtain ⟨query, hquery, rfl⟩ := updateLastLocalHeight_ok (mapError_ok h)
    exact .inr ⟨queryID, txHash, id, query, rfl, hquery, rfl⟩

end MaanyDex.InterchainQueries

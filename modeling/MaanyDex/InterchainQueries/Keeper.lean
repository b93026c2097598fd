/-
`x/interchainqueries/keeper`: the registry of queries, their results, the hashes of processed
transactions and their cleanup, deposits, and the verification of blocks.

Queries and results are kept by their id, because their keys are a tag and eight bytes.  The
hashes and the removal marks are in a store of bytes, since the cleanup walks over them in the
order of their keys.
-/
import MaanyDex.InterchainQueries.Types

namespace MaanyDex.InterchainQueries

/-- The state of the module and what it works on.  The last three are kept for the record: the
deposits that were collected, those that were paid and to whom, and the deliveries
(`SudoTxQueryResult`) with the hashes of their transactions. -/
structure World (ι : Type) where
  /-- The other modules. -/
  outside : ι
  bank : Bank
  params : Params
  /-- `LastRegisteredQueryIDKey`. -/
  lastID : UInt64
  /-- `RegisteredQueryKey`. -/
  queries : AList fun _ : UInt64 => RegisteredQuery
  /-- `RegisteredQueryResultKey`. -/
  results : AList fun _ : UInt64 => QueryResult
  /-- `SubmittedTxKey` and `TxQueryToRemoveKey`. -/
  store : KVStore
  /-- The height of the block. -/
  height : UInt64
  collected : List (UInt64 × Coins)
  paid : List (UInt64 × Coins × Address)
  delivered : List (UInt64 × Bytes)

variable {ι : Type} (chain : Chain ι)

/-! ### Queries -/

variable (w : World ι) (query : RegisteredQuery)

def saveQuery : World ι :=
  { w with queries := w.queries.insert query.id query }

def getQueryByID (id : UInt64) : Result RegisteredQuery :=
  match w.queries.lookup id with
  | none => .error
      (.err ("there is no query with id: " ++ toString id.toNat ++ ": invalid query id"))
  | some query => .ok query

variable (queryID : UInt64)

def getRegisteredQueryByID : Result RegisteredQuery :=
  match w.queries.lookup queryID with
  | none => .error
      (.err ("query with ID " ++ toString queryID.toNat ++ " not found: invalid query id"))
  | some query => .ok query

def removeQuery : World ι :=
  let w := { w with queries := w.queries.erase query.id }
  if isKV query.queryType then { w with results := w.results.erase query.id }
  else if isTX query.queryType then
    { w with store := w.store.set (getTxQueryToRemoveByIDKey query.id) [] }
  else w

def updateLastLocalHeight (queryID newLocalHeight : UInt64) : Result (World ι) := do
  let query ← (getRegisteredQueryByID w queryID).mapError (.wrap "failed to get registered query: ")
  .ok (saveQuery w { query with lastSubmittedResultLocalHeight := newLocalHeight })

def checkLastRemoteHeight (height : Height) : Result Unit :=
  ensure (!query.lastSubmittedResultRemoteHeight.any (·.gte height))
    (.err "result's remote height is less than or equal to last result's remote height")

variable (result : QueryResult)

def clearQueryResult : QueryResult where
  kvResults := result.kvResults.map fun v => { v with proof := [] }
  block := none
  height := result.height
  revision := result.revision
  allowKvCallbacks := false

def saveKVQueryResult : World ι :=
  saveQuery { w with results := w.results.insert query.id (clearQueryResult result) }
    { query with
      lastSubmittedResultRemoteHeight := some ⟨result.revision, result.height⟩
      lastSubmittedResultLocalHeight := w.height }

/-- `SaveKVQueryResult`; the height of the result is not checked. -/
def saveKVQueryResultByID : Result (World ι) := do
  let query ← (getRegisteredQueryByID w queryID).mapError (.wrap "failed to get registered query: ")
  .ok (saveKVQueryResult w query result)

def updateLastRemoteHeight (newRemoteHeight : Height) : Result (World ι) := do
  let query ← (getRegisteredQueryByID w queryID).mapError (.wrap "failed to get registered query: ")
  (checkLastRemoteHeight query newRemoteHeight).mapError (.wrap "height is invalid: ")
  .ok (saveQuery w { query with lastSubmittedResultRemoteHeight := some newRemoteHeight })

/-! ### Processed transactions -/

def saveTransactionAsProcessed (txHash : Bytes) : World ι :=
  { w with store := w.store.set (getSubmittedTransactionIDForQueryKey queryID txHash) [] }

def checkTransactionIsAlreadyProcessed (txHash : Bytes) : Bool :=
  w.store.has (getSubmittedTransactionIDForQueryKey queryID txHash)

structure TxQueryToRemove where
  id : UInt64
  hashes : List Bytes
  completeRemoval : Bool
  deriving DecidableEq

/-- `make` of a slice with the given capacity: at most 2⁴⁸ bytes can be asked for. -/
def makeslice (elementSize capacity : ℕ) : Result Unit :=
  ensure (elementSize * capacity ≤ 2 ^ 48) (.panic "runtime error: makeslice: cap out of range")

/-- The first `limit` of the entries that an iterator visits, or all if `limit` is zero. -/
def takeLimit {α : Type} (limit : UInt64) (l : List α) : List α :=
  if limit = 0 then l else l.take limit.toNat

variable (store : KVStore)

def getTxQueriesToRemove (limit : UInt64) : List UInt64 :=
  takeLimit limit ((store.iterate txQueryToRemoveKey).map fun e =>
    UInt64.ofNat (Encoding.ofBigEndian (e.1.drop txQueryToRemoveKey.length)))

/-- `calculateTxQueryRemoval`.  The iterator still stands on an entry when the limit is
reached, so the removal is not complete then. -/
def calculateTxQueryRemoval (queryID limit : UInt64) : TxQueryToRemove :=
  let keyPrefix := getSubmittedTransactionIDForQueryKeyPrefix queryID
  let hashes := (store.iterate keyPrefix).map fun e => e.1.drop keyPrefix.length
  ⟨queryID, takeLimit limit hashes, limit = 0 || hashes.length < limit.toNat⟩

/-- The first loop of `TxQueriesCleanup`. -/
def txQueriesToRm (store : KVStore) (limited : Bool) :
    UInt64 → List UInt64 → Result (List TxQueryToRemove)
  | _, [] => .ok []
  | rmLimit, queryID :: queryIDs => do
      makeslice 24 rmLimit.toNat
      let queryToRm := calculateTxQueryRemoval store queryID rmLimit
      let rest := rmLimit - UInt64.ofNat queryToRm.hashes.length
      if limited ∧ rest = 0 then .ok [queryToRm]
      else do
        let more ← txQueriesToRm store limited (if limited then rest else rmLimit) queryIDs
        .ok (queryToRm :: more)

/-- One round of the second loop of `TxQueriesCleanup`. -/
def removeTxQuery (query : TxQueryToRemove) : KVStore :=
  let store := query.hashes.foldl (fun store txHash =>
    store.delete (getSubmittedTransactionIDForQueryKey query.id txHash)) store
  if query.completeRemoval then store.delete (getTxQueryToRemoveByIDKey query.id) else store

def txQueriesCleanup : Result (World ι) := do
  let rmLimit := w.params.txQueryRemovalLimit
  makeslice 8 (rmLimit.toNat / 10)
  let queries ← txQueriesToRm w.store (rmLimit ≠ 0) rmLimit (getTxQueriesToRemove w.store rmLimit)
  .ok { w with store := queries.foldl removeTxQuery w.store }

/-! ### Deposits -/

def collectDeposit : Result (World ι) :=
  match chain.accAddressFromBech32 query.owner with
  | none => .error (.panic "failed to decode owner address: invalid address")
  | some owner => do
      let bank ← w.bank.sendCoinsFromAccountToModule chain.toSdk owner moduleName query.deposit
      .ok { w with bank := bank, collected := (query.id, query.deposit) :: w.collected }

/-- `MustPayOutDeposit`, for the deposit of a query. -/
def mustPayOutDeposit (sender : Address) : Result (World ι) := do
  let bank ← (w.bank.sendCoinsFromModuleToAccount chain.toSdk moduleName sender
    query.deposit).mapError (.raise "")
  .ok { w with bank := bank, paid := (query.id, query.deposit, sender) :: w.paid }

/-! ### Blocks -/

def checkHeadersOrder (header nextHeader : Header) : Result Unit := do
  ensure (nextHeader.height = header.height + 1)
    (.err "nextHeader.Height is not actually next for a header with height: header is invalid")
  (chain.headerFromProto header).mapError
    (.wrap "failed to get tendermint header from proto header: ")
  (chain.headerFromProto nextHeader).mapError
    (.wrap "failed to get tendermint header from proto header: ")
  ensure (header.nextValidatorsHash = nextHeader.validatorsHash)
    (.err "header.NextValidatorsHash is not equal to nextHeader.ValidatorsHash: header is invalid")
  ensure (chain.headerHash header = nextHeader.lastBlockHash)
    (.err "header.Hash() is not equal to nextHeader.LastBlockID.Hash: header is invalid")

/-- The cast of a client message to a Tendermint header. -/
def castHeader (desc : String) : ClientMessage → Result Header
  | .tendermint header => .ok header
  | .other _ => .error (.err (desc ++ ": invalid type"))

def verifyHeaders (outside : ι) (clientID : Bytes) (header nextHeader : ClientMessage) :
    Result ι := do
  let outside ← (chain.updateClient outside clientID header).mapError
    (.wrap "failed to update client: ")
  let outside ← (chain.updateClient outside clientID nextHeader).mapError
    (.wrap "failed to update client: ")
  let tmHeader ← castHeader "failed to cast header to tendermint Header" header
  let tmNextHeader ← castHeader "failed to cast header to tendermint Header" nextHeader
  (checkHeadersOrder chain tmHeader tmNextHeader).mapError
    (.wrap "block.NextBlockHeader is not next for the block.Header: ")
  .ok outside

/-- `deterministicExecTxResult`; there is no check that there is a response. -/
def deterministicExecTxResult : Option ExecTxResult → Result ExecTxResult
  | none => .error (.panic "invalid memory address or nil pointer dereference")
  | some response => .ok { response with rest := [] }

def verifyTransaction (header nextHeader : Header) (tx : TxValue) : Result Unit := do
  let inclusionProof ← (chain.proofFromProto tx.inclusionProof).mapError
    (.wrap "failed to convert proto proof to merkle proof: ")
  (chain.verifyProof inclusionProof header.dataHash (chain.txHash tx.data)).mapError
    (.wrap "failed to verify inclusion proof: ")
  let deliveryProof ← (chain.proofFromProto tx.deliveryProof).mapError
    (.wrap "failed to convert proto proof to merkle proof: ")
  let responseTx ← deterministicExecTxResult tx.response
  (chain.verifyProof deliveryProof nextHeader.lastResultsHash
    (chain.marshalResult responseTx)).mapError (.wrap "failed to verify delivery proof: ")
  ensure (responseTx.code = 0) (.err "tx is unsuccessful: internal error")
  ensure (deliveryProof.index = inclusionProof.index)
    (.err ("inclusion proof index and delivery proof index are not equal: "
      ++ "merkle proof is invalid"))

/-- `SudoTxQueryResult` up to the call of the contract, if the transaction is not processed. -/
def deliverTransaction (queryOwner : Address) (queryID : UInt64)
    (header nextHeader : Header) (tx : TxValue) : Result (World ι) := do
  (verifyTransaction chain header nextHeader tx).mapError (.wrap "failed to verifyTransaction: ")
  ensure (chain.hasContractInfo w.outside queryOwner) (.err "is not a contract address")
  .ok { w with delivered := (queryID, chain.txHash tx.data) :: w.delivered }

/-- `ProcessBlock` up to the call of the contract, and whether there is one. -/
def processBlock (queryOwner : Address) (queryID : UInt64) (clientID : Bytes)
    (block : Block) (tx : TxValue) : Result (World ι × Bool) := do
  let header ← (chain.unpackClientMessage block.header).mapError
    (.wrap "failed to unpack block header: ")
  let nextHeader ← (chain.unpackClientMessage block.nextBlockHeader).mapError
    (.wrap "failed to unpack next block header: ")
  let outside ← (verifyHeaders chain w.outside clientID header nextHeader).mapError
    (.wrap "failed to verify headers: ")
  let tmHeader ← castHeader "failed to cast current header to tendermint Header" header
  let tmNextHeader ← castHeader "failed to cast next header to tendermint header" nextHeader
  if checkTransactionIsAlreadyProcessed w queryID (chain.txHash tx.data) then
    .ok ({ w with outside := outside }, false)
  else
    (deliverTransaction chain { w with outside := outside } queryOwner queryID tmHeader
      tmNextHeader tx).map (·, true)

/-! ### Results of key-value queries -/

/-- One round of the loop of `SubmitQueryResult` over the values. -/
def verifyKvResult (specs root : Bytes) (result : StorageValue) (key : KVKey) :
    Result StorageValue := do
  let proof ← (chain.convertProofs result.proof).mapError
    (.wrap "failed to convert crypto.ProofOps to MerkleProof: ")
  ensure (result.key = key.key)
    (.err "KV key from result is not equal to registered query key: invalid result")
  ensure (result.storagePrefix = key.path)
    (.err "KV path from result is not equal to registered query storage prefix: invalid result")
  match proof with
  | [] => .error (.panic "runtime error: index out of range [0] with length 0")
  | first :: _ =>
    match first.kind with
    | .nonexist => do
        (chain.verifyNonMembership specs root ⟨result.storagePrefix, result.key⟩ proof).mapError
          (.wrap "failed to verify proof: ")
        .ok { result with value := [] }
    | .exist => do
        (chain.verifyMembership specs root ⟨result.storagePrefix, result.key⟩ result.value
          proof).mapError (.wrap "failed to verify proof: ")
        .ok result
    | .other => .error (.err "unknown proof type: merkle proof is invalid")

end MaanyDex.InterchainQueries

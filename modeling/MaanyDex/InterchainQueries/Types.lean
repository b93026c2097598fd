/-
`x/interchainqueries/types`: queries, results, messages and their validation, and the keys of
the store.

Numbers are the `uint64` of the source.  What the module takes from elsewhere (the SDK, IBC
core, light clients, CometBFT, JSON) is collected in `Chain`; `ι` is the state of all of it.
-/
import MaanyDex.Lib.Encoding
import MaanyDex.MintBurn.Keeper
import MaanyDex.Sdk.Coins

namespace MaanyDex.InterchainQueries

open MintBurn (trimSpaceEmpty)

def moduleName : Bytes := ascii "interchainqueries"

/-- The account that holds the deposits. -/
def depositAccount : Address := .moduleAccount moduleName

/-- Who can send messages: users, contracts, and the module that executes proposals. -/
def canSign (a : Address) : Bool := a.isUser || a = .moduleAccount (ascii "adminmodule")

/-! ### Queries and results -/

structure KVKey where
  path : Bytes
  key : Bytes
  deriving DecidableEq

/-- `KVKey.ToString`. -/
def KVKey.toBytes (kv : KVKey) : Bytes := kv.path ++ ascii "/" ++ Encoding.hexEncode kv.key

structure Height where
  revisionNumber : UInt64
  revisionHeight : UInt64
  deriving DecidableEq

def Height.gte (h other : Height) : Bool :=
  other.revisionNumber < h.revisionNumber
    || h.revisionNumber = other.revisionNumber && other.revisionHeight ≤ h.revisionHeight

def isKV (queryType : Bytes) : Bool := queryType = ascii "kv"

def isTX (queryType : Bytes) : Bool := queryType = ascii "tx"

structure RegisteredQuery where
  id : UInt64
  owner : Bytes
  queryType : Bytes
  keys : List KVKey
  transactionsFilter : Bytes
  connectionId : Bytes
  updatePeriod : UInt64
  lastSubmittedResultLocalHeight : UInt64
  lastSubmittedResultRemoteHeight : Option Height
  deposit : Coins
  submitTimeout : UInt64
  registeredAtHeight : UInt64
  deriving DecidableEq

/-- `StorageValue`; the proof is encoded. -/
structure StorageValue where
  storagePrefix : Bytes
  key : Bytes
  value : Bytes
  proof : Bytes

/-- `abci.ExecTxResult`; `rest` are the fields that are not deterministic. -/
structure ExecTxResult where
  code : ℕ
  data : Bytes
  gasWanted : ℤ
  gasUsed : ℤ
  rest : Bytes

/-- `TxValue`; the proofs are encoded. -/
structure TxValue where
  response : Option ExecTxResult
  deliveryProof : Bytes
  inclusionProof : Bytes
  data : Bytes

/-- `Block`; the headers are encoded. -/
structure Block where
  nextBlockHeader : Bytes
  header : Bytes
  tx : Option TxValue

structure QueryResult where
  kvResults : List StorageValue
  block : Option Block
  height : UInt64
  revision : UInt64
  allowKvCallbacks : Bool

structure Params where
  querySubmitTimeout : UInt64
  queryDeposit : Coins
  txQueryRemovalLimit : UInt64
  maxKvQueryKeysCount : UInt64
  maxTransactionsFilters : UInt64

/-! ### Keys -/

def getSubmittedTransactionIDForQueryKeyPrefix (queryID : UInt64) : Bytes :=
  3 :: Encoding.uint64ToBigEndian queryID.toNat

def getSubmittedTransactionIDForQueryKey (queryID : UInt64) (txHash : Bytes) : Bytes :=
  getSubmittedTransactionIDForQueryKeyPrefix queryID ++ txHash

def txQueryToRemoveKey : Bytes := [4]

def getTxQueryToRemoveByIDKey (id : UInt64) : Bytes :=
  txQueryToRemoveKey ++ Encoding.uint64ToBigEndian id.toNat

lemma uint64ToBigEndian_inj {a b : UInt64}
    (h : Encoding.uint64ToBigEndian a.toNat = Encoding.uint64ToBigEndian b.toNat) : a = b :=
  UInt64.toNat_inj.mp (Encoding.bigEndian_inj a.toNat_lt b.toNat_lt h)

lemma getSubmittedTransactionIDForQueryKey_inj {q q' : UInt64} {hash hash' : Bytes}
    (h : getSubmittedTransactionIDForQueryKey q hash
      = getSubmittedTransactionIDForQueryKey q' hash') : q = q' ∧ hash = hash' := by
  obtain ⟨hid, hhash⟩ := List.append_inj (List.cons.inj h).2 (by simp [Encoding.uint64ToBigEndian])
  exact ⟨uint64ToBigEndian_inj hid, hhash⟩

lemma getTxQueryToRemoveByIDKey_inj {a b : UInt64}
    (h : getTxQueryToRemoveByIDKey a = getTxQueryToRemoveByIDKey b) : a = b :=
  uint64ToBigEndian_inj (List.cons.inj h).2

lemma getSubmittedTransactionIDForQueryKey_ne {q id : UInt64} {hash : Bytes} :
    getSubmittedTransactionIDForQueryKey q hash ≠ getTxQueryToRemoveByIDKey id := by
  intro h
  have htag : (3 : UInt8) = 4 := (List.cons.inj h).1
  exact absurd htag (by decide)

/-! ### The surroundings -/

/-- What the module reads of a Tendermint header. -/
structure Header where
  height : ℤ
  trustedRevision : UInt64
  validatorsHash : Bytes
  nextValidatorsHash : Bytes
  lastBlockHash : Bytes
  dataHash : Bytes
  lastResultsHash : Bytes

inductive ClientMessage where
  | tendermint (header : Header)
  | other (bz : Bytes)

structure MerkleProof where
  index : ℤ
  bz : Bytes

/-- The kind of an `ics23.CommitmentProof`. -/
inductive ProofKind where
  | exist
  | nonexist
  | other

structure CommitmentProof where
  kind : ProofKind
  bz : Bytes

/-- The value of a `TransactionsFilterItem`, as JSON has it. -/
inductive FilterValue where
  | string
  | number (isInteger : Bool)
  | other
  deriving DecidableEq

structure TransactionsFilterItem where
  field : Bytes
  op : Bytes
  value : FilterValue

structure Chain (ι : Type) extends Sdk where
  /-- The authority of the keeper. -/
  authority : Bytes
  /-- The application blocks accounts of modules only, and not the one that can sign. -/
  blockedAddr_of_canSign : ∀ a, canSign a = true → blockedAddr a = false
  /-- `HasContractInfo`. -/
  hasContractInfo : ι → Address → Bool
  /-- `json.Unmarshal` of filters. -/
  unmarshalFilters : Bytes → Result (List TransactionsFilterItem)
  /-- The client of a connection. -/
  connection : ι → Bytes → Option Bytes
  /-- The root of a consensus state of a connection. -/
  consensusRoot : ι → Bytes → UInt64 → UInt64 → Result Bytes
  /-- The proof specifications of a client. -/
  proofSpecs : ι → Bytes → Result Bytes
  /-- `ConvertProofs`. -/
  convertProofs : Bytes → Result (List CommitmentProof)
  /-- `VerifyMembership`, with the path of a store and a key. -/
  verifyMembership : (specs root : Bytes) → KVKey → Bytes → List CommitmentProof → Result Unit
  /-- `VerifyNonMembership`. -/
  verifyNonMembership : (specs root : Bytes) → KVKey → List CommitmentProof → Result Unit
  /-- `UnpackClientMessage`. -/
  unpackClientMessage : Bytes → Result ClientMessage
  /-- `UpdateClient`. -/
  updateClient : ι → Bytes → ClientMessage → Result ι
  /-- `HeaderFromProto` returns no error. -/
  headerFromProto : Header → Result Unit
  /-- `Header.Hash`. -/
  headerHash : Header → Bytes
  /-- `merkle.ProofFromProto`. -/
  proofFromProto : Bytes → Result MerkleProof
  /-- `Proof.Verify`, with the root and the leaf. -/
  verifyProof : MerkleProof → (root leaf : Bytes) → Result Unit
  /-- `ExecTxResult.Marshal`. -/
  marshalResult : ExecTxResult → Bytes
  /-- `tmtypes.Tx.Hash`. -/
  txHash : Bytes → Bytes

variable {ι : Type} (chain : Chain ι)

/-! ### Validation -/

/-- One round of `validateKeys`. -/
def validateKeysFrom (duplicates : List Bytes) : List KVKey → Result Unit
  | [] => .ok ()
  | key :: keys => do
      ensure (key.toBytes ∉ duplicates) (.err "keys cannot be duplicated: invalid request")
      ensure (key.path ≠ []) (.err "keys path cannot be empty: key path is empty")
      ensure (key.key ≠ []) (.err "keys id cannot be empty: key id is empty")
      validateKeysFrom (key.toBytes :: duplicates) keys

def validateKeys (keys : List KVKey) (maxKVQueryKeysCount : UInt64) : Result Unit := do
  ensure (keys.length ≤ maxKVQueryKeysCount.toNat)
    (.err ("keys count cannot be more than " ++ toString maxKVQueryKeysCount.toNat
      ++ ": too many keys"))
  validateKeysFrom [] keys

def forbiddenCharacters : Bytes := [9, 10, 13, 92, 40, 41, 34, 39, 61, 62, 60]

/-- `strings.ToLower`, as far as operators go. -/
def toLower (s : Bytes) : Bytes := s.map fun b => if 65 ≤ b ∧ b ≤ 90 then b + 32 else b

/-- One condition of `ValidateTransactionsFilter`. -/
def validateTransactionsFilterItem (idx : ℕ) (f : TransactionsFilterItem) : Result Unit := do
  let at_ := "transactions filter condition idx=" ++ toString idx ++ " is invalid: "
  ensure (f.field.all (· ∉ forbiddenCharacters)) (.err (at_ ++ "special symbols are not allowed"))
  ensure (f.field ≠ []) (.err (at_ ++ "field couldn't be empty"))
  ensure (f.value ≠ .number false) (.err (at_ ++ "value can't be a decimal number"))
  ensure (f.value ≠ .other) (.err (at_ ++ "value is expected to be on of: string, number"))
  ensure (toLower f.op ∈ [ascii "eq", ascii "gt", ascii "gte", ascii "lt", ascii "lte"])
    (.err (at_ ++ "op is expected to be one of: eq, gt, gte, lt, lte"))

def validateTransactionsFilter (s : Bytes) (maxTransactionsFilters : UInt64) : Result Unit := do
  let filters ← (chain.unmarshalFilters s).mapError
    (.wrap "failed to unmarshal transactions filter: ")
  ensure (filters.length ≤ maxTransactionsFilters.toNat)
    (.err ("too many transactions filters, provided=" ++ toString filters.length ++ ", max="
      ++ toString maxTransactionsFilters.toNat))
  filters.zipIdx.forM fun f => validateTransactionsFilterItem f.2 f.1

/-- The sender of a message, as its `Validate` checks it. -/
def validateSender (sender : Bytes) : Result Unit := do
  ensure (!trimSpaceEmpty sender) (.err "missing sender address: invalid address")
  ensure (chain.accAddressFromBech32 sender).isSome
    (.errf "failed to parse address: %s: invalid address" sender)

structure MsgRegisterInterchainQuery where
  queryType : Bytes
  keys : List KVKey
  transactionsFilter : Bytes
  connectionId : Bytes
  updatePeriod : UInt64
  sender : Bytes

def MsgRegisterInterchainQuery.validate (msg : MsgRegisterInterchainQuery) (params : Params) :
    Result Unit := do
  ensure (msg.updatePeriod ≠ 0)
    (.err "update period can not be equal to zero: invalid update period")
  validateSender chain msg.sender
  ensure (!trimSpaceEmpty msg.connectionId)
    (.err "connection id cannot be empty: invalid connection id")
  ensure (isTX msg.queryType || isKV msg.queryType) (.err "invalid query type: invalid query type")
  if isKV msg.queryType then do
    ensure (msg.keys ≠ []) (.err "keys cannot be empty: keys are empty")
    validateKeys msg.keys params.maxKvQueryKeysCount
  else
    (validateTransactionsFilter chain msg.transactionsFilter params.maxTransactionsFilters).mapError
      (.wrap "invalid transactions filter: ")

structure MsgRemoveInterchainQueryRequest where
  queryId : UInt64
  sender : Bytes

def MsgRemoveInterchainQueryRequest.validate (msg : MsgRemoveInterchainQueryRequest) :
    Result Unit := do
  ensure (msg.queryId ≠ 0) (.err "query_id cannot be empty or equal to 0: invalid query id")
  validateSender chain msg.sender

structure MsgUpdateInterchainQueryRequest where
  queryId : UInt64
  newKeys : List KVKey
  newUpdatePeriod : UInt64
  newTransactionsFilter : Bytes
  sender : Bytes

def MsgUpdateInterchainQueryRequest.validate (msg : MsgUpdateInterchainQueryRequest)
    (params : Params) : Result Unit := do
  ensure (msg.queryId ≠ 0) (.err "query_id cannot be empty or equal to 0: invalid query id")
  ensure (msg.newKeys ≠ [] || msg.newTransactionsFilter ≠ [] || msg.newUpdatePeriod ≠ 0)
    (.err ("one of new_keys, new_transactions_filter or new_update_period should be set: "
      ++ "invalid request"))
  ensure (msg.newKeys = [] || msg.newTransactionsFilter = [])
    (.err "either new_keys or new_transactions_filter should be set: invalid request")
  if msg.newKeys ≠ [] then validateKeys msg.newKeys params.maxKvQueryKeysCount else .ok ()
  if msg.newTransactionsFilter ≠ [] then
    (validateTransactionsFilter chain msg.newTransactionsFilter
      params.maxTransactionsFilters).mapError (.wrap "invalid transactions filter: ")
  else .ok ()
  validateSender chain msg.sender

/-- `MsgSubmitQueryResult`, without its deprecated field. -/
structure MsgSubmitQueryResult where
  queryId : UInt64
  sender : Bytes
  result : Option QueryResult

/-- `MsgSubmitQueryResult.Validate`, which lets no message without a result through. -/
def MsgSubmitQueryResult.validate (msg : MsgSubmitQueryResult) : Result QueryResult :=
  match msg.result with
  | none => .error (.err "query result can't be empty: empty result")
  | some result => do
      ensure (result.kvResults ≠ [] || result.block.isSome)
        (.err "query result can't be empty: empty result")
      ensure (msg.queryId ≠ 0) (.err "query id cannot be equal zero: invalid query id")
      validateSender chain msg.sender
      .ok result

structure MsgUpdateParams where
  authority : Bytes
  params : Params

end MaanyDex.InterchainQueries

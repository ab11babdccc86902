import FinNet.Store

/-!
# The chaincode

The handler functions of `chaincode.go` and the helpers they share, each over the store it reads
and writes. A handler returns its Go result `([]byte, error)` and the store it leaves; an error
return after a write leaves that write in place, as the stub does. Store errors, logging and the
`json.Marshal` errors the code discards never occur here.
-/

namespace FinNet

/-- The bytes a handler returns. -/
inductive Response where
  /-- `nil`. -/
  | nil
  /-- The JSON document of one record. -/
  | record (r : Record)
  /-- A `model.AccountList`. -/
  | accountList (accounts : List Account)
  /-- A `model.TransactionList`. -/
  | transactionList (transactions : List Transaction)
  deriving DecidableEq, Repr

/-- Bytes read from the store, `nil` when the key holds nothing. -/
def Response.ofBytes : Option Record → Response
  | none => .nil
  | some r => .record r

/-- A handler's `([]byte, error)` and the store it leaves. -/
structure Outcome where
  result : Except GoString Response
  store : Store

section Handlers

variable (ot : ObjectTypes)

/-- `partialCompositeKeyQuery`: the entries from the composite key of `keys` up to that key
followed by `string(utf8.MaxRune)`. -/
def partialCompositeKeyQuery (s : Store) (objectType : GoString) (keys : List GoString) :
    List (GoString × Record) :=
  let partialCompositeKey := createCompositeKey objectType keys
  s.rangeQueryState partialCompositeKey (partialCompositeKey ++ maxRune)

/-- `GetAccountList`: the accounts the scan of `[customerID]` finds, skipping what does not
decode. -/
def getAccountList (s : Store) : List GoString → Except GoString Response
  | [] => .error (goString "Missing required customer ID")
  | customerID :: _ =>
    .ok (.accountList ((partialCompositeKeyQuery s ot.account [customerID]).filterMap
      (·.2.account?)))

/-- `GetAccount`: the bytes stored for `[customerID, accountID]`. -/
def getAccount (s : Store) : List GoString → Except GoString (Option Record)
  | [customerID, accountID] => .ok (s.getState (createCompositeKey ot.account [customerID, accountID]))
  | _ => .error (goString "Missing required customer ID and / or account ID")

/-- `fmt.Errorf("Account with number %s not found.", accountID)`. -/
def notFound (accountID : GoString) : GoString :=
  goString "Account with number " ++ accountID ++ goString " not found."

/-- `OpenAccount`: write the account `model.CreateAccount` builds from the payload. -/
def openAccount (s : Store) : List (JsonDoc Account) → Outcome
  | [] => ⟨.error (goString "Missing required account data JSON"), s⟩
  | payload :: _ =>
    match createAccount payload with
    | .error err => ⟨.error (goString "Error creating new account. Error: " ++ goString err), s⟩
    | .ok account => ⟨.ok (.record (.account account)), s.putState (account.key ot) (.account account)⟩

/-- `TopupAccount`: read the account, credit it the parsed amount, write it back. -/
def topupAccount (s : Store) : List GoString → Outcome
  | [customerID, accountID, amountText] =>
    match getAccount ot s [customerID, accountID] with
    | .error err => ⟨.error err, s⟩
    | .ok none => ⟨.error (notFound accountID), s⟩
    | .ok (some accountData) =>
      match parseInt amountText with
      | none => ⟨.error (goString "Error parsing amount value " ++ amountText), s⟩
      | some amount =>
        let account := accountData.toAccount.credit amount
        ⟨.ok (.record (.account account)), s.putState (account.key ot) (.account account)⟩
  | _ => ⟨.error (goString "Missing required input arguments"), s⟩

/-- `CloseAccount`: read the account, set `Closed`, write it back. -/
def closeAccount (s : Store) : List GoString → Outcome
  | [customerID, accountID] =>
    match getAccount ot s [customerID, accountID] with
    | .error err => ⟨.error err, s⟩
    | .ok none => ⟨.error (notFound accountID), s⟩
    | .ok (some accountData) =>
      let account := { accountData.toAccount with closed := true }
      ⟨.ok (.record (.account account)), s.putState (account.key ot) (.account account)⟩
  | _ => ⟨.error (goString "Missing required customer ID and / or account ID"), s⟩

/-- `recordTransaction`: write the record `model.CreateTransaction` builds. -/
def recordTransaction (stamp : Stamp) (s : Store) (customerID accountID : GoString) (t : Transfer)
    (code : TxFailureCode) (status : TxStatus) : Store :=
  let txn := createTransaction stamp customerID accountID t code status
  s.putState (txn.key ot) (.transaction txn)

/-- `debitAccount`. -/
def debitAccount (s : Store) (a : Account) (amount : Int64) : Store :=
  s.putState ((a.debit amount).key ot) (.account (a.debit amount))

/-- `creditAccount`. -/
def creditAccount (s : Store) (a : Account) (amount : Int64) : Store :=
  s.putState ((a.credit amount).key ot) (.account (a.credit amount))

/-- Lines 231-251 of `TransferMoney`, once both accounts are read: the closed checks and the
funds check, each recording a failed transaction, or the debit and the credit, each recording
its transaction. `stamps` are what `model.CreateTransaction` draws for the first and the second
record. -/
def settleTransfer (stamps : Stamp × Stamp) (s : Store) (t : Transfer)
    (fromAccount toAccount : Account) : Outcome :=
  if fromAccount.closed then
    ⟨.error (goString "Cannot transfer money from closed account " ++ t.fromAccountID),
      recordTransaction ot stamps.1 s fromAccount.customerID fromAccount.id t .AccountClosed .Failed⟩
  else if toAccount.closed then
    ⟨.error (goString "Cannot transfer money into closed account " ++ t.toAccountID),
      recordTransaction ot stamps.1 s toAccount.customerID toAccount.id t .AccountClosed .Failed⟩
  else if (fromAccount.balance - t.amount).toInt < 0 then
    ⟨.error (goString "Insufficient funds available in account " ++ t.fromAccountID),
      recordTransaction ot stamps.1 s fromAccount.customerID fromAccount.id t
        .InsufficientFunds .Failed⟩
  else
    let s := debitAccount ot s fromAccount (t.amount + t.fee)
    let s := recordTransaction ot stamps.1 s fromAccount.customerID fromAccount.id t .empty .Debited
    let s := creditAccount ot s toAccount t.amount
    let s := recordTransaction ot stamps.2 s toAccount.customerID toAccount.id t .empty .Credited
    ⟨.ok .nil, s⟩

/-- `TransferMoney`: decode and validate the transfer, read both accounts, settle. -/
def transferMoney (stamps : Stamp × Stamp) (s : Store) : List (JsonDoc Transfer) → Outcome
  | [] => ⟨.error (goString "Missing transfer details JSON"), s⟩
  | transferData :: _ =>
    let t := transferData.getD default
    match t.validate with
    | .error err => ⟨.error (goString err), s⟩
    | .ok () =>
      match getAccount ot s [t.fromCustomerID, t.fromAccountID] with
      | .error err => ⟨.error err, s⟩
      | .ok none => ⟨.error (notFound t.fromAccountID), s⟩
      | .ok (some fromData) =>
        match getAccount ot s [t.toCustomerID, t.toAccountID] with
        | .error err => ⟨.error err, s⟩
        | .ok none => ⟨.error (notFound t.toAccountID), s⟩
        | .ok (some toData) => settleTransfer ot stamps s t fromData.toAccount toData.toAccount

/-- `sort.Sort(sort.Reverse(model.ByCreated(...)))`: newest first. Go's sort is not stable, and
records with equal `createdAt` may come in any order (§4.4); the model keeps key order among
them. -/
def sortByCreatedDesc (txns : List Transaction) : List Transaction :=
  txns.mergeSort fun a b => b.createdAt ≤ a.createdAt

/-- `GetTransactionList`: the transactions the scan of `[customerID, accountID]` finds, newest
first. -/
def getTransactionList (s : Store) : List GoString → Except GoString Response
  | [customerID, accountID] =>
    .ok (.transactionList (sortByCreatedDesc
      ((partialCompositeKeyQuery s ot.transaction [customerID, accountID]).filterMap
        (·.2.transaction?))))
  | _ => .error (goString "Missing required customer ID and / or account ID")

/-- `GetTransaction`: the bytes stored for `[customerID, accountID, tranID]`. -/
def getTransaction (s : Store) : List GoString → Except GoString (Option Record)
  | [customerID, accountID, tranID] =>
    .ok (s.getState (createCompositeKey ot.transaction [customerID, accountID, tranID]))
  | _ => .error (goString "Missing required account ID and / or transaction ID")

end Handlers

/-! ## Dispatch and runs -/

/-- A call of one of the handler names `registerHandlers` maps, with its arguments. -/
inductive Call where
  | OpenAccount (args : List (JsonDoc Account))
  | CloseAccount (args : List GoString)
  | GetAccount (args : List GoString)
  | GetAccountList (args : List GoString)
  | TransferMoney (args : List (JsonDoc Transfer))
  | TopupAccount (args : List GoString)
  | GetTransaction (args : List GoString)
  | GetTransactionList (args : List GoString)
  deriving Repr

/-- One invocation: the call and the stamps `model.CreateTransaction` draws during it. -/
structure Invocation where
  call : Call
  stamps : Stamp × Stamp

/-- `handleInvocation`: the handler `registerHandlers` maps the call's name to. -/
def handleInvocation (ot : ObjectTypes) (s : Store) (i : Invocation) : Outcome :=
  match i.call with
  | .OpenAccount args => openAccount ot s args
  | .CloseAccount args => closeAccount ot s args
  | .GetAccount args => ⟨(getAccount ot s args).map Response.ofBytes, s⟩
  | .GetAccountList args => ⟨getAccountList ot s args, s⟩
  | .TransferMoney args => transferMoney ot i.stamps s args
  | .TopupAccount args => topupAccount ot s args
  | .GetTransaction args => ⟨(getTransaction ot s args).map Response.ofBytes, s⟩
  | .GetTransactionList args => ⟨getTransactionList ot s args, s⟩

/-- The store after a sequence of invocations. -/
def run (ot : ObjectTypes) (s : Store) (is : List Invocation) : Store :=
  is.foldl (fun s i => (handleInvocation ot s i).store) s

/-- The stores some run from the empty store reaches. -/
inductive Reachable (ot : ObjectTypes) : Store → Prop where
  | empty : Reachable ot Store.empty
  | step {s : Store} (i : Invocation) : Reachable ot s → Reachable ot (handleInvocation ot s i).store

theorem reachable_run (ot : ObjectTypes) {s : Store} (hs : Reachable ot s) :
    ∀ is, Reachable ot (run ot s is)
  | [] => hs
  | i :: is => reachable_run ot (hs.step i) is

/-! ## Concrete runs

The spec's scenario (§8): two accounts opened on the empty store, and the transfers between them
with the stamps their records draw. -/

/-- Two stamps with different ids, for the two records a settled transfer writes. -/
def twoStamps : Stamp × Stamp := (⟨goString "t1", 1⟩, ⟨goString "t2", 2⟩)

/-- An open account of `customerID/accountID` holding `balance`. -/
def openedAccount (customerID accountID : String) (balance : Int64) : Account :=
  ⟨goString customerID, goString accountID, balance, false⟩

/-- The spec's scenario (§8): `c1/a1` opened with 1000 and `c2/a2` with 0. -/
def scenarioStore : Store :=
  run accountAndTransaction Store.empty
    [⟨.OpenAccount [some (openedAccount "c1" "a1" 1000)], default⟩,
     ⟨.OpenAccount [some (openedAccount "c2" "a2" 0)], default⟩]

/-- A transfer from `c1/a1` to `c2/a2`. -/
def scenarioTransfer (amount fee : Int64) : Transfer :=
  ⟨goString "c1", goString "a1", goString "c2", goString "a2", amount, fee⟩

end FinNet

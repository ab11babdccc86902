import FinNet.CompositeKey
import FinNet.Strconv

/-!
# The `model` package

The records and the methods the chaincode calls on them come from the `model` package, which is
not in the source. They are modelled from the spec (§3, §4.3-§4.5), with the field names the
chaincode uses. A JSON document is modelled by the value it decodes to: the chaincode only ever
marshals records and reads them back, and JSON itself is out of scope (§1).
-/

namespace FinNet

/-- Modelled from the spec: a JSON request payload as `json.Unmarshal` reads it into an `α`,
the value it decodes to, or `none` when it does not decode. -/
abbrev JsonDoc (α : Type) := Option α

/-- Modelled from the spec: `model.Account` (§3). -/
structure Account where
  customerID : GoString
  id : GoString
  balance : Int64
  closed : Bool
  deriving DecidableEq, Repr

/-- The zero value `new(model.Account)`. -/
instance : Inhabited Account := ⟨{ customerID := [], id := [], balance := 0, closed := false }⟩

/-- Modelled from the spec: `Account.Credit(amount)`, `balance += amount` in `int64` (§4.3). -/
def Account.credit (a : Account) (amount : Int64) : Account := { a with balance := a.balance + amount }

/-- Modelled from the spec: `Account.Debit(amount)`, `balance -= amount` in `int64`, with no floor
check (§4.3). -/
def Account.debit (a : Account) (amount : Int64) : Account := { a with balance := a.balance - amount }

/-- Modelled from the spec: `model.Transfer` (§3). -/
structure Transfer where
  fromCustomerID : GoString
  fromAccountID : GoString
  toCustomerID : GoString
  toAccountID : GoString
  amount : Int64
  fee : Int64
  deriving DecidableEq, Repr

/-- The zero value `new(model.Transfer)`. -/
instance : Inhabited Transfer :=
  ⟨{ fromCustomerID := [], fromAccountID := [], toCustomerID := [], toAccountID := [],
     amount := 0, fee := 0 }⟩

/-- Modelled from the spec: what `Transfer.Validate` accepts (§3 "Validity", §4.5 step 1): a
positive amount, a non-negative fee (§3), four non-empty identifiers, two different account
pairs. -/
def Transfer.Valid (t : Transfer) : Prop :=
  0 < t.amount.toInt ∧ 0 ≤ t.fee.toInt ∧ t.fromCustomerID ≠ [] ∧ t.fromAccountID ≠ [] ∧
    t.toCustomerID ≠ [] ∧ t.toAccountID ≠ [] ∧
    (t.fromCustomerID, t.fromAccountID) ≠ (t.toCustomerID, t.toAccountID)

instance (t : Transfer) : Decidable t.Valid := inferInstanceAs (Decidable (_ ∧ _))

/-- Modelled from the spec: `Transfer.Validate()`. Its error texts are not in the source; the spec
names the error kind `ValidationError` (§4.3, §7). -/
def Transfer.validate (t : Transfer) : Except String Unit :=
  if t.Valid then .ok () else .error "ValidationError"

/-- Modelled from the spec: `model.TxStatus` (§3). -/
inductive TxStatus where
  | Debited
  | Credited
  | Failed
  deriving DecidableEq, Repr

/-- Modelled from the spec: `model.TxFailureCode` (§3); `empty` is the `""` the chaincode passes on
success. -/
inductive TxFailureCode where
  | empty
  | AccountClosed
  | InsufficientFunds
  deriving DecidableEq, Repr

/-- Modelled from the spec: `model.Transaction` (§3). The amount, the fee and the counterparty
identifiers are those of the transfer it records. -/
structure Transaction where
  id : GoString
  customerID : GoString
  accountID : GoString
  createdAt : Nat
  transfer : Transfer
  failureCode : TxFailureCode
  status : TxStatus
  deriving DecidableEq, Repr

/-- What `model.CreateTransaction` draws for each new record: its id and its creation time (§3:
"unique per record", "monotonically increasing per write"). The environment supplies it. -/
structure Stamp where
  id : GoString
  createdAt : Nat
  deriving DecidableEq, Repr, Inhabited

/-- Modelled from the spec: `model.CreateTransaction(customerID, accountID, t, code, status)` with
the stamp it draws. The chaincode discards its error result. -/
def createTransaction (stamp : Stamp) (customerID accountID : GoString) (t : Transfer)
    (code : TxFailureCode) (status : TxStatus) : Transaction :=
  { id := stamp.id, customerID, accountID, createdAt := stamp.createdAt, transfer := t,
    failureCode := code, status }

/-- Modelled from the spec: `model.CreateAccount(payload)` (§4.3): decode the payload, then require
non-empty customer and account IDs and a non-negative balance. -/
def createAccount (payload : JsonDoc Account) : Except String Account :=
  match payload with
  | none => .error "ValidationError"
  | some a =>
    if a.customerID ≠ [] ∧ a.id ≠ [] ∧ 0 ≤ a.balance.toInt then .ok a else .error "ValidationError"

theorem createAccount_ok {payload : JsonDoc Account} {a : Account}
    (h : createAccount payload = .ok a) :
    payload = some a ∧ a.customerID ≠ [] ∧ a.id ≠ [] ∧ 0 ≤ a.balance.toInt := by
  unfold createAccount at h
  split at h
  · cases h
  · split at h
    · cases h; exact ⟨rfl, ‹_›⟩
    · cases h

/-! ## Object types and stored records -/

/-- `model.AccountObjectType` and `model.TransactionObjectType`, taken as a parameter: their values
are not in the source. They namespace the two record kinds (§2, §3), so neither tag followed by
the separator begins the other. -/
structure ObjectTypes where
  account : GoString
  transaction : GoString
  disjoint : ¬ (account ++ [48]) <+: (transaction ++ [48]) ∧
    ¬ (transaction ++ [48]) <+: (account ++ [48])

/-- The tags `"Account"` and `"Transaction"`, under which the model runs on concrete inputs. -/
def accountAndTransaction : ObjectTypes :=
  ⟨goString "Account", goString "Transaction", by decide⟩

/-- No account key is a transaction key. -/
theorem ObjectTypes.key_ne (ot : ObjectTypes) (xs ys : List GoString) :
    createCompositeKey ot.account xs ≠ createCompositeKey ot.transaction ys := by
  intro h
  have ha : ot.account ++ [48] <+: createCompositeKey ot.transaction ys := by
    rw [← h, createCompositeKey_eq]; exact ⟨xs.flatMap (· ++ [48]), by simp⟩
  have ht : ot.transaction ++ [48] <+: createCompositeKey ot.transaction ys := by
    rw [createCompositeKey_eq]; exact ⟨ys.flatMap (· ++ [48]), by simp⟩
  rcases List.prefix_or_prefix_of_prefix ha ht with hp | hp
  · exact ot.disjoint.1 hp
  · exact ot.disjoint.2 hp

/-- A stored value: the JSON document of an account or of a transaction. `json.Marshal` is
injective on these records, so a document is modelled by the record it encodes. -/
inductive Record where
  | account (a : Account)
  | transaction (t : Transaction)
  deriving DecidableEq, Repr

/-- `bytesToStruct(data, new(model.Account))`. The decode error it drops leaves the zero value;
a transaction document is modelled as such an error. -/
def Record.toAccount : Record → Account
  | .account a => a
  | .transaction _ => default

/-- `json.Unmarshal(data, acc)` in the account listing: `none` is the error that skips the
record. -/
def Record.account? : Record → Option Account
  | .account a => some a
  | .transaction _ => none

/-- `json.Unmarshal(data, txn)` in the transaction listing. -/
def Record.transaction? : Record → Option Transaction
  | .account _ => none
  | .transaction t => some t

/-- `createCompositeKey(account.GetObjectType(), []string{account.CustomerID, account.ID})`. -/
def Account.key (ot : ObjectTypes) (a : Account) : GoString :=
  createCompositeKey ot.account [a.customerID, a.id]

/-- `createCompositeKey(txn.GetObjectType(), []string{txn.CustomerID, txn.AccountID, txn.ID})`. -/
def Transaction.key (ot : ObjectTypes) (t : Transaction) : GoString :=
  createCompositeKey ot.transaction [t.customerID, t.accountID, t.id]

@[simp] theorem Account.credit_key (ot : ObjectTypes) (a : Account) (n : Int64) :
    (a.credit n).key ot = a.key ot := rfl

@[simp] theorem Account.debit_key (ot : ObjectTypes) (a : Account) (n : Int64) :
    (a.debit n).key ot = a.key ot := rfl

@[simp] theorem Account.closed_key (ot : ObjectTypes) (a : Account) (closed : Bool) :
    { a with closed }.key ot = a.key ot := rfl

theorem Account.key_ne_transaction_key (ot : ObjectTypes) (a : Account) (t : Transaction) :
    a.key ot ≠ t.key ot :=
  ot.key_ne _ _

end FinNet

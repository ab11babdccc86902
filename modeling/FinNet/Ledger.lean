import FinNet.Chaincode

/-!
# The ledger

The chaincode's operations over accounts indexed by customer ID and account ID and transactions
indexed by customer ID, account ID and transaction ID, with no key encoding between the
identifiers and the records. This is the code's behaviour one level up, not the ledger the spec
asks for: like the handlers, `step` tops up a closed account, credits any amount `ParseInt`
accepts, zero and negative ones included, and overwrites an account on a second `OpenAccount`,
which spec §3 and §4.3 rule out. Each operation writes records under their own identifiers, so a
call changes only the accounts of the pairs it names.
-/

namespace FinNet

/-- The accounts and the transactions the chaincode keeps, each under its own identifiers. -/
@[ext] structure Ledger where
  accounts : GoString × GoString → Option Account
  transactions : GoString × GoString × GoString → Option Transaction

namespace Ledger

/-- The ledger before any call. -/
def empty : Ledger := ⟨fun _ => none, fun _ => none⟩

/-- Store an account under its own identifiers. -/
def putAccount (L : Ledger) (a : Account) : Ledger :=
  { L with accounts := Function.update L.accounts (a.customerID, a.id) (some a) }

/-- Store the transaction `model.CreateTransaction` builds, under its own identifiers. -/
def record (L : Ledger) (stamp : Stamp) (customerID accountID : GoString) (t : Transfer)
    (code : TxFailureCode) (status : TxStatus) : Ledger :=
  { L with
    transactions := Function.update L.transactions (customerID, accountID, stamp.id)
      (some (createTransaction stamp customerID accountID t code status)) }

/-- A transfer between two accounts of the ledger (§4.5 steps 4-7): the closed checks and the
funds check, each recording a failed transaction, or the debit and the credit with their
records. -/
def settle (L : Ledger) (stamps : Stamp × Stamp) (t : Transfer) (fa ta : Account) : Ledger :=
  if fa.closed then L.record stamps.1 fa.customerID fa.id t .AccountClosed .Failed
  else if ta.closed then L.record stamps.1 ta.customerID ta.id t .AccountClosed .Failed
  else if (fa.balance - t.amount).toInt < 0 then
    L.record stamps.1 fa.customerID fa.id t .InsufficientFunds .Failed
  else
    (((L.putAccount (fa.debit (t.amount + t.fee))).record stamps.1 fa.customerID fa.id t .empty
      .Debited).putAccount (ta.credit t.amount)).record stamps.2 ta.customerID ta.id t .empty
      .Credited

/-- One invocation on the ledger: the handlers' checks and writes, with each record held under
its identifiers instead of a composite key. -/
def step (L : Ledger) (i : Invocation) : Ledger :=
  match i.call with
  | .OpenAccount (payload :: _) =>
    match createAccount payload with
    | .ok a => L.putAccount a
    | .error _ => L
  | .CloseAccount [customerID, accountID] =>
    match L.accounts (customerID, accountID) with
    | some a => L.putAccount { a with closed := true }
    | none => L
  | .TopupAccount [customerID, accountID, amountText] =>
    match L.accounts (customerID, accountID), parseInt amountText with
    | some a, some n => L.putAccount (a.credit n)
    | _, _ => L
  | .TransferMoney (d :: _) =>
    let t := d.getD default
    if t.Valid then
      match L.accounts (t.fromCustomerID, t.fromAccountID),
        L.accounts (t.toCustomerID, t.toAccountID) with
      | some fa, some ta => L.settle i.stamps t fa ta
      | _, _ => L
    else L
  | _ => L

/-- The ledger after a sequence of invocations. -/
def run (L : Ledger) (is : List Invocation) : Ledger := is.foldl step L

/-- Every account is held under its own identifiers. -/
def Coherent (L : Ledger) : Prop :=
  ∀ p a, L.accounts p = some a → (a.customerID, a.id) = p

@[simp] theorem accounts_putAccount (L : Ledger) (a : Account) :
    (L.putAccount a).accounts = Function.update L.accounts (a.customerID, a.id) (some a) := rfl

@[simp] theorem transactions_putAccount (L : Ledger) (a : Account) :
    (L.putAccount a).transactions = L.transactions := rfl

@[simp] theorem accounts_record (L : Ledger) (stamp : Stamp) (customerID accountID : GoString)
    (t : Transfer) (code : TxFailureCode) (status : TxStatus) :
    (L.record stamp customerID accountID t code status).accounts = L.accounts := rfl

@[simp] theorem transactions_record (L : Ledger) (stamp : Stamp) (customerID accountID : GoString)
    (t : Transfer) (code : TxFailureCode) (status : TxStatus) :
    (L.record stamp customerID accountID t code status).transactions =
      Function.update L.transactions (customerID, accountID, stamp.id)
        (some (createTransaction stamp customerID accountID t code status)) := rfl

theorem Coherent.putAccount {L : Ledger} (h : L.Coherent) (a : Account) : (L.putAccount a).Coherent := by
  intro p a' hp
  rw [accounts_putAccount, Function.update_apply] at hp
  split at hp
  · cases hp; exact (‹p = _›).symm
  · exact h p a' hp

theorem Coherent.record {L : Ledger} (h : L.Coherent) (stamp : Stamp) (customerID accountID : GoString)
    (t : Transfer) (code : TxFailureCode) (status : TxStatus) :
    (L.record stamp customerID accountID t code status).Coherent := h

/-- The accounts a settled or failed transfer leaves: the destination's and the source's entries
at most change. -/
theorem settle_accounts_of_ne (L : Ledger) (stamps : Stamp × Stamp) (t : Transfer) {fa ta : Account}
    {p : GoString × GoString} (hf : p ≠ (fa.customerID, fa.id)) (ht : p ≠ (ta.customerID, ta.id)) :
    (L.settle stamps t fa ta).accounts p = L.accounts p := by
  unfold settle
  split_ifs <;> simp [Function.update_apply, Account.credit, Account.debit, hf, ht]

theorem Coherent.step {L : Ledger} (h : L.Coherent) (i : Invocation) : (L.step i).Coherent := by
  unfold Ledger.step
  split
  · split
    exacts [h.putAccount _, h]
  · split
    exacts [h.putAccount _, h]
  · split
    exacts [h.putAccount _, h]
  · dsimp only
    split
    · split
      · unfold Ledger.settle
        split_ifs
        exacts [h.record _ _ _ _ _ _, h.record _ _ _ _ _ _, h.record _ _ _ _ _ _,
          (((h.putAccount _).record _ _ _ _ _ _).putAccount _).record _ _ _ _ _ _]
      · exact h
    · exact h
  · exact h

end Ledger

/-- The account pairs an invocation names: the payload's pair for `OpenAccount`, its arguments for
`CloseAccount` and `TopupAccount`, the source and destination of `TransferMoney`. -/
def Invocation.accountPairs (i : Invocation) : List (GoString × GoString) :=
  match i.call with
  | .OpenAccount (some a :: _) => [(a.customerID, a.id)]
  | .CloseAccount [customerID, accountID] => [(customerID, accountID)]
  | .TopupAccount [customerID, accountID, _] => [(customerID, accountID)]
  | .TransferMoney (d :: _) =>
    [((d.getD default).fromCustomerID, (d.getD default).fromAccountID),
      ((d.getD default).toCustomerID, (d.getD default).toAccountID)]
  | _ => []

/-- On a coherent ledger an invocation changes only the accounts of the pairs it names. -/
theorem Ledger.Coherent.step_accounts_of_not_mem {L : Ledger} (h : L.Coherent) {i : Invocation}
    {p : GoString × GoString} (hp : p ∉ i.accountPairs) : (L.step i).accounts p = L.accounts p := by
  have hput : ∀ {a : Account} {q}, L.accounts q = some a → p ≠ q →
      ∀ a' : Account, (a'.customerID, a'.id) = (a.customerID, a.id) →
        (L.putAccount a').accounts p = L.accounts p := fun ha hq a' ha' => by
    rw [accounts_putAccount, Function.update_noteq (by rw [ha', h _ _ ha]; exact hq)]
  unfold Ledger.step
  split <;> rename_i heq <;>
    simp only [Invocation.accountPairs, heq, List.mem_cons, List.mem_singleton, List.not_mem_nil,
      or_false] at hp
  · split
    · rename_i a ha
      obtain ⟨rfl, -⟩ := createAccount_ok ha
      exact Function.update_noteq (by simpa using hp) _ _
    · rfl
  · split
    · rename_i ha
      exact hput ha hp _ rfl
    · rfl
  · split
    · rename_i ha _
      exact hput ha hp _ rfl
    · rfl
  · dsimp only
    split
    · split
      · rename_i fa ta hfa hta
        rw [not_or] at hp
        exact settle_accounts_of_ne L _ _ (h _ _ hfa ▸ hp.1) (h _ _ hta ▸ hp.2)
      · rfl
    · rfl
  · rfl

end FinNet

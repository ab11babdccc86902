import FinNet.History
import FinNet.Ledger

/-!
# The chaincode keeps the ledger

Reading every account key and every transaction key of a store gives a ledger. When no identifier
holds the separator digit, each call changes that ledger as the ledger's own step does, so a run
from the empty store keeps the ledger the same run of `Ledger.step` builds: the composite keys
are invisible. The ledger's frame fact then comes back to the store: a call leaves the bytes
`GetAccount` returns for a pair it does not name as they were.
-/

namespace FinNet

/-- The ledger a store holds: the account at each account key, the transaction at each
transaction key. -/
def Store.toLedger (ot : ObjectTypes) (s : Store) : Ledger :=
  ⟨fun p => (s.getState (createCompositeKey ot.account [p.1, p.2])).bind Record.account?,
    fun q => (s.getState (createCompositeKey ot.transaction [q.1, q.2.1, q.2.2])).bind
      Record.transaction?⟩

/-- Every stored account's identifiers hold no separator. -/
def AccountIdsSeparatorFree (s : Store) : Prop :=
  ∀ k a, s.getState k = some (.account a) → SeparatorFree [a.customerID, a.id]

/-- The identifiers a call brings in: the payload's of `OpenAccount`. -/
def Call.payloadIds : Call → List GoString
  | .OpenAccount (some a :: _) => [a.customerID, a.id]
  | _ => []

/-- The identifiers an invocation brings in hold no separator: its stamps' ids and its payload's
identifiers. -/
def Invocation.SeparatorFreeIds (i : Invocation) : Prop :=
  SeparatorFree (i.stamps.1.id :: i.stamps.2.id :: i.call.payloadIds)

instance (i : Invocation) : Decidable i.SeparatorFreeIds :=
  inferInstanceAs (Decidable (SeparatorFree _))

section

variable {ot : ObjectTypes} {s : Store}

@[simp] theorem toLedger_accounts (p : GoString × GoString) :
    (s.toLedger ot).accounts p =
      (s.getState (createCompositeKey ot.account [p.1, p.2])).bind Record.account? := rfl

@[simp] theorem toLedger_transactions (q : GoString × GoString × GoString) :
    (s.toLedger ot).transactions q =
      (s.getState (createCompositeKey ot.transaction [q.1, q.2.1, q.2.2])).bind
        Record.transaction? := rfl

/-! ## Writes -/

/-- A key of separator-free attributes is the key of those attributes only, among lists as
long. -/
theorem createCompositeKey_eq_iff {o : GoString} {xs ys : List GoString} (hxs : SeparatorFree xs)
    (hlen : ys.length = xs.length) : createCompositeKey o ys = createCompositeKey o xs ↔ ys = xs :=
  ⟨fun h => (createCompositeKey_inj_of_length hxs hlen h.symm).symm, congrArg _⟩

theorem toLedger_putState_account {a : Account} (hsep : SeparatorFree [a.customerID, a.id]) :
    (s.putState (a.key ot) (.account a)).toLedger ot = (s.toLedger ot).putAccount a := by
  ext1 <;> funext p
  · have hiff : createCompositeKey ot.account [p.1, p.2] = a.key ot ↔ p = (a.customerID, a.id) :=
      (createCompositeKey_eq_iff hsep (by rfl)).trans (by simp [Prod.ext_iff])
    simp only [toLedger_accounts, Store.getState_putState, hiff, Ledger.accounts_putAccount,
      Function.update_apply]
    split_ifs <;> rfl
  · simp only [toLedger_transactions, Store.getState_putState, Account.key,
      if_neg (ot.key_ne _ _).symm, Ledger.transactions_putAccount]

theorem toLedger_recordTransaction (stamp : Stamp) {customerID accountID : GoString}
    (hsep : SeparatorFree [customerID, accountID]) (hid : (48 : Fin 256) ∉ stamp.id) (t : Transfer)
    (code : TxFailureCode) (status : TxStatus) :
    (recordTransaction ot stamp s customerID accountID t code status).toLedger ot =
      (s.toLedger ot).record stamp customerID accountID t code status := by
  ext1 <;> funext q
  · simp only [recordTransaction, toLedger_accounts, Store.getState_putState, createTransaction_key,
      if_neg (ot.key_ne _ _), Ledger.accounts_record]
  · have hsep' : SeparatorFree ([customerID, accountID] ++ [stamp.id]) :=
      separatorFree_append.2 ⟨hsep, separatorFree_cons.2 ⟨hid, separatorFree_nil⟩⟩
    have hiff : createCompositeKey ot.transaction [q.1, q.2.1, q.2.2] =
        createCompositeKey ot.transaction [customerID, accountID, stamp.id] ↔
          q = (customerID, accountID, stamp.id) :=
      (createCompositeKey_eq_iff hsep' (by rfl)).trans (by simp [Prod.ext_iff])
    simp only [recordTransaction, toLedger_transactions, Store.getState_putState,
      createTransaction_key, hiff, Ledger.transactions_record, Function.update_apply]
    split_ifs <;> rfl

theorem toLedger_debitAccount {a : Account} (hsep : SeparatorFree [a.customerID, a.id])
    (amount : Int64) :
    (debitAccount ot s a amount).toLedger ot = (s.toLedger ot).putAccount (a.debit amount) :=
  @toLedger_putState_account ot s (a.debit amount) hsep

theorem toLedger_creditAccount {a : Account} (hsep : SeparatorFree [a.customerID, a.id])
    (amount : Int64) :
    (creditAccount ot s a amount).toLedger ot = (s.toLedger ot).putAccount (a.credit amount) :=
  @toLedger_putState_account ot s (a.credit amount) hsep

/-! ## Reads -/

/-- In a well-keyed store an account key holds what the ledger holds for its pair, as an account
record. -/
theorem WellKeyed.getState_account (hw : WellKeyed ot s) (customerID accountID : GoString) :
    s.getState (createCompositeKey ot.account [customerID, accountID]) =
      ((s.toLedger ot).accounts (customerID, accountID)).map .account := by
  cases hr : s.getState (createCompositeKey ot.account [customerID, accountID]) with
  | none => simp [hr]
  | some r => rw [toLedger_accounts, hr, (hw.account_at hr).1]; rfl

/-- In a well-keyed store the ledger's account of a pair is the account its key holds. -/
theorem WellKeyed.toLedger_accounts (hw : WellKeyed ot s) (customerID accountID : GoString) :
    (s.toLedger ot).accounts (customerID, accountID) =
      (s.getState (createCompositeKey ot.account [customerID, accountID])).map Record.toAccount := by
  rw [hw.getState_account, Option.map_map]
  cases (s.toLedger ot).accounts (customerID, accountID) <;> rfl

theorem AccountIdsSeparatorFree.found (h : AccountIdsSeparatorFree s) (hw : WellKeyed ot s)
    {xs : List GoString} {r : Record} (hr : s.getState (createCompositeKey ot.account xs) = some r) :
    SeparatorFree [r.toAccount.customerID, r.toAccount.id] :=
  h _ _ ((hw.account_at hr).1 ▸ hr)

/-- Over separator-free identifiers every account the store holds sits under its own pair. -/
theorem toLedger_coherent (hw : WellKeyed ot s) (hs : AccountIdsSeparatorFree s) :
    (s.toLedger ot).Coherent := by
  intro p a hp
  obtain ⟨r, hr, hra⟩ := Option.bind_eq_some.1 hp
  cases r with
  | transaction t => cases hra
  | account a' =>
    cases hra
    have h := (createCompositeKey_eq_iff (hs _ _ hr) (by rfl)).1 (hw _ _ hr)
    simp only [List.cons.injEq, and_true] at h
    exact Prod.ext h.1.symm h.2.symm

/-! ## One call -/

theorem toLedger_openAccount (stamps : Stamp × Stamp) {args : List (JsonDoc Account)}
    (hp : SeparatorFree (Call.OpenAccount args).payloadIds) :
    (openAccount ot s args).store.toLedger ot = (s.toLedger ot).step ⟨.OpenAccount args, stamps⟩ := by
  match args, hp with
  | [], _ => rfl
  | payload :: rest, hp =>
    cases h : createAccount payload with
    | error e => simp only [openAccount, Ledger.step, h]
    | ok a =>
      obtain ⟨rfl, -⟩ := createAccount_ok h
      rw [openAccount_of_ok ot s _ rest h]
      simp only [Ledger.step, h]
      exact toLedger_putState_account hp

theorem toLedger_closeAccount (hw : WellKeyed ot s) (hs : AccountIdsSeparatorFree s)
    (stamps : Stamp × Stamp) (args : List GoString) :
    (closeAccount ot s args).store.toLedger ot = (s.toLedger ot).step ⟨.CloseAccount args, stamps⟩ := by
  match args with
  | [customerID, accountID] =>
    cases hr : s.getState (createCompositeKey ot.account [customerID, accountID]) with
    | none =>
      simp only [closeAccount, getAccount_pair, hr, Ledger.step, hw.toLedger_accounts, Option.map_none']
    | some r =>
      rw [closeAccount_of_found ot s _ _ hr]
      simp only [Ledger.step, hw.toLedger_accounts, hr, Option.map_some']
      exact toLedger_putState_account (hs.found hw hr)
  | [] | [_] | _ :: _ :: _ :: _ => rfl

theorem toLedger_topupAccount (hw : WellKeyed ot s) (hs : AccountIdsSeparatorFree s)
    (stamps : Stamp × Stamp) (args : List GoString) :
    (topupAccount ot s args).store.toLedger ot = (s.toLedger ot).step ⟨.TopupAccount args, stamps⟩ := by
  match args with
  | [customerID, accountID, amountText] =>
    cases hr : s.getState (createCompositeKey ot.account [customerID, accountID]) with
    | none =>
      obtain ⟨e, he⟩ := topupAccount_of_missing ot s _ _ amountText hr
      simp only [he, Ledger.step, hw.toLedger_accounts, hr, Option.map_none']
    | some r =>
      cases hn : parseInt amountText with
      | none =>
        obtain ⟨e, he⟩ := topupAccount_of_unparsable ot s _ _ _ hr hn
        simp only [he, Ledger.step, hw.toLedger_accounts, hr, hn, Option.map_some']
      | some n =>
        rw [topupAccount_of_found ot s _ _ _ hr hn]
        simp only [Ledger.step, hw.toLedger_accounts, hr, hn, Option.map_some']
        exact toLedger_putState_account (hs.found hw hr)
  | [] | [_] | [_, _] | _ :: _ :: _ :: _ :: _ => rfl

theorem toLedger_settleTransfer {stamps : Stamp × Stamp} {t : Transfer} {fa ta : Account}
    (hf : SeparatorFree [fa.customerID, fa.id]) (ht : SeparatorFree [ta.customerID, ta.id])
    (h1 : (48 : Fin 256) ∉ stamps.1.id) (h2 : (48 : Fin 256) ∉ stamps.2.id) :
    (settleTransfer ot stamps s t fa ta).store.toLedger ot = (s.toLedger ot).settle stamps t fa ta := by
  unfold settleTransfer Ledger.settle
  split_ifs
  · exact toLedger_recordTransaction _ hf h1 _ _ _
  · exact toLedger_recordTransaction _ ht h1 _ _ _
  · exact toLedger_recordTransaction _ hf h1 _ _ _
  · dsimp only
    rw [toLedger_recordTransaction _ ht h2, toLedger_creditAccount ht,
      toLedger_recordTransaction _ hf h1, toLedger_debitAccount hf]

theorem toLedger_transferMoney (hw : WellKeyed ot s) (hs : AccountIdsSeparatorFree s)
    {stamps : Stamp × Stamp} (h1 : (48 : Fin 256) ∉ stamps.1.id) (h2 : (48 : Fin 256) ∉ stamps.2.id)
    (args : List (JsonDoc Transfer)) :
    (transferMoney ot stamps s args).store.toLedger ot =
      (s.toLedger ot).step ⟨.TransferMoney args, stamps⟩ := by
  match args with
  | [] => rfl
  | d :: rest =>
    by_cases hv : (d.getD default).Valid
    · cases hf : s.getState (createCompositeKey ot.account
          [(d.getD default).fromCustomerID, (d.getD default).fromAccountID]) with
      | none =>
        obtain ⟨e, he⟩ := transferMoney_of_from_missing ot stamps s d rest hv hf
        simp only [he, Ledger.step, if_pos hv, hw.toLedger_accounts, hf, Option.map_none']
      | some fr =>
        cases ht : s.getState (createCompositeKey ot.account
            [(d.getD default).toCustomerID, (d.getD default).toAccountID]) with
        | none =>
          obtain ⟨e, he⟩ := transferMoney_of_to_missing ot stamps s d rest hv hf ht
          simp only [he, Ledger.step, if_pos hv, hw.toLedger_accounts, hf, ht, Option.map_some',
            Option.map_none']
        | some tr =>
          rw [transferMoney_of_found ot stamps s d rest hv hf ht]
          simp only [Ledger.step, if_pos hv, hw.toLedger_accounts, hf, ht, Option.map_some']
          exact toLedger_settleTransfer (hs.found hw hf) (hs.found hw ht) h1 h2
    · obtain ⟨e, he⟩ := transferMoney_of_invalid ot stamps s d rest hv
      simp only [he, Ledger.step, if_neg hv]

/-- Over separator-free identifiers a call changes the ledger a store holds as the ledger's own
step does. -/
theorem toLedger_handleInvocation (hw : WellKeyed ot s) (hs : AccountIdsSeparatorFree s)
    {i : Invocation} (hi : i.SeparatorFreeIds) :
    (handleInvocation ot s i).store.toLedger ot = (s.toLedger ot).step i := by
  obtain ⟨call, stamps⟩ := i
  simp only [Invocation.SeparatorFreeIds, separatorFree_cons] at hi
  cases call with
  | OpenAccount args => exact toLedger_openAccount stamps hi.2.2
  | CloseAccount args => exact toLedger_closeAccount hw hs stamps args
  | TransferMoney args => exact toLedger_transferMoney hw hs hi.1 hi.2.1 args
  | TopupAccount args => exact toLedger_topupAccount hw hs stamps args
  | GetAccount _ | GetAccountList _ | GetTransaction _ | GetTransactionList _ => rfl

/-! ## Runs -/

theorem AccountIdsSeparatorFree.putState (h : AccountIdsSeparatorFree s) {k : GoString} {r : Record}
    (hr : ∀ a, r = .account a → SeparatorFree [a.customerID, a.id]) :
    AccountIdsSeparatorFree (s.putState k r) := fun k' a hk => by
  rcases Store.getState_putState_eq_some hk with hk | rfl
  exacts [h k' a hk, hr a rfl]

theorem accountIdsSeparatorFree_step (hw : WellKeyed ot s) (hs : AccountIdsSeparatorFree s)
    {i : Invocation} (hp : SeparatorFree i.call.payloadIds) :
    AccountIdsSeparatorFree (handleInvocation ot s i).store := by
  have tx : ∀ {s : Store} (hs : AccountIdsSeparatorFree s) (stamp : Stamp) c a t code status,
      AccountIdsSeparatorFree (recordTransaction ot stamp s c a t code status) :=
    fun hs _ _ _ _ _ _ => hs.putState fun _ h => by cases h
  rcases handleInvocation_store_cases ot s i with he | ⟨_, _, a, hc, ha, he⟩ | ⟨_, _, r, -, hr, he⟩ |
    ⟨_, _, _, r, n, -, hr, -, he⟩ | ⟨t, fr, tr, -, -, hf, ht, ⟨_, _, _, he⟩ | ⟨-, -, -, he⟩⟩ <;>
    rw [he]
  · exact hs
  · obtain ⟨rfl, -⟩ := createAccount_ok ha
    refine hs.putState fun _ h x hx => hp x ?_
    cases h
    simpa only [Call.payloadIds, hc] using hx
  · exact hs.putState fun _ h => by cases h; exact hs.found hw hr
  · exact hs.putState fun _ h => by cases h; exact hs.found hw hr
  · exact tx hs _ _ _ _ _ _
  · exact tx ((tx (hs.putState fun _ h => by cases h; exact hs.found hw hf) _ _ _ _ _ _).putState
      fun _ h => by cases h; exact hs.found hw ht) _ _ _ _ _ _

theorem ReachableUnder.accountIdsSeparatorFree
    (hs : ReachableUnder ot (fun _ i => i.SeparatorFreeIds) s) : AccountIdsSeparatorFree s := by
  induction hs with
  | empty => intro k a h; cases h
  | step i hs hi ih =>
    exact accountIdsSeparatorFree_step hs.reachable.wellKeyed ih fun x hx => hi x (.tail _ (.tail _ hx))

theorem toLedger_run (is : List Invocation)
    (hs : ReachableUnder ot (fun _ i => i.SeparatorFreeIds) s) (h : ∀ i ∈ is, i.SeparatorFreeIds) :
    (run ot s is).toLedger ot = (s.toLedger ot).run is := by
  induction is generalizing s with
  | nil => rfl
  | cons i is ih =>
    have hi := h i (List.mem_cons_self _ _)
    show (run ot (handleInvocation ot s i).store is).toLedger ot = ((s.toLedger ot).step i).run is
    rw [← toLedger_handleInvocation hs.reachable.wellKeyed hs.accountIdsSeparatorFree hi]
    exact ih (hs.step i hi) fun j hj => h j (List.mem_cons_of_mem _ hj)

end

/-- When no identifier holds the separator, a run of the chaincode from the empty store holds
the ledger the same run of the ledger's operations leaves. -/
theorem run_refines_ledger (ot : ObjectTypes) (is : List Invocation)
    (h : ∀ i ∈ is, i.SeparatorFreeIds) :
    (run ot Store.empty is).toLedger ot = Ledger.empty.run is :=
  toLedger_run is .empty h

/-- The spec's scenario and a transfer, a run with no separator in any identifier. -/
def scenarioRun : List Invocation :=
  [⟨.OpenAccount [some (openedAccount "c1" "a1" 1000)], default⟩,
    ⟨.OpenAccount [some (openedAccount "c2" "a2" 0)], default⟩,
    ⟨.TransferMoney [some (scenarioTransfer 200 10)], twoStamps⟩]

theorem scenario_refines_ledger :
    (∀ i ∈ scenarioRun, i.SeparatorFreeIds) ∧
      (run accountAndTransaction Store.empty scenarioRun).toLedger accountAndTransaction =
        Ledger.empty.run scenarioRun :=
  ⟨by decide, run_refines_ledger accountAndTransaction scenarioRun (by decide)⟩

/-- When no identifier holds the separator, a call leaves the bytes `GetAccount` returns for
every pair it does not name as they were, whatever that pair's identifiers hold. -/
theorem getAccount_untouched {ot : ObjectTypes} {s : Store}
    (hs : ReachableUnder ot (fun _ i => i.SeparatorFreeIds) s) {i : Invocation}
    (hi : i.SeparatorFreeIds) {customerID accountID : GoString}
    (hp : (customerID, accountID) ∉ i.accountPairs) :
    getAccount ot (handleInvocation ot s i).store [customerID, accountID] =
      getAccount ot s [customerID, accountID] := by
  have hw := hs.reachable.wellKeyed
  have hsep := hs.accountIdsSeparatorFree
  have hL : ((handleInvocation ot s i).store.toLedger ot).accounts (customerID, accountID) =
      (s.toLedger ot).accounts (customerID, accountID) := by
    rw [toLedger_handleInvocation hw hsep hi]
    exact (toLedger_coherent hw hsep).step_accounts_of_not_mem hp
  rw [getAccount_pair, getAccount_pair, (hs.step i hi).reachable.wellKeyed.getState_account,
    hw.getState_account, hL]

theorem scenario_getAccount_untouched :
    ReachableUnder accountAndTransaction (fun _ i => i.SeparatorFreeIds) scenarioStore ∧
      (⟨.TopupAccount [goString "c1", goString "a1", goString "5"], default⟩ : Invocation).SeparatorFreeIds ∧
      (goString "c2", goString "a2") ∉
        (⟨.TopupAccount [goString "c1", goString "a1", goString "5"], default⟩ : Invocation).accountPairs ∧
      getAccount accountAndTransaction
          (handleInvocation accountAndTransaction scenarioStore
            ⟨.TopupAccount [goString "c1", goString "a1", goString "5"], default⟩).store
          [goString "c2", goString "a2"] =
        getAccount accountAndTransaction scenarioStore [goString "c2", goString "a2"] :=
  have hs : ReachableUnder accountAndTransaction (fun _ i => i.SeparatorFreeIds) scenarioStore :=
    .step _ (.step _ .empty (by decide)) (by decide)
  ⟨hs, by decide, by decide, getAccount_untouched hs (by decide) (by decide)⟩

end FinNet

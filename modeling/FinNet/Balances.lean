import FinNet.Accounts

/-!
# Balances

The chaincode keeps no floor on a balance. A transfer's funds check reads `balance - amount`
while the debit takes `amount + fee`, a top-up credits whatever `strconv.ParseInt` returns, and
every sum and difference on the balance path is `int64` arithmetic, modulo `2^64`. Balances stay
non-negative over the runs whose top-ups and settled transfers respect the floor and the range.
-/

namespace FinNet

/-- Every stored account holds a non-negative balance. -/
def BalancesNonneg (s : Store) : Prop :=
  ∀ k a, s.getState k = some (.account a) → 0 ≤ a.balance.toInt

/-- The stores a run from the empty store reaches when every invocation satisfies `P` at the
store it meets. -/
inductive ReachableUnder (ot : ObjectTypes) (P : Store → Invocation → Prop) : Store → Prop where
  | empty : ReachableUnder ot P Store.empty
  | step {s : Store} (i : Invocation) :
      ReachableUnder ot P s → P s i → ReachableUnder ot P (handleInvocation ot s i).store

/-- An invocation that keeps balances above the floor and in range: a top-up that finds its
account adds a non-negative amount without passing `2^63`; a transfer that reaches the debit
leaves the fee inside `balance - amount` and credits without passing `2^63`. -/
def FloorRespecting (ot : ObjectTypes) (s : Store) (i : Invocation) : Prop :=
  match i.call with
  | .TopupAccount [customerID, accountID, amountText] =>
    ∀ r n, s.getState (createCompositeKey ot.account [customerID, accountID]) = some r →
      parseInt amountText = some n → 0 ≤ n.toInt ∧ r.toAccount.balance.toInt + n.toInt < 2 ^ 63
  | .TransferMoney (d :: _) =>
    let t := d.getD default
    ∀ fr tr, s.getState (createCompositeKey ot.account [t.fromCustomerID, t.fromAccountID]) = some fr →
      s.getState (createCompositeKey ot.account [t.toCustomerID, t.toAccountID]) = some tr →
      t.Valid → ¬fr.toAccount.closed → ¬tr.toAccount.closed →
      0 ≤ (fr.toAccount.balance - t.amount).toInt →
      t.fee.toInt ≤ fr.toAccount.balance.toInt - t.amount.toInt ∧
        tr.toAccount.balance.toInt + t.amount.toInt < 2 ^ 63
  | _ => True

section

variable {ot : ObjectTypes} {P : Store → Invocation → Prop} {s : Store}

theorem ReachableUnder.reachable (hs : ReachableUnder ot P s) : Reachable ot s := by
  induction hs with
  | empty => exact .empty
  | step i _ _ ih => exact ih.step i

theorem BalancesNonneg.putState (h : BalancesNonneg s) {k : GoString} {r : Record}
    (hr : ∀ a, r = .account a → 0 ≤ a.balance.toInt) : BalancesNonneg (s.putState k r) := by
  intro k' a hk
  rw [Store.getState_putState] at hk
  split at hk
  · cases hk
    exact hr a rfl
  · exact h k' a hk

theorem BalancesNonneg.recordTransaction (h : BalancesNonneg s) (stamp : Stamp)
    (customerID accountID : GoString) (t : Transfer) (code : TxFailureCode) (status : TxStatus) :
    BalancesNonneg (recordTransaction ot stamp s customerID accountID t code status) :=
  h.putState fun _ h => by cases h

/-- The debit of `amount + fee` stays above zero when the fee fits inside `balance - amount`. -/
theorem debit_nonneg {a : Account} {t : Transfer} (hb : 0 ≤ a.balance.toInt) (hv : t.Valid)
    (hfee : t.fee.toInt ≤ a.balance.toInt - t.amount.toInt) :
    0 ≤ (a.debit (t.amount + t.fee)).balance.toInt := by
  obtain ⟨hamount, hfee0, -⟩ := hv
  have hlt := int64_toInt_lt a.balance
  have hsum : (t.amount + t.fee).toInt = t.amount.toInt + t.fee.toInt :=
    int64_toInt_add_of_fits (by omega) (by omega)
  rw [Account.debit, int64_toInt_sub_of_fits] <;> omega

/-- A credit of a non-negative amount that stays below `2^63` stays above zero. -/
theorem credit_nonneg {a : Account} {n : Int64} (hb : 0 ≤ a.balance.toInt) (hn : 0 ≤ n.toInt)
    (hfit : a.balance.toInt + n.toInt < 2 ^ 63) : 0 ≤ (a.credit n).balance.toInt := by
  rw [Account.credit, int64_toInt_add_of_fits] <;> omega

theorem balancesNonneg_step (hw : WellKeyed ot s) (hb : BalancesNonneg s) {i : Invocation}
    (hi : FloorRespecting ot s i) : BalancesNonneg (handleInvocation ot s i).store := by
  rcases handleInvocation_store_cases ot s i with he | ⟨_, _, a, -, ha, he⟩ | ⟨_, _, r, -, hr, he⟩ |
    ⟨_, _, _, r, n, hc, hr, hn, he⟩ |
    ⟨t, fr, tr, ⟨d, rest, hc, rfl⟩, hv, hf, ht, ⟨_, _, _, he⟩ | ⟨hfc, htc, hfunds, he⟩⟩ <;> rw [he]
  · exact hb
  · exact hb.putState fun _ h => by cases h; exact (createAccount_ok ha).2.2.2
  · exact hb.putState fun _ h => by cases h; exact hb _ r.toAccount ((hw.account_at hr).1 ▸ hr)
  · simp only [FloorRespecting, hc] at hi
    obtain ⟨hn0, hfit⟩ := hi r n hr hn
    exact hb.putState fun _ h => by
      cases h
      exact credit_nonneg (hb _ _ ((hw.account_at hr).1 ▸ hr)) hn0 hfit
  · exact hb.recordTransaction _ _ _ _ _ _
  · simp only [FloorRespecting, hc] at hi
    obtain ⟨hfee, hfit⟩ := hi fr tr hf ht hv hfc htc hfunds
    have hfb := hb _ _ ((hw.account_at hf).1 ▸ hf)
    have htb := hb _ _ ((hw.account_at ht).1 ▸ ht)
    refine ((((hb.putState ?_).recordTransaction _ _ _ _ _ _).putState ?_).recordTransaction
      _ _ _ _ _ _) <;> intro _ h <;> cases h
    exacts [debit_nonneg hfb hv hfee, credit_nonneg htb hv.1.le hfit]

theorem balances_nonneg (hs : ReachableUnder ot (FloorRespecting ot) s) : BalancesNonneg s := by
  induction hs with
  | empty => intro k a h; simp at h
  | step i hs hi ih => exact balancesNonneg_step hs.reachable.wellKeyed ih hi

theorem scenario_transfer_balances_nonneg :
    BalancesNonneg (handleInvocation accountAndTransaction scenarioStore
      ⟨.TransferMoney [some (scenarioTransfer 200 10)], twoStamps⟩).store := by
  refine balances_nonneg (.step _ (.step _ (.step _ .empty trivial) trivial) ?_)
  intro fr tr hf ht _ _ _ _
  obtain rfl := Option.some.inj
    (hf.symm.trans (by decide : _ = some (.account (openedAccount "c1" "a1" 1000))))
  obtain rfl := Option.some.inj
    (ht.symm.trans (by decide : _ = some (.account (openedAccount "c2" "a2" 0))))
  decide

/-- A transfer of 5 with a fee of 2000 passes the funds check on `c1/a1`, which holds 1000, and
leaves it at -1005. -/
theorem transfer_fee_overdraws :
    ¬∀ s, Reachable accountAndTransaction s → BalancesNonneg s := fun h => by
  have hs : Reachable accountAndTransaction scenarioStore := reachable_run _ .empty _
  exact absurd (h _ (hs.step ⟨.TransferMoney [some (scenarioTransfer 5 2000)], twoStamps⟩)
    (createCompositeKey accountAndTransaction.account [goString "c1", goString "a1"])
    (openedAccount "c1" "a1" (-1005)) (by decide)) (by decide)

end

/-! ## The balance path in `int64` -/

/-- What the balance path computes in an invocation that succeeds: each `int64` operation gives
the integer result reduced modulo `2^64` into the `int64` range, which is the integer result itself
while that fits. A top-up writes the account back with `balance + n` at the pair's key. A transfer
passes the funds check on `balance - amount`, writes the destination with `balance + amount` at its
key and, when the two keys differ, the source with `balance - (amount + fee)` at its key. -/
def BalancePathWraps (ot : ObjectTypes) (s : Store) (i : Invocation) : Prop :=
  ∀ r, (handleInvocation ot s i).result = .ok r →
    match i.call with
    | .TopupAccount [customerID, accountID, amountText] =>
      ∃ a n, s.getState (createCompositeKey ot.account [customerID, accountID]) = some (.account a) ∧
        parseInt amountText = some n ∧
        (handleInvocation ot s i).store.getState (createCompositeKey ot.account [customerID, accountID]) =
          some (.account (a.credit n)) ∧
        (a.credit n).balance.toInt = (a.balance.toInt + n.toInt).bmod (2 ^ 64) ∧
        (FitsInt64 (a.balance.toInt + n.toInt) →
          (a.credit n).balance.toInt = a.balance.toInt + n.toInt)
    | .TransferMoney args =>
      ∃ t fa ta, (∃ d rest, args = d :: rest ∧ d.getD default = t) ∧
        s.getState (createCompositeKey ot.account [t.fromCustomerID, t.fromAccountID]) =
          some (.account fa) ∧
        s.getState (createCompositeKey ot.account [t.toCustomerID, t.toAccountID]) =
          some (.account ta) ∧
        0 ≤ (fa.balance.toInt - t.amount.toInt).bmod (2 ^ 64) ∧
        (handleInvocation ot s i).store.getState
          (createCompositeKey ot.account [t.toCustomerID, t.toAccountID]) =
            some (.account (ta.credit t.amount)) ∧
        (createCompositeKey ot.account [t.fromCustomerID, t.fromAccountID] ≠
            createCompositeKey ot.account [t.toCustomerID, t.toAccountID] →
          (handleInvocation ot s i).store.getState
            (createCompositeKey ot.account [t.fromCustomerID, t.fromAccountID]) =
              some (.account (fa.debit (t.amount + t.fee)))) ∧
        (fa.debit (t.amount + t.fee)).balance.toInt =
          (fa.balance.toInt - (t.amount.toInt + t.fee.toInt).bmod (2 ^ 64)).bmod (2 ^ 64) ∧
        (ta.credit t.amount).balance.toInt = (ta.balance.toInt + t.amount.toInt).bmod (2 ^ 64) ∧
        (FitsInt64 (fa.balance.toInt - t.amount.toInt) → t.amount.toInt ≤ fa.balance.toInt) ∧
        (FitsInt64 (t.amount.toInt + t.fee.toInt) →
          FitsInt64 (fa.balance.toInt - (t.amount.toInt + t.fee.toInt)) →
          (fa.debit (t.amount + t.fee)).balance.toInt =
            fa.balance.toInt - (t.amount.toInt + t.fee.toInt)) ∧
        (FitsInt64 (ta.balance.toInt + t.amount.toInt) →
          (ta.credit t.amount).balance.toInt = ta.balance.toInt + t.amount.toInt)
    | _ => True

section

variable {ot : ObjectTypes} {s : Store}

end

/-! ## The total balance -/

/-- What a stored value adds to the total balance. -/
def Record.accountBalance : Record → Int
  | .account a => a.balance.toInt
  | .transaction _ => 0

@[simp] theorem Record.accountBalance_account (a : Account) :
    (Record.account a).accountBalance = a.balance.toInt := rfl

@[simp] theorem Record.accountBalance_transaction (t : Transaction) :
    (Record.transaction t).accountBalance = 0 := rfl

/-- The sum of the stored accounts' balances, over the integers. -/
def Store.totalBalance (s : Store) : Int := (s.entries.map (·.2.accountBalance)).sum

section

variable {ot : ObjectTypes} {s : Store}

/-- A transaction write leaves the total balance as it was: its key holds no account. -/
theorem totalBalance_recordTransaction (hw : WellKeyed ot s) (stamp : Stamp)
    (customerID accountID : GoString) (t : Transfer) (code : TxFailureCode) (status : TxStatus) :
    (recordTransaction ot stamp s customerID accountID t code status).totalBalance = s.totalBalance := by
  have h := Store.sum_putState Record.accountBalance s
    ((createTransaction stamp customerID accountID t code status).key ot)
    (.transaction (createTransaction stamp customerID accountID t code status))
  have hold : ((s.getState ((createTransaction stamp customerID accountID t code status).key ot)).map
      Record.accountBalance).getD 0 = 0 := by
    cases hr : s.getState ((createTransaction stamp customerID accountID t code status).key ot) with
    | none => rfl
    | some r =>
      cases r with
      | account a => exact absurd (hw _ _ hr) (Account.key_ne_transaction_key ot a _).symm
      | transaction _ => rfl
  rw [hold, Record.accountBalance_transaction] at h
  simpa [Store.totalBalance, recordTransaction] using h

/-- Writing an account over the stored account at its key moves the total by the difference of
their balances. -/
theorem totalBalance_putState_account {a : Account} (ha : s.getState (a.key ot) = some (.account a))
    (a' : Account) :
    (s.putState (a.key ot) (.account a')).totalBalance =
      s.totalBalance - a.balance.toInt + a'.balance.toInt := by
  have h := Store.sum_putState Record.accountBalance s (a.key ot) (.account a')
  simp only [ha, Option.map_some', Option.getD_some, Record.accountBalance_account] at h
  simp only [Store.totalBalance]
  omega

/-- Writing at a key that holds nothing adds the written value's term to the total. -/
theorem totalBalance_putState_fresh {k : GoString} (hk : s.getState k = none) (r : Record) :
    (s.putState k r).totalBalance = s.totalBalance + r.accountBalance := by
  have h := Store.sum_putState Record.accountBalance s k r
  simp only [hk, Option.map_none', Option.getD_none, add_zero] at h
  exact h

/-- A settled transfer between stored accounts at two keys lowers the total balance by exactly
the fee, when no `int64` sum on the way wraps. -/
theorem totalBalance_settledStore (hw : WellKeyed ot s) (stamps : Stamp × Stamp) {t : Transfer}
    {fa ta : Account} (hk : fa.key ot ≠ ta.key ot) (hf : s.getState (fa.key ot) = some (.account fa))
    (ht : s.getState (ta.key ot) = some (.account ta)) (hamt : 0 < t.amount.toInt)
    (hfee : 0 ≤ t.fee.toInt) (hsum : t.amount.toInt + t.fee.toInt < 2 ^ 63)
    (hdebit : -2 ^ 63 ≤ fa.balance.toInt - (t.amount.toInt + t.fee.toInt))
    (hcredit : ta.balance.toInt + t.amount.toInt < 2 ^ 63) :
    (settledStore ot stamps s t fa ta).totalBalance = s.totalBalance - t.fee.toInt := by
  have hw1 : WellKeyed ot (debitAccount ot s fa (t.amount + t.fee)) := hw.putState (.account _)
  have hw3 : WellKeyed ot (creditAccount ot (recordTransaction ot stamps.1
      (debitAccount ot s fa (t.amount + t.fee)) fa.customerID fa.id t .empty .Debited) ta t.amount) :=
    (hw1.recordTransaction _ _ _ _ _ _).putState (.account _)
  have htk : ta.key ot = createCompositeKey ot.account [ta.customerID, ta.id] := rfl
  have hta : (recordTransaction ot stamps.1 (debitAccount ot s fa (t.amount + t.fee)) fa.customerID
      fa.id t .empty .Debited).getState (ta.key ot) = some (.account ta) := by
    rw [htk, getState_recordTransaction_account, debitAccount, Store.getState_putState,
      Account.debit_key, ← htk, if_neg (Ne.symm hk), ht]
  have hsum' : (t.amount + t.fee).toInt = t.amount.toInt + t.fee.toInt :=
    int64_toInt_add_of_fits (by omega) hsum
  have hdebit' : (fa.debit (t.amount + t.fee)).balance.toInt =
      fa.balance.toInt - (t.amount.toInt + t.fee.toInt) := by
    rw [Account.debit, int64_toInt_sub_of_fits] <;> have := int64_toInt_lt fa.balance <;> omega
  have hcredit' : (ta.credit t.amount).balance.toInt = ta.balance.toInt + t.amount.toInt :=
    int64_toInt_add_of_fits (by have := int64_le_toInt ta.balance; omega) hcredit
  rw [settledStore, totalBalance_recordTransaction hw3, creditAccount, Account.credit_key,
    totalBalance_putState_account hta, totalBalance_recordTransaction hw1, debitAccount,
    Account.debit_key, totalBalance_putState_account hf, hdebit', hcredit']
  omega

/-- A settled transfer between two stored accounts with different keys lowers the total balance
by exactly the fee, when no `int64` sum on the way wraps. -/
theorem transferMoney_total_balance (hs : Reachable ot s) {stamps : Stamp × Stamp} {t : Transfer}
    {r : Response} (h : (transferMoney ot stamps s [some t]).result = .ok r)
    (hk : createCompositeKey ot.account [t.fromCustomerID, t.fromAccountID] ≠
      createCompositeKey ot.account [t.toCustomerID, t.toAccountID])
    {fa ta : Account}
    (hf : s.getState (createCompositeKey ot.account [t.fromCustomerID, t.fromAccountID]) =
      some (.account fa))
    (ht : s.getState (createCompositeKey ot.account [t.toCustomerID, t.toAccountID]) =
      some (.account ta))
    (hsum : t.amount.toInt + t.fee.toInt < 2 ^ 63)
    (hdebit : -2 ^ 63 ≤ fa.balance.toInt - (t.amount.toInt + t.fee.toInt))
    (hcredit : ta.balance.toInt + t.amount.toInt < 2 ^ 63) :
    (transferMoney ot stamps s [some t]).store.totalBalance = s.totalBalance - t.fee.toInt := by
  obtain ⟨t', fa', ta', ⟨d, rest, hargs, rfl⟩, ⟨hamt, hfee, -⟩, hf', hfk, ht', htk, -, -, -, hst⟩ :=
    transferMoney_settled hs h
  obtain ⟨rfl, rfl⟩ := List.cons.inj hargs
  simp only [Option.getD_some] at hf' hfk ht' htk hst hamt hfee
  cases hf.symm.trans hf'
  cases ht.symm.trans ht'
  rw [hst]
  exact totalBalance_settledStore hs.wellKeyed stamps (by rw [hfk, htk]; exact hk) (hfk ▸ hf)
    (htk ▸ ht) hamt hfee hsum hdebit hcredit

theorem scenario_total_balance :
    (transferMoney accountAndTransaction twoStamps scenarioStore
        [some (scenarioTransfer 200 10)]).store.totalBalance =
      scenarioStore.totalBalance - (scenarioTransfer 200 10).fee.toInt :=
  transferMoney_total_balance (reachable_run _ .empty _) rfl (by decide)
    (show scenarioStore.getState (createCompositeKey accountAndTransaction.account
      [goString "c1", goString "a1"]) = some (.account (openedAccount "c1" "a1" 1000)) by decide)
    (show scenarioStore.getState (createCompositeKey accountAndTransaction.account
      [goString "c2", goString "a2"]) = some (.account (openedAccount "c2" "a2" 0)) by decide)
    (by decide) (by decide) (by decide)

end

end FinNet

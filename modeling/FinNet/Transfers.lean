import FinNet.Invariant

/-!
# Transfers

What `TransferMoney` leaves behind. A rejected transfer writes at most one failed transaction and
no account. A settled one writes the debited source and the credited destination, each copied from
what was read before either write: when both pairs name one stored record the credit overwrites
the debit. Balances move by `int64` arithmetic, modulo `2^64`.
-/

namespace FinNet

section

variable {ot : ObjectTypes}

@[simp] theorem account_key_eq_transaction_key (xs : List GoString) (t : Transaction) :
    (createCompositeKey ot.account xs = t.key ot) = False :=
  eq_false (ot.key_ne xs _)

/-- A transaction write leaves every account key as it was. -/
@[simp] theorem getState_recordTransaction_account (stamp : Stamp) (s : Store)
    (customerID accountID : GoString) (t : Transfer) (code : TxFailureCode) (status : TxStatus)
    (xs : List GoString) :
    (recordTransaction ot stamp s customerID accountID t code status).getState
      (createCompositeKey ot.account xs) = s.getState (createCompositeKey ot.account xs) := by
  simp [recordTransaction]

/-- The accounts a settled transfer leaves: the credited destination over the debited source. -/
theorem settledStore_getState_account (stamps : Stamp × Stamp) (s : Store) (t : Transfer)
    (fa ta : Account) (xs : List GoString) :
    (settledStore ot stamps s t fa ta).getState (createCompositeKey ot.account xs) =
      if createCompositeKey ot.account xs = ta.key ot then some (.account (ta.credit t.amount))
      else if createCompositeKey ot.account xs = fa.key ot then
        some (.account (fa.debit (t.amount + t.fee)))
      else s.getState (createCompositeKey ot.account xs) := by
  simp [settledStore, creditAccount, debitAccount]

/-- A transfer that returns without error validated, found both accounts open with funds for the
amount, and settled. -/
theorem transferMoney_ok {stamps : Stamp × Stamp} {s : Store} {args : List (JsonDoc Transfer)}
    {r : Response} (h : (transferMoney ot stamps s args).result = .ok r) :
    ∃ t fr tr, (∃ d rest, args = d :: rest ∧ d.getD default = t) ∧ t.Valid ∧
      s.getState (createCompositeKey ot.account [t.fromCustomerID, t.fromAccountID]) = some fr ∧
      s.getState (createCompositeKey ot.account [t.toCustomerID, t.toAccountID]) = some tr ∧
      ¬fr.toAccount.closed ∧ ¬tr.toAccount.closed ∧ 0 ≤ (fr.toAccount.balance - t.amount).toInt ∧
      r = .nil ∧
      (transferMoney ot stamps s args).store = settledStore ot stamps s t fr.toAccount tr.toAccount := by
  rcases transferMoney_cases ot stamps s args with ⟨e, he⟩ | ⟨t, fr, tr, hargs, hv, hf, ht, he⟩
  · rw [he] at h; cases h
  · rw [he] at h ⊢
    rcases settleTransfer_cases ot stamps s t fr.toAccount tr.toAccount with
      ⟨-, e, hs⟩ | ⟨-, -, e, hs⟩ | ⟨-, -, -, e, hs⟩ | ⟨hfc, htc, hb, hs⟩ <;> rw [hs] at h ⊢ <;>
      try cases h
    exact ⟨t, fr, tr, hargs, hv, hf, ht, hfc, htc, hb, rfl, rfl⟩

/-! ## Rejected transfers -/

/-- What `TransferMoney` may do to `s`, leaving `s'`, when it returns an error (§4.5 steps 1-6):
nothing when the decoded transfer fails `Validate` or an account is missing; otherwise no account
changes and one failed transaction is written, under the account the failing check is about. -/
def RejectionEffect (ot : ObjectTypes) (stamps : Stamp × Stamp) (s : Store)
    (args : List (JsonDoc Transfer)) (s' : Store) : Prop :=
  (args = [] → s' = s) ∧
  ∀ t, (∃ d rest, args = d :: rest ∧ d.getD default = t) →
    (¬t.Valid ∨
        s.getState (createCompositeKey ot.account [t.fromCustomerID, t.fromAccountID]) = none ∨
        s.getState (createCompositeKey ot.account [t.toCustomerID, t.toAccountID]) = none →
      s' = s) ∧
    ∀ fa ta, t.Valid →
      s.getState (createCompositeKey ot.account [t.fromCustomerID, t.fromAccountID]) =
        some (.account fa) →
      s.getState (createCompositeKey ot.account [t.toCustomerID, t.toAccountID]) =
        some (.account ta) →
      (∀ k a, s.getState k = some (.account a) → s'.getState k = some (.account a)) ∧
      (fa.closed →
        s' = s.putState (createCompositeKey ot.transaction [fa.customerID, fa.id, stamps.1.id])
          (.transaction (createTransaction stamps.1 fa.customerID fa.id t .AccountClosed .Failed))) ∧
      (¬fa.closed → ta.closed →
        s' = s.putState (createCompositeKey ot.transaction [ta.customerID, ta.id, stamps.1.id])
          (.transaction (createTransaction stamps.1 ta.customerID ta.id t .AccountClosed .Failed))) ∧
      (¬fa.closed → ¬ta.closed → (fa.balance - t.amount).toInt < 0 →
        s' = s.putState (createCompositeKey ot.transaction [fa.customerID, fa.id, stamps.1.id])
          (.transaction
            (createTransaction stamps.1 fa.customerID fa.id t .InsufficientFunds .Failed)))

/-- In a well-keyed store a transaction write leaves every account record in place. -/
theorem recordTransaction_keeps_accounts {s : Store} (hs : WellKeyed ot s)
    (stamp : Stamp) (customerID accountID : GoString) (t : Transfer) (code : TxFailureCode)
    (status : TxStatus) (k : GoString) (a : Account) (hk : s.getState k = some (.account a)) :
    (recordTransaction ot stamp s customerID accountID t code status).getState k =
      some (.account a) := by
  obtain rfl : k = a.key ot := hs k _ hk
  exact (getState_recordTransaction_account _ _ _ _ _ _ _ _).trans hk

/-- In a reachable store, what a transfer that returns without error read and wrote. -/
theorem transferMoney_settled {s : Store} (hs : Reachable ot s) {stamps : Stamp × Stamp}
    {args : List (JsonDoc Transfer)} {r : Response}
    (h : (transferMoney ot stamps s args).result = .ok r) :
    ∃ t fa ta, (∃ d rest, args = d :: rest ∧ d.getD default = t) ∧ t.Valid ∧
      s.getState (createCompositeKey ot.account [t.fromCustomerID, t.fromAccountID]) =
        some (.account fa) ∧
      fa.key ot = createCompositeKey ot.account [t.fromCustomerID, t.fromAccountID] ∧
      s.getState (createCompositeKey ot.account [t.toCustomerID, t.toAccountID]) =
        some (.account ta) ∧
      ta.key ot = createCompositeKey ot.account [t.toCustomerID, t.toAccountID] ∧
      ¬fa.closed ∧ ¬ta.closed ∧ 0 ≤ (fa.balance - t.amount).toInt ∧
      (transferMoney ot stamps s args).store = settledStore ot stamps s t fa ta := by
  obtain ⟨t, fr, tr, hargs, hv, hf, ht, hfc, htc, hb, -, hst⟩ := transferMoney_ok h
  obtain ⟨hfr, hfk⟩ := hs.wellKeyed.account_at hf
  obtain ⟨htr, htk⟩ := hs.wellKeyed.account_at ht
  exact ⟨t, fr.toAccount, tr.toAccount, hargs, hv, hfr ▸ hf, hfk, htr ▸ ht, htk, hfc, htc, hb, hst⟩

/-- A settled transfer between two stored records debits the source by the amount and the fee,
credits the destination by the amount, in `int64` arithmetic, and leaves every other account as
it was. -/
theorem transferMoney_settles_distinct {s : Store} (hs : Reachable ot s) {stamps : Stamp × Stamp}
    {t : Transfer} {r : Response} (h : (transferMoney ot stamps s [some t]).result = .ok r)
    (hk : createCompositeKey ot.account [t.fromCustomerID, t.fromAccountID] ≠
      createCompositeKey ot.account [t.toCustomerID, t.toAccountID]) :
    ∃ fa ta,
      s.getState (createCompositeKey ot.account [t.fromCustomerID, t.fromAccountID]) =
        some (.account fa) ∧
      s.getState (createCompositeKey ot.account [t.toCustomerID, t.toAccountID]) =
        some (.account ta) ∧
      (transferMoney ot stamps s [some t]).store.getState
        (createCompositeKey ot.account [t.fromCustomerID, t.fromAccountID]) =
          some (.account (fa.debit (t.amount + t.fee))) ∧
      (transferMoney ot stamps s [some t]).store.getState
        (createCompositeKey ot.account [t.toCustomerID, t.toAccountID]) =
          some (.account (ta.credit t.amount)) ∧
      ∀ xs, createCompositeKey ot.account xs ≠
          createCompositeKey ot.account [t.fromCustomerID, t.fromAccountID] →
        createCompositeKey ot.account xs ≠ createCompositeKey ot.account [t.toCustomerID, t.toAccountID] →
        (transferMoney ot stamps s [some t]).store.getState (createCompositeKey ot.account xs) =
          s.getState (createCompositeKey ot.account xs) := by
  obtain ⟨t', fa, ta, ⟨d, rest, hargs, rfl⟩, -, hf, hfk, ht, htk, -, -, -, hst⟩ :=
    transferMoney_settled hs h
  obtain ⟨rfl, rfl⟩ := List.cons.inj hargs
  simp only [Option.getD_some] at hf hfk ht htk hst
  have hft : createCompositeKey ot.account [t.fromCustomerID, t.fromAccountID] ≠ ta.key ot := by
    rw [htk]; exact hk
  refine ⟨fa, ta, hf, ht, ?_, ?_, fun xs h1 h2 => ?_⟩
  · rw [hst, settledStore_getState_account, if_neg hft, if_pos hfk.symm]
  · rw [hst, settledStore_getState_account, if_pos htk.symm]
  · rw [hst, settledStore_getState_account, if_neg (htk ▸ h2), if_neg (hfk ▸ h1)]

/-- The spec's settled scenario (§8): 200 with a fee of 10 from `c1/a1` to `c2/a2` leaves 790 and
200. -/
theorem scenario_transfer_settles :
    (transferMoney accountAndTransaction twoStamps scenarioStore
        [some (scenarioTransfer 200 10)]).store.getState
      (createCompositeKey accountAndTransaction.account [goString "c1", goString "a1"]) =
        some (.account (openedAccount "c1" "a1" 790)) ∧
    (transferMoney accountAndTransaction twoStamps scenarioStore
        [some (scenarioTransfer 200 10)]).store.getState
      (createCompositeKey accountAndTransaction.account [goString "c2", goString "a2"]) =
        some (.account (openedAccount "c2" "a2" 200)) := by
  obtain ⟨fa, ta, hf, ht, h1, h2, -⟩ := transferMoney_settles_distinct (reachable_run _ .empty _)
    (show (transferMoney accountAndTransaction twoStamps scenarioStore
      [some (scenarioTransfer 200 10)]).result = .ok .nil from rfl) (by decide)
  obtain rfl := Record.account.inj (Option.some.inj
    (hf.symm.trans (by decide : _ = some (.account (openedAccount "c1" "a1" 1000)))))
  obtain rfl := Record.account.inj (Option.some.inj
    (ht.symm.trans (by decide : _ = some (.account (openedAccount "c2" "a2" 0)))))
  exact ⟨h1.trans (by decide), h2.trans (by decide)⟩

/-- When the source and destination pairs name one stored record, a settled transfer leaves it
credited by the amount and never debited: the credit writes back the copy read before the
debit. -/
theorem transferMoney_same_record_credits {s : Store} (hs : Reachable ot s)
    {stamps : Stamp × Stamp} {t : Transfer} {r : Response}
    (h : (transferMoney ot stamps s [some t]).result = .ok r)
    (hk : createCompositeKey ot.account [t.fromCustomerID, t.fromAccountID] =
      createCompositeKey ot.account [t.toCustomerID, t.toAccountID]) :
    ∃ a, s.getState (createCompositeKey ot.account [t.fromCustomerID, t.fromAccountID]) =
        some (.account a) ∧
      (transferMoney ot stamps s [some t]).store.getState
        (createCompositeKey ot.account [t.fromCustomerID, t.fromAccountID]) =
          some (.account (a.credit t.amount)) := by
  obtain ⟨t', fa, ta, ⟨d, rest, hargs, rfl⟩, -, hf, -, ht, htk, -, -, -, hst⟩ :=
    transferMoney_settled hs h
  obtain ⟨rfl, rfl⟩ := List.cons.inj hargs
  simp only [Option.getD_some] at hf ht htk hst
  rw [← hk] at ht htk
  obtain rfl : fa = ta := by simpa [hf] using ht
  exact ⟨fa, hf, by rw [hst, settledStore_getState_account, if_pos htk.symm]⟩

/-- Source `x0y/z` and destination `x/y0z`: two different pairs with one composite key. -/
def collidingTransfer : Transfer :=
  ⟨goString "x0y", goString "z", goString "x", goString "y0z", 10, 1⟩

/-- `x0y/z` opened with 100. -/
def collidingStore : Store :=
  run accountAndTransaction Store.empty [⟨.OpenAccount [some (openedAccount "x0y" "z" 100)], default⟩]

/-- A transfer of 10 with a fee of 1 from `x0y/z` to `x/y0z` succeeds and leaves the one record
with 110: the source is not debited and 10 is created. -/
theorem colliding_transfer_mints :
    (transferMoney accountAndTransaction twoStamps collidingStore [some collidingTransfer]).result =
        .ok .nil ∧
      (transferMoney accountAndTransaction twoStamps collidingStore
          [some collidingTransfer]).store.getState
        (createCompositeKey accountAndTransaction.account [goString "x0y", goString "z"]) =
          some (.account (openedAccount "x0y" "z" 110)) := by
  have h : (transferMoney accountAndTransaction twoStamps collidingStore
      [some collidingTransfer]).result = .ok .nil := rfl
  obtain ⟨a, ha, h1⟩ := transferMoney_same_record_credits (reachable_run _ .empty _) h (by decide)
  obtain rfl := Record.account.inj (Option.some.inj
    (ha.symm.trans (by decide : _ = some (.account (openedAccount "x0y" "z" 100)))))
  exact ⟨h, h1.trans (by decide)⟩

end

end FinNet

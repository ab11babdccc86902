import FinNet.Transfers

/-!
# Accounts

What the account handlers do to balances and to the closed flag. `TopupAccount` credits any amount
`strconv.ParseInt` accepts, zero and negative ones included, and checks no flag. `OpenAccount`
writes its payload whatever the key holds. `CloseAccount` and the queries keep every balance,
closing twice is closing once, and nothing but an `OpenAccount` or a `TopupAccount` of its key
changes a closed account.
-/

namespace FinNet

section

variable {ot : ObjectTypes} {s : Store}

/-! ## Top-ups -/

/-- What `TopupAccount([customerID, accountID, amountText])` does (§4.3). Unless an account is
stored for the pair and `amountText` parses as an `int64` `n`, it fails and leaves the store as
it was. Otherwise it writes that account back with `n` added in `int64` arithmetic, and changes
nothing else; `n` may be zero or negative. -/
def TopupOutcome (ot : ObjectTypes) (s : Store) (customerID accountID amountText : GoString) :
    Prop :=
  (s.getState (createCompositeKey ot.account [customerID, accountID]) = none ∨
      parseInt amountText = none →
    ∃ e, topupAccount ot s [customerID, accountID, amountText] = ⟨.error e, s⟩) ∧
  ∀ a n, s.getState (createCompositeKey ot.account [customerID, accountID]) = some (.account a) →
    parseInt amountText = some n →
    (topupAccount ot s [customerID, accountID, amountText]).result =
        .ok (.record (.account (a.credit n))) ∧
      (∀ k, (topupAccount ot s [customerID, accountID, amountText]).store.getState k =
        if k = createCompositeKey ot.account [customerID, accountID] then some (.account (a.credit n))
        else s.getState k) ∧
      (a.credit n).balance.toInt = (a.balance.toInt + n.toInt).bmod (2 ^ 64)

theorem topupAccount_outcome (hs : Reachable ot s) (customerID accountID amountText : GoString) :
    TopupOutcome ot s customerID accountID amountText := by
  refine ⟨fun h => ?_, fun a n hr hn => ?_⟩
  · cases hr : s.getState (createCompositeKey ot.account [customerID, accountID]) with
    | none => exact topupAccount_of_missing ot s _ _ _ hr
    | some r =>
      rcases h with h | h
      · rw [hr] at h; cases h
      · exact topupAccount_of_unparsable ot s _ _ _ hr h
  · have hkey := (hs.wellKeyed.account_at hr).2
    rw [topupAccount_of_found ot s _ _ _ hr hn]
    exact ⟨rfl, fun k => by simp [Record.toAccount] at hkey ⊢; rw [hkey], BitVec.toInt_add _ _⟩

/-- On the scenario's open account `c1/a1`, which holds 1000, a top-up of `"-5"` succeeds: it
parses as `-5`, the account is written back with 995 and returned, and its balance falls. -/
theorem topup_accepts_negative_amount :
    let key := createCompositeKey accountAndTransaction.account [goString "c1", goString "a1"]
    let topup := topupAccount accountAndTransaction scenarioStore
      [goString "c1", goString "a1", goString "-5"]
    scenarioStore.getState key = some (.account (openedAccount "c1" "a1" 1000)) ∧
      (openedAccount "c1" "a1" 1000).closed = false ∧ parseInt (goString "-5") = some (-5) ∧
      topup.result = .ok (.record (.account (openedAccount "c1" "a1" 995))) ∧
      topup.store.getState key = some (.account (openedAccount "c1" "a1" 995)) ∧
      (openedAccount "c1" "a1" 995).balance.toInt < (openedAccount "c1" "a1" 1000).balance.toInt := by
  have hr : scenarioStore.getState (createCompositeKey accountAndTransaction.account
      [goString "c1", goString "a1"]) = some (.account (openedAccount "c1" "a1" 1000)) := by decide
  have hn : parseInt (goString "-5") = some (-5) := by decide
  have hcredit : (openedAccount "c1" "a1" 1000).credit (-5) = openedAccount "c1" "a1" 995 := by
    decide
  obtain ⟨hres, hstore, -⟩ :=
    (topupAccount_outcome (reachable_run _ .empty _) _ _ _).2 _ _ hr hn
  rw [hcredit] at hres hstore
  exact ⟨hr, rfl, hn, hres, (hstore _).trans (if_pos rfl), by decide⟩

/-! ## Balances outside the money movements -/

/-- `CloseAccount` and the queries: the handlers that neither move money nor open an account. -/
def Call.keepsBalances : Call → Prop
  | .CloseAccount _ | .GetAccount _ | .GetAccountList _ | .GetTransaction _
  | .GetTransactionList _ => True
  | _ => False

/-- The balance frame outside the money movements (§3: a balance changes only by Credit and
Debit). `CloseAccount` and the queries keep every stored account's balance. `OpenAccount` either
fails and leaves the store as it was, or returns the account `model.CreateAccount` builds from its
payload and writes it at that account's key, whatever the key held, changing nothing else. -/
def BalanceFrame (ot : ObjectTypes) (s : Store) (i : Invocation) : Prop :=
  (i.call.keepsBalances → ∀ k a, s.getState k = some (.account a) →
    ∃ a', (handleInvocation ot s i).store.getState k = some (.account a') ∧
      a'.balance = a.balance) ∧
  ∀ args, i.call = .OpenAccount args →
    (∃ e, handleInvocation ot s i = ⟨.error e, s⟩) ∨
      ∃ payload rest a, args = payload :: rest ∧ createAccount payload = .ok a ∧
        (handleInvocation ot s i).result = .ok (.record (.account a)) ∧
        ∀ k, (handleInvocation ot s i).store.getState k =
          if k = a.key ot then some (.account a) else s.getState k

/-- `CloseAccount` writes back the account it read, with the flag set, at the key it read. -/
theorem closeAccount_at_account (hw : WellKeyed ot s) (args : List GoString) {k : GoString}
    {a : Account} (hk : s.getState k = some (.account a)) :
    (closeAccount ot s args).store.getState k = some (.account a) ∨
      (closeAccount ot s args).store.getState k = some (.account { a with closed := true }) := by
  rcases closeAccount_cases ot s args with ⟨e, he⟩ | ⟨c, i, r, -, hr, he⟩ <;>
    simp only [he, Store.getState_putState, Account.closed_key]
  · exact .inl hk
  by_cases hka : k = r.toAccount.key ot
  · rw [hka, (hw.account_at hr).2, hr] at hk
    cases hk
    exact .inr (if_pos hka)
  · exact .inl (by rw [if_neg hka, hk])

theorem closeAccount_keeps_balances (hw : WellKeyed ot s) (args : List GoString) (k : GoString)
    (a : Account) (hk : s.getState k = some (.account a)) :
    ∃ a', (closeAccount ot s args).store.getState k = some (.account a') ∧ a'.balance = a.balance :=
  (closeAccount_at_account hw args hk).elim (⟨a, ·, rfl⟩) (⟨_, ·, rfl⟩)

theorem balance_frame (hs : Reachable ot s) (i : Invocation) : BalanceFrame ot s i := by
  obtain ⟨call, stamps⟩ := i
  refine ⟨fun hc k a hk => ?_, fun args hc => ?_⟩
  · cases call <;> simp only [Call.keepsBalances] at hc
    · exact closeAccount_keeps_balances hs.wellKeyed _ k a hk
    all_goals exact ⟨a, hk, rfl⟩
  · cases hc
    rcases openAccount_cases ot s args with ⟨e, he⟩ | ⟨payload, rest, a, hargs, ha, he⟩
    · exact .inl ⟨e, he⟩
    · exact .inr ⟨payload, rest, a, hargs, ha, congrArg Outcome.result he,
        fun k => by simp [handleInvocation, he]⟩

theorem scenario_balanceFrame :
    BalanceFrame accountAndTransaction scenarioStore
      ⟨.OpenAccount [some (openedAccount "c1" "a1" 5)], default⟩ :=
  balance_frame (reachable_run _ .empty _) _

/-- Opening `c1/a1` again with 5 replaces its balance of 1000. -/
theorem reopen_replaces_balance :
    ¬∀ (s : Store) (args : List (JsonDoc Account)) (k : GoString) (a : Account),
      Reachable accountAndTransaction s → s.getState k = some (.account a) →
      ∃ a', (openAccount accountAndTransaction s args).store.getState k = some (.account a') ∧
        a'.balance = a.balance := fun h => by
  obtain ⟨a', ha', hb⟩ := h scenarioStore [some (openedAccount "c1" "a1" 5)]
    (createCompositeKey accountAndTransaction.account [goString "c1", goString "a1"])
    (openedAccount "c1" "a1" 1000) (reachable_run _ .empty _) (by decide)
  obtain rfl := Record.account.inj (Option.some.inj
    (ha'.symm.trans (by decide : _ = some (.account (openedAccount "c1" "a1" 5)))))
  exact absurd hb (by decide)

/-! ## Closed accounts -/

/-- `CloseAccount` is idempotent (§4.3): once it succeeds, calling it again with the same
arguments returns the same account and leaves the store as it is. -/
theorem closeAccount_idempotent (hs : Reachable ot s) {customerID accountID : GoString}
    {r : Response} (h : (closeAccount ot s [customerID, accountID]).result = .ok r) :
    closeAccount ot (closeAccount ot s [customerID, accountID]).store [customerID, accountID] =
      ⟨.ok r, (closeAccount ot s [customerID, accountID]).store⟩ := by
  cases hr : s.getState (createCompositeKey ot.account [customerID, accountID]) with
  | none => simp [closeAccount, hr] at h
  | some r' =>
    rw [closeAccount_of_found ot s _ _ hr] at h ⊢
    cases h
    have hkey : { r'.toAccount with closed := true }.key ot =
        createCompositeKey ot.account [customerID, accountID] := (hs.wellKeyed.account_at hr).2
    have hfound : (s.putState (createCompositeKey ot.account [customerID, accountID])
        (.account { r'.toAccount with closed := true })).getState
          (createCompositeKey ot.account [customerID, accountID]) =
        some (.account { r'.toAccount with closed := true }) := by simp
    have hsame :
        { (Record.account { r'.toAccount with closed := true }).toAccount with closed := true } =
          { r'.toAccount with closed := true } := rfl
    rw [hkey, closeAccount_of_found ot _ _ _ hfound, hsame, hkey, Store.putState_of_getState hfound]

theorem scenario_close_twice :
    closeAccount accountAndTransaction
        (closeAccount accountAndTransaction scenarioStore [goString "c1", goString "a1"]).store
        [goString "c1", goString "a1"] =
      ⟨.ok (.record (.account ⟨goString "c1", goString "a1", 1000, true⟩)),
        (closeAccount accountAndTransaction scenarioStore [goString "c1", goString "a1"]).store⟩ :=
  closeAccount_idempotent (reachable_run _ .empty _) rfl

/-- The invocations that may write the account at `k` although it is closed: an `OpenAccount`
whose payload makes an account keyed `k`, and a `TopupAccount` of a pair keyed `k`. -/
def Invocation.rewritesAccountAt (ot : ObjectTypes) (k : GoString) (i : Invocation) : Prop :=
  match i.call with
  | .OpenAccount (payload :: _) =>
    match createAccount payload with
    | .ok a => a.key ot = k
    | .error _ => False
  | .TopupAccount [customerID, accountID, _] => createCompositeKey ot.account [customerID, accountID] = k
  | _ => False

theorem Account.with_closed_eq_self {a : Account} (hc : a.closed) : { a with closed := true } = a := by
  cases a
  subst hc
  rfl

/-- A settled transfer writes only the accounts it read, and it reads only open ones. -/
theorem settledStore_keeps_closed (hw : WellKeyed ot s) {stamps : Stamp × Stamp} {t : Transfer}
    {fr tr : Record} {a : Account} (hc : a.closed)
    (hf : s.getState (createCompositeKey ot.account [t.fromCustomerID, t.fromAccountID]) = some fr)
    (ht : s.getState (createCompositeKey ot.account [t.toCustomerID, t.toAccountID]) = some tr)
    (hfc : ¬fr.toAccount.closed) (htc : ¬tr.toAccount.closed)
    (hk : s.getState (a.key ot) = some (.account a)) :
    (settledStore ot stamps s t fr.toAccount tr.toAccount).getState (a.key ot) = some (.account a) := by
  rw [Account.key] at hk ⊢
  have hne : ∀ {xs r}, s.getState (createCompositeKey ot.account xs) = some r →
      ¬r.toAccount.closed → createCompositeKey ot.account [a.customerID, a.id] ≠ r.toAccount.key ot :=
    fun hr hrc he => by
      rw [he, (hw.account_at hr).2, hr] at hk
      cases hk
      exact hrc hc
  rw [settledStore_getState_account, if_neg (hne ht htc), if_neg (hne hf hfc)]
  exact hk

/-- One invocation that does not rewrite the closed account at `k` leaves it as it was. -/
theorem closed_account_step (hw : WellKeyed ot s) {k : GoString} {a : Account}
    (hk : s.getState k = some (.account a)) (hc : a.closed) {i : Invocation}
    (hi : ¬i.rewritesAccountAt ot k) :
    (handleInvocation ot s i).store.getState k = some (.account a) := by
  obtain rfl : k = a.key ot := hw k _ hk
  rcases handleInvocation_store_cases ot s i with he | ⟨_, _, a', hcall, ha, he⟩ |
    ⟨_, _, r, -, hr, he⟩ | ⟨_, _, _, r, n, hcall, hr, -, he⟩ |
    ⟨t, fr, tr, -, -, hf, ht, ⟨_, _, _, he⟩ | ⟨hfc, htc, -, he⟩⟩ <;> rw [he]
  · exact hk
  · simp only [Invocation.rewritesAccountAt, hcall, ha] at hi
    rw [Store.getState_putState, if_neg (Ne.symm hi), hk]
  · simp only [Store.getState_putState, Account.closed_key, (hw.account_at hr).2]
    split
    · rename_i hka
      rw [hka, hr] at hk
      cases hk
      exact congrArg (some ∘ Record.account) (Account.with_closed_eq_self hc)
    · exact hk
  · simp only [Invocation.rewritesAccountAt, hcall] at hi
    rw [Store.getState_putState, Account.credit_key, (hw.account_at hr).2, if_neg (Ne.symm hi), hk]
  · exact recordTransaction_keeps_accounts hw _ _ _ _ _ _ _ _ hk
  · exact settledStore_keeps_closed hw hc hf ht hfc htc hk

/-- From a reachable store, a closed account stays as it is, closed flag and balance, over every
run that neither opens an account at its key nor tops one up there. -/
theorem closed_account_persists (hs : Reachable ot s) {k : GoString} {a : Account}
    (hk : s.getState k = some (.account a)) (hc : a.closed) (is : List Invocation)
    (his : ∀ i ∈ is, ¬i.rewritesAccountAt ot k) :
    (run ot s is).getState k = some (.account a) := by
  induction is generalizing s with
  | nil => exact hk
  | cons i is ih =>
    exact ih (hs.step i) (closed_account_step hs.wellKeyed hk hc (his i (.head _)))
      fun j hj => his j (.tail _ hj)

/-- The scenario with `c1/a1` closed. -/
def closedStore : Store :=
  run accountAndTransaction scenarioStore [⟨.CloseAccount [goString "c1", goString "a1"], default⟩]

theorem closedStore_persists :
    (run accountAndTransaction closedStore
      [⟨.TransferMoney [some (scenarioTransfer 200 10)], twoStamps⟩,
       ⟨.CloseAccount [goString "c1", goString "a1"], default⟩]).getState
      (createCompositeKey accountAndTransaction.account [goString "c1", goString "a1"]) =
        some (.account ⟨goString "c1", goString "a1", 1000, true⟩) :=
  closed_account_persists (reachable_run _ (reachable_run _ .empty _) _) (by decide) rfl _
    (by simp [Invocation.rewritesAccountAt])

/-- A top-up of 5 onto the closed `c1/a1` succeeds and credits it. -/
theorem topup_credits_closed_account :
    ¬∀ (s : Store) (k : GoString) (a : Account), Reachable accountAndTransaction s →
      s.getState k = some (.account a) → a.closed → ∀ is,
        ∃ a', (run accountAndTransaction s is).getState k = some (.account a') ∧ a'.closed ∧
          a'.balance = a.balance := fun h => by
  obtain ⟨a', ha', -, hb⟩ := h closedStore
    (createCompositeKey accountAndTransaction.account [goString "c1", goString "a1"])
    ⟨goString "c1", goString "a1", 1000, true⟩ (reachable_run _ (reachable_run _ .empty _) _)
    (by decide) rfl [⟨.TopupAccount [goString "c1", goString "a1", goString "5"], default⟩]
  obtain rfl := Record.account.inj (Option.some.inj
    (ha'.symm.trans (by decide : _ = some (.account ⟨goString "c1", goString "a1", 1005, true⟩))))
  exact absurd hb (by decide)

end

end FinNet

import FinNet.Refinement

/-!
# Where the money goes

The total balance of the stored accounts moves by what the calls are meant to move: an
`OpenAccount` adds its opening balance, a `TopupAccount` its amount, a settled `TransferMoney`
takes out its fee, and no other call, failed or not, moves money. This holds over every run that
opens no account over a stored one, brings no separator into an identifier and wraps no `int64`
sum. Each of the three hypotheses is needed: reopening replaces a balance, a colliding transfer
mints money, a top-up can wrap.
-/

namespace FinNet

/-- What a call moves into the accounts when it succeeds, negative when it moves money out: an
opened account's balance, a top-up's amount, a settled transfer's fee. -/
def Call.moneyIn : Call → Int
  | .OpenAccount (some a :: _) => a.balance.toInt
  | .TopupAccount [_, _, amountText] => ((parseInt amountText).map BitVec.toInt).getD 0
  | .TransferMoney (d :: _) => -(d.getD default).fee.toInt
  | _ => 0

/-- What an invocation moves into the accounts at the store it meets: its call's money when it
returns without error, nothing when it fails. -/
def Invocation.inflow (ot : ObjectTypes) (s : Store) (i : Invocation) : Int :=
  match (handleInvocation ot s i).result with
  | .ok _ => i.call.moneyIn
  | .error _ => 0

/-- What the money equation asks of an invocation at the store it meets: an opened account's
identifiers hold no separator and its key holds nothing yet; a top-up's `balance + n` does not
wrap; a transfer that passes its checks wraps none of `amount + fee`, `balance - (amount + fee)`
and `balance + amount`. -/
def Invocation.Accountable (ot : ObjectTypes) (s : Store) (i : Invocation) : Prop :=
  match i.call with
  | .OpenAccount (some a :: _) =>
    SeparatorFree [a.customerID, a.id] ∧ s.getState (a.key ot) = none
  | .TopupAccount [customerID, accountID, amountText] =>
    ∀ r n, s.getState (createCompositeKey ot.account [customerID, accountID]) = some r →
      parseInt amountText = some n →
      -2 ^ 63 ≤ r.toAccount.balance.toInt + n.toInt ∧
        r.toAccount.balance.toInt + n.toInt < 2 ^ 63
  | .TransferMoney (d :: _) =>
    let t := d.getD default
    ∀ fr tr,
      s.getState (createCompositeKey ot.account [t.fromCustomerID, t.fromAccountID]) = some fr →
      s.getState (createCompositeKey ot.account [t.toCustomerID, t.toAccountID]) = some tr →
      t.Valid → ¬fr.toAccount.closed → ¬tr.toAccount.closed →
      0 ≤ (fr.toAccount.balance - t.amount).toInt →
      t.amount.toInt + t.fee.toInt < 2 ^ 63 ∧
        -2 ^ 63 ≤ fr.toAccount.balance.toInt - (t.amount.toInt + t.fee.toInt) ∧
        tr.toAccount.balance.toInt + t.amount.toInt < 2 ^ 63
  | _ => True

/-- Every invocation of a run meets `P` at the store it runs on. -/
def RunUnder (ot : ObjectTypes) (P : Store → Invocation → Prop) : Store → List Invocation → Prop
  | _, [] => True
  | s, i :: is => P s i ∧ RunUnder ot P (handleInvocation ot s i).store is

/-- The money a run moves: its invocations' inflows, each at the store it meets. -/
def runInflow (ot : ObjectTypes) : Store → List Invocation → Int
  | _, [] => 0
  | s, i :: is => i.inflow ot s + runInflow ot (handleInvocation ot s i).store is

section

variable {ot : ObjectTypes} {s : Store}

theorem Invocation.Accountable.payloadIds {i : Invocation} (h : i.Accountable ot s) :
    SeparatorFree i.call.payloadIds := by
  obtain ⟨call, stamps⟩ := i
  cases call with
  | OpenAccount args =>
    match args, h with
    | some _ :: _, h => exact h.1
    | [], _ | none :: _, _ => exact separatorFree_nil
  | _ => exact separatorFree_nil

/-- Over separator-free stored identifiers an account found under a pair's key is that pair's
account. -/
theorem pair_of_found (hw : WellKeyed ot s) (hsep : AccountIdsSeparatorFree s)
    {customerID accountID : GoString} {r : Record}
    (hr : s.getState (createCompositeKey ot.account [customerID, accountID]) = some r) :
    (r.toAccount.customerID, r.toAccount.id) = (customerID, accountID) :=
  toLedger_coherent hw hsep _ _ (by rw [hw.toLedger_accounts, hr]; rfl)

/-- In a well-keyed store an account read from an account key sits at its own key. -/
theorem WellKeyed.found (hw : WellKeyed ot s) {xs : List GoString} {r : Record}
    (hr : s.getState (createCompositeKey ot.account xs) = some r) :
    s.getState (r.toAccount.key ot) = some (.account r.toAccount) := by
  rw [(hw.account_at hr).2, ← (hw.account_at hr).1]
  exact hr

/-- A call that fails moves no money, whatever it wrote: the equation holds when what it wrote
keeps the total. -/
theorem totalBalance_of_error {i : Invocation} {e : GoString} {s' : Store}
    (he : handleInvocation ot s i = ⟨.error e, s'⟩) (hs' : s'.totalBalance = s.totalBalance) :
    (handleInvocation ot s i).store.totalBalance = s.totalBalance + i.inflow ot s := by
  rw [Invocation.inflow, he, add_zero]
  exact hs'

theorem totalBalance_of_ok {i : Invocation} {r : Response} {s' : Store}
    (he : handleInvocation ot s i = ⟨.ok r, s'⟩)
    (hs' : s'.totalBalance = s.totalBalance + i.call.moneyIn) :
    (handleInvocation ot s i).store.totalBalance = s.totalBalance + i.inflow ot s := by
  rw [Invocation.inflow, he]
  exact hs'

/-- One invocation moves the total balance by its inflow. -/
theorem totalBalance_handleInvocation (hw : WellKeyed ot s) (hsep : AccountIdsSeparatorFree s)
    {i : Invocation} (hi : i.Accountable ot s) :
    (handleInvocation ot s i).store.totalBalance = s.totalBalance + i.inflow ot s := by
  obtain ⟨call, stamps⟩ := i
  cases call with
  | OpenAccount args =>
    rcases openAccount_cases ot s args with ⟨e, he⟩ | ⟨payload, rest, a, rfl, ha, he⟩
    · exact totalBalance_of_error he rfl
    · obtain ⟨rfl, -⟩ := createAccount_ok ha
      exact totalBalance_of_ok he (totalBalance_putState_fresh hi.2 _)
  | CloseAccount args =>
    rcases closeAccount_cases ot s args with ⟨e, he⟩ | ⟨c, a, r, rfl, hr, he⟩
    · exact totalBalance_of_error he rfl
    · exact totalBalance_of_ok he ((@totalBalance_putState_account ot s r.toAccount (hw.found hr)
        _).trans (by simp [Call.moneyIn]))
  | TopupAccount args =>
    rcases topupAccount_cases ot s args with ⟨e, he⟩ | ⟨c, a, amt, r, n, rfl, hr, hn, he⟩
    · exact totalBalance_of_error he rfl
    · obtain ⟨hlo, hhi⟩ := hi r n hr hn
      refine totalBalance_of_ok he
        ((@totalBalance_putState_account ot s r.toAccount (hw.found hr) _).trans ?_)
      simp only [Call.moneyIn, hn, Option.map_some', Option.getD_some, Account.credit,
        int64_toInt_add_of_fits hlo hhi]
      omega
  | TransferMoney args =>
    rcases transferMoney_cases ot stamps s args with
      ⟨e, he⟩ | ⟨t, fr, tr, ⟨d, rest, rfl, rfl⟩, hv, hf, ht, he⟩
    · exact totalBalance_of_error he rfl
    have keep := fun c a code => totalBalance_recordTransaction hw stamps.1 c a (d.getD default)
      code .Failed
    rcases settleTransfer_cases ot stamps s _ fr.toAccount tr.toAccount with
      ⟨-, e, hs⟩ | ⟨-, -, e, hs⟩ | ⟨-, -, -, e, hs⟩ | ⟨hfc, htc, hb, hs⟩
    iterate 3 exact totalBalance_of_error (he.trans hs) (keep _ _ _)
    obtain ⟨hsum, hdebit, hcredit⟩ := hi fr tr hf ht hv hfc htc hb
    have hk : fr.toAccount.key ot ≠ tr.toAccount.key ot := fun h => hv.2.2.2.2.2.2 <| by
      have hids := createCompositeKey_inj_of_length (hsep.found hw hf) (by rfl) h
      simp only [List.cons.injEq, and_true] at hids
      rw [← pair_of_found hw hsep hf, ← pair_of_found hw hsep ht, hids.1, hids.2]
    exact totalBalance_of_ok (he.trans hs) ((totalBalance_settledStore hw stamps hk (hw.found hf)
      (hw.found ht) hv.1 hv.2.1 hsum hdebit hcredit).trans (sub_eq_add_neg _ _))
  | GetAccount _ | GetAccountList _ | GetTransaction _ | GetTransactionList _ =>
    rw [Invocation.inflow]
    split <;> exact (add_zero _).symm

/-- Over every run that opens no account over a stored one, brings no separator into an
account's identifiers and wraps no `int64` sum, the total balance moves by exactly the money the
run moves: opening balances and top-ups in, the fees of settled transfers out. -/
theorem run_totalBalance (hs : Reachable ot s) (hsep : AccountIdsSeparatorFree s)
    (is : List Invocation) (h : RunUnder ot (Invocation.Accountable ot) s is) :
    (run ot s is).totalBalance = s.totalBalance + runInflow ot s is := by
  induction is generalizing s with
  | nil => exact (add_zero _).symm
  | cons i is ih =>
    obtain ⟨hi, h⟩ := h
    have hnext := ih (hs.step i)
      (accountIdsSeparatorFree_step hs.wellKeyed hsep hi.payloadIds) h
    show (run ot (handleInvocation ot s i).store is).totalBalance = _
    rw [hnext, totalBalance_handleInvocation hs.wellKeyed hsep hi, runInflow, add_assoc]

end

/-- From the scenario: `c2/a2` topped up by 50, then 200 sent from `c1/a1` to `c2/a2` for a fee
of 10, then 5000 more, which fails for want of funds. -/
theorem scenario_run_totalBalance :
    let is : List Invocation :=
      [⟨.TopupAccount [goString "c2", goString "a2", goString "50"], default⟩,
       ⟨.TransferMoney [some (scenarioTransfer 200 10)], twoStamps⟩,
       ⟨.TransferMoney [some (scenarioTransfer 5000 0)], twoStamps⟩]
    (run accountAndTransaction scenarioStore is).totalBalance =
      scenarioStore.totalBalance + runInflow accountAndTransaction scenarioStore is :=
  @run_totalBalance accountAndTransaction scenarioStore (reachable_run _ .empty _)
    (ReachableUnder.accountIdsSeparatorFree (.step _ (.step _ .empty (by decide)) (by decide))) _
    ⟨fun r n hr hn => by
      obtain rfl := Option.some.inj (hr.symm.trans
        (by decide : _ = some (.account (openedAccount "c2" "a2" 0))))
      obtain rfl := Option.some.inj (hn.symm.trans (by decide : parseInt (goString "50") = some 50))
      decide,
    fun fr tr hf ht => by
      obtain rfl := Option.some.inj (hf.symm.trans
        (by decide : _ = some (.account (openedAccount "c1" "a1" 1000))))
      obtain rfl := Option.some.inj (ht.symm.trans
        (by decide : _ = some (.account (openedAccount "c2" "a2" 50))))
      decide,
    fun fr tr hf ht => by
      obtain rfl := Option.some.inj (hf.symm.trans
        (by decide : _ = some (.account (openedAccount "c1" "a1" 790))))
      obtain rfl := Option.some.inj (ht.symm.trans
        (by decide : _ = some (.account (openedAccount "c2" "a2" 250))))
      decide,
    trivial⟩

end FinNet

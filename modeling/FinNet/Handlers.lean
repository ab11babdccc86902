import FinNet.Chaincode

/-!
# What each handler does

One lemma per handler: it returns an error and leaves the store as it was, or it reads what it
reads and returns what it returns with the writes it makes. `handleInvocation_store_cases` puts
them together: every store an invocation can leave. Later proofs cite these lemmas and never
unfold a handler; an invariant of the store is one case per kind of write.
-/

namespace FinNet

section

variable (ot : ObjectTypes)

@[simp] theorem getAccount_pair (s : Store) (customerID accountID : GoString) :
    getAccount ot s [customerID, accountID] =
      .ok (s.getState (createCompositeKey ot.account [customerID, accountID])) := rfl

theorem validate_eq_ok {t : Transfer} : t.validate = .ok () ↔ t.Valid := by
  unfold Transfer.validate
  split <;> simp_all

section Accounts

variable (s : Store) (customerID accountID amountText : GoString) {r : Record}

theorem openAccount_of_ok (payload : JsonDoc Account) (rest : List (JsonDoc Account)) {a : Account}
    (h : createAccount payload = .ok a) :
    openAccount ot s (payload :: rest) =
      ⟨.ok (.record (.account a)), s.putState (a.key ot) (.account a)⟩ := by
  simp [openAccount, h]

theorem openAccount_cases (args : List (JsonDoc Account)) :
    (∃ e, openAccount ot s args = ⟨.error e, s⟩) ∨
      ∃ payload rest a, args = payload :: rest ∧ createAccount payload = .ok a ∧
        openAccount ot s args = ⟨.ok (.record (.account a)), s.putState (a.key ot) (.account a)⟩ := by
  match args with
  | [] => exact .inl ⟨_, rfl⟩
  | payload :: rest =>
    cases h : createAccount payload with
    | error err => exact .inl ⟨_, by simp only [openAccount, h]; rfl⟩
    | ok a => exact .inr ⟨payload, rest, a, rfl, h, openAccount_of_ok ot s payload rest h⟩

theorem topupAccount_of_found {n : Int64}
    (hr : s.getState (createCompositeKey ot.account [customerID, accountID]) = some r)
    (hn : parseInt amountText = some n) :
    topupAccount ot s [customerID, accountID, amountText] =
      ⟨.ok (.record (.account (r.toAccount.credit n))),
        s.putState ((r.toAccount.credit n).key ot) (.account (r.toAccount.credit n))⟩ := by
  simp [topupAccount, hr, hn]

theorem topupAccount_of_missing
    (hr : s.getState (createCompositeKey ot.account [customerID, accountID]) = none) :
    ∃ e, topupAccount ot s [customerID, accountID, amountText] = ⟨.error e, s⟩ :=
  ⟨_, by simp only [topupAccount, getAccount, hr]; rfl⟩

theorem topupAccount_of_unparsable
    (hr : s.getState (createCompositeKey ot.account [customerID, accountID]) = some r)
    (hn : parseInt amountText = none) :
    ∃ e, topupAccount ot s [customerID, accountID, amountText] = ⟨.error e, s⟩ :=
  ⟨_, by simp only [topupAccount, getAccount, hr, hn]; rfl⟩

theorem topupAccount_cases (args : List GoString) :
    (∃ e, topupAccount ot s args = ⟨.error e, s⟩) ∨
      ∃ customerID accountID amountText r n, args = [customerID, accountID, amountText] ∧
        s.getState (createCompositeKey ot.account [customerID, accountID]) = some r ∧
        parseInt amountText = some n ∧
        topupAccount ot s args = ⟨.ok (.record (.account (r.toAccount.credit n))),
          s.putState ((r.toAccount.credit n).key ot) (.account (r.toAccount.credit n))⟩ := by
  match args with
  | [c, a, amt] =>
    cases hr : s.getState (createCompositeKey ot.account [c, a]) with
    | none => exact .inl (topupAccount_of_missing ot s c a amt hr)
    | some r =>
      cases hn : parseInt amt with
      | none => exact .inl (topupAccount_of_unparsable ot s c a amt hr hn)
      | some n => exact .inr ⟨c, a, amt, r, n, rfl, hr, hn, topupAccount_of_found ot s c a amt hr hn⟩
  | [] | [_] | [_, _] | _ :: _ :: _ :: _ :: _ => exact .inl ⟨_, rfl⟩

theorem closeAccount_of_found
    (hr : s.getState (createCompositeKey ot.account [customerID, accountID]) = some r) :
    closeAccount ot s [customerID, accountID] =
      ⟨.ok (.record (.account { r.toAccount with closed := true })),
        s.putState ({ r.toAccount with closed := true }.key ot)
          (.account { r.toAccount with closed := true })⟩ := by
  simp [closeAccount, hr]

theorem closeAccount_cases (args : List GoString) :
    (∃ e, closeAccount ot s args = ⟨.error e, s⟩) ∨
      ∃ customerID accountID r, args = [customerID, accountID] ∧
        s.getState (createCompositeKey ot.account [customerID, accountID]) = some r ∧
        closeAccount ot s args = ⟨.ok (.record (.account { r.toAccount with closed := true })),
          s.putState ({ r.toAccount with closed := true }.key ot)
            (.account { r.toAccount with closed := true })⟩ := by
  match args with
  | [c, a] =>
    cases hr : s.getState (createCompositeKey ot.account [c, a]) with
    | none => exact .inl ⟨_, by simp only [closeAccount, getAccount, hr]; rfl⟩
    | some r => exact .inr ⟨c, a, r, rfl, hr, closeAccount_of_found ot s c a hr⟩
  | [] | [_] | _ :: _ :: _ :: _ => exact .inl ⟨_, rfl⟩

end Accounts

section TransferMoney

variable (stamps : Stamp × Stamp) (s : Store) (d : JsonDoc Transfer) (rest : List (JsonDoc Transfer))
  {fr tr : Record}

theorem transferMoney_of_invalid (hv : ¬(d.getD default).Valid) :
    ∃ e, transferMoney ot stamps s (d :: rest) = ⟨.error e, s⟩ := by
  cases hval : (d.getD default).validate with
  | error err => exact ⟨_, by simp only [transferMoney, hval]; rfl⟩
  | ok u => exact absurd (validate_eq_ok.1 hval) hv

theorem transferMoney_of_from_missing (hv : (d.getD default).Valid)
    (hf : s.getState (createCompositeKey ot.account
      [(d.getD default).fromCustomerID, (d.getD default).fromAccountID]) = none) :
    ∃ e, transferMoney ot stamps s (d :: rest) = ⟨.error e, s⟩ :=
  ⟨_, by simp only [transferMoney, validate_eq_ok.2 hv, getAccount, hf]; rfl⟩

theorem transferMoney_of_to_missing (hv : (d.getD default).Valid)
    (hf : s.getState (createCompositeKey ot.account
      [(d.getD default).fromCustomerID, (d.getD default).fromAccountID]) = some fr)
    (ht : s.getState (createCompositeKey ot.account
      [(d.getD default).toCustomerID, (d.getD default).toAccountID]) = none) :
    ∃ e, transferMoney ot stamps s (d :: rest) = ⟨.error e, s⟩ :=
  ⟨_, by simp only [transferMoney, validate_eq_ok.2 hv, getAccount, hf, ht]; rfl⟩

theorem transferMoney_of_found (hv : (d.getD default).Valid)
    (hf : s.getState (createCompositeKey ot.account
      [(d.getD default).fromCustomerID, (d.getD default).fromAccountID]) = some fr)
    (ht : s.getState (createCompositeKey ot.account
      [(d.getD default).toCustomerID, (d.getD default).toAccountID]) = some tr) :
    transferMoney ot stamps s (d :: rest) =
      settleTransfer ot stamps s (d.getD default) fr.toAccount tr.toAccount := by
  simp [transferMoney, validate_eq_ok.2 hv, hf, ht]

end TransferMoney

theorem transferMoney_cases (stamps : Stamp × Stamp) (s : Store) (args : List (JsonDoc Transfer)) :
    (∃ e, transferMoney ot stamps s args = ⟨.error e, s⟩) ∨
      ∃ t fr tr, (∃ d rest, args = d :: rest ∧ d.getD default = t) ∧ t.Valid ∧
        s.getState (createCompositeKey ot.account [t.fromCustomerID, t.fromAccountID]) = some fr ∧
        s.getState (createCompositeKey ot.account [t.toCustomerID, t.toAccountID]) = some tr ∧
        transferMoney ot stamps s args = settleTransfer ot stamps s t fr.toAccount tr.toAccount := by
  match args with
  | [] => exact .inl ⟨_, rfl⟩
  | d :: rest =>
    by_cases hv : (d.getD default).Valid
    · cases hf : s.getState (createCompositeKey ot.account
          [(d.getD default).fromCustomerID, (d.getD default).fromAccountID]) with
      | none => exact .inl (transferMoney_of_from_missing ot stamps s d rest hv hf)
      | some fr =>
        cases ht : s.getState (createCompositeKey ot.account
            [(d.getD default).toCustomerID, (d.getD default).toAccountID]) with
        | none => exact .inl (transferMoney_of_to_missing ot stamps s d rest hv hf ht)
        | some tr => exact .inr ⟨_, fr, tr, ⟨d, rest, rfl, rfl⟩, hv, hf, ht,
            transferMoney_of_found ot stamps s d rest hv hf ht⟩
    · exact .inl (transferMoney_of_invalid ot stamps s d rest hv)

/-- The store a transfer that passes every check leaves: the debited source, its record, the
credited destination, its record. -/
def settledStore (stamps : Stamp × Stamp) (s : Store) (t : Transfer) (fromAccount toAccount : Account) :
    Store :=
  recordTransaction ot stamps.2
    (creditAccount ot
      (recordTransaction ot stamps.1 (debitAccount ot s fromAccount (t.amount + t.fee))
        fromAccount.customerID fromAccount.id t .empty .Debited)
      toAccount t.amount)
    toAccount.customerID toAccount.id t .empty .Credited

theorem settleTransfer_cases (stamps : Stamp × Stamp) (s : Store) (t : Transfer)
    (fromAccount toAccount : Account) :
    (fromAccount.closed ∧ ∃ e, settleTransfer ot stamps s t fromAccount toAccount =
        ⟨.error e, recordTransaction ot stamps.1 s fromAccount.customerID fromAccount.id t
          .AccountClosed .Failed⟩) ∨
      (¬fromAccount.closed ∧ toAccount.closed ∧ ∃ e,
        settleTransfer ot stamps s t fromAccount toAccount =
          ⟨.error e, recordTransaction ot stamps.1 s toAccount.customerID toAccount.id t
            .AccountClosed .Failed⟩) ∨
      (¬fromAccount.closed ∧ ¬toAccount.closed ∧ (fromAccount.balance - t.amount).toInt < 0 ∧
        ∃ e, settleTransfer ot stamps s t fromAccount toAccount =
          ⟨.error e, recordTransaction ot stamps.1 s fromAccount.customerID fromAccount.id t
            .InsufficientFunds .Failed⟩) ∨
      (¬fromAccount.closed ∧ ¬toAccount.closed ∧ 0 ≤ (fromAccount.balance - t.amount).toInt ∧
        settleTransfer ot stamps s t fromAccount toAccount =
          ⟨.ok .nil, settledStore ot stamps s t fromAccount toAccount⟩) := by
  unfold settleTransfer
  by_cases hf : fromAccount.closed
  · exact .inl ⟨hf, _, by rw [if_pos hf]⟩
  by_cases ht : toAccount.closed
  · exact .inr (.inl ⟨hf, ht, _, by rw [if_neg hf, if_pos ht]⟩)
  by_cases hb : (fromAccount.balance - t.amount).toInt < 0
  · exact .inr (.inr (.inl ⟨hf, ht, hb, _, by rw [if_neg hf, if_neg ht, if_pos hb]⟩))
  · exact .inr (.inr (.inr ⟨hf, ht, not_lt.1 hb, by rw [if_neg hf, if_neg ht, if_neg hb]; rfl⟩))


/-- What an invocation can leave in the store: the store as it was, or the writes of its handler
once its reads succeed. A rejected transfer that read both accounts writes one failed record. -/
theorem handleInvocation_store_cases (s : Store) (i : Invocation) :
    (handleInvocation ot s i).store = s ∨
    (∃ payload rest a, i.call = .OpenAccount (payload :: rest) ∧ createAccount payload = .ok a ∧
      (handleInvocation ot s i).store = s.putState (a.key ot) (.account a)) ∨
    (∃ customerID accountID r, i.call = .CloseAccount [customerID, accountID] ∧
      s.getState (createCompositeKey ot.account [customerID, accountID]) = some r ∧
      (handleInvocation ot s i).store = s.putState ({ r.toAccount with closed := true }.key ot)
        (.account { r.toAccount with closed := true })) ∨
    (∃ customerID accountID amountText r n,
      i.call = .TopupAccount [customerID, accountID, amountText] ∧
      s.getState (createCompositeKey ot.account [customerID, accountID]) = some r ∧
      parseInt amountText = some n ∧
      (handleInvocation ot s i).store =
        s.putState ((r.toAccount.credit n).key ot) (.account (r.toAccount.credit n))) ∨
    (∃ t fr tr, (∃ d rest, i.call = .TransferMoney (d :: rest) ∧ d.getD default = t) ∧ t.Valid ∧
      s.getState (createCompositeKey ot.account [t.fromCustomerID, t.fromAccountID]) = some fr ∧
      s.getState (createCompositeKey ot.account [t.toCustomerID, t.toAccountID]) = some tr ∧
      ((∃ customerID accountID code, (handleInvocation ot s i).store =
          recordTransaction ot i.stamps.1 s customerID accountID t code .Failed) ∨
        ¬fr.toAccount.closed ∧ ¬tr.toAccount.closed ∧ 0 ≤ (fr.toAccount.balance - t.amount).toInt ∧
          (handleInvocation ot s i).store =
            settledStore ot i.stamps s t fr.toAccount tr.toAccount)) := by
  obtain ⟨call, stamps⟩ := i
  cases call with
  | OpenAccount args =>
    rcases openAccount_cases ot s args with ⟨e, he⟩ | ⟨payload, rest, a, rfl, ha, he⟩
    · exact .inl (congrArg Outcome.store he)
    · exact .inr (.inl ⟨payload, rest, a, rfl, ha, congrArg Outcome.store he⟩)
  | CloseAccount args =>
    rcases closeAccount_cases ot s args with ⟨e, he⟩ | ⟨c, a, r, rfl, hr, he⟩
    · exact .inl (congrArg Outcome.store he)
    · exact .inr (.inr (.inl ⟨c, a, r, rfl, hr, congrArg Outcome.store he⟩))
  | TopupAccount args =>
    rcases topupAccount_cases ot s args with ⟨e, he⟩ | ⟨c, a, amt, r, n, rfl, hr, hn, he⟩
    · exact .inl (congrArg Outcome.store he)
    · exact .inr (.inr (.inr (.inl ⟨c, a, amt, r, n, rfl, hr, hn, congrArg Outcome.store he⟩)))
  | TransferMoney args =>
    rcases transferMoney_cases ot stamps s args with
      ⟨e, he⟩ | ⟨t, fr, tr, ⟨d, rest, rfl, rfl⟩, hv, hf, ht, he⟩
    · exact .inl (congrArg Outcome.store he)
    refine .inr (.inr (.inr (.inr ⟨_, fr, tr, ⟨d, rest, rfl, rfl⟩, hv, hf, ht, ?_⟩)))
    have hs := congrArg Outcome.store he
    rcases settleTransfer_cases ot stamps s _ fr.toAccount tr.toAccount with
      ⟨-, e, h⟩ | ⟨-, -, e, h⟩ | ⟨-, -, -, e, h⟩ | ⟨hfc, htc, hb, h⟩ <;> rw [h] at hs
    exacts [.inl ⟨_, _, _, hs⟩, .inl ⟨_, _, _, hs⟩, .inl ⟨_, _, _, hs⟩, .inr ⟨hfc, htc, hb, hs⟩]
  | GetAccount _ | GetAccountList _ | GetTransaction _ | GetTransactionList _ => exact .inl rfl

end

end FinNet

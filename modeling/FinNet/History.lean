import FinNet.Balances

/-!
# Transaction history

A handler writes accounts at account keys and transaction records under the ids of the stamps it
draws. When every id is fresh and holds no separator, the key of a new record holds nothing yet,
whatever the customer and account identifiers: the id is the key's last segment. The history is
then append-only: a transaction record, once stored, stays as it is over every later call.
-/

namespace FinNet

@[simp] theorem createTransaction_key (ot : ObjectTypes) (stamp : Stamp)
    (customerID accountID : GoString) (t : Transfer) (code : TxFailureCode) (status : TxStatus) :
    (createTransaction stamp customerID accountID t code status).key ot =
      createCompositeKey ot.transaction [customerID, accountID, stamp.id] := rfl

/-- Every stored transaction's id is free of the separator. -/
def TxIdsSeparatorFree (s : Store) : Prop :=
  ∀ e ∈ s.entries, ∀ t ∈ e.2.transaction?, (48 : Fin 256) ∉ t.id

/-- A stamp whose id holds no separator and is the id of no stored transaction (§3: "unique per
record"). -/
def Stamp.Fresh (s : Store) (stamp : Stamp) : Prop :=
  (48 : Fin 256) ∉ stamp.id ∧ ∀ e ∈ s.entries, ∀ t ∈ e.2.transaction?, t.id ≠ stamp.id

/-- Both stamps an invocation draws are fresh. -/
def FreshIds (s : Store) (i : Invocation) : Prop :=
  i.stamps.1.Fresh s ∧ i.stamps.2.Fresh s

instance (s : Store) (i : Invocation) : Decidable (FreshIds s i) :=
  inferInstanceAs (Decidable ((_ ∧ ∀ e ∈ s.entries, _) ∧ (_ ∧ ∀ e ∈ s.entries, _)))

section

variable {ot : ObjectTypes} {s : Store}

/-- What an invocation writes: accounts, and transactions under its stamps' ids. -/
def Invocation.Writes (i : Invocation) (r : Record) : Prop :=
  (∃ a, r = .account a) ∨ ∃ t, r = .transaction t ∧ (t.id = i.stamps.1.id ∨ t.id = i.stamps.2.id)

theorem handleInvocation_writes (i : Invocation) :
    Store.WritesOnly i.Writes s (handleInvocation ot s i).store := by
  have acc : ∀ a, i.Writes (.account a) := fun a => .inl ⟨a, rfl⟩
  have tx1 : ∀ {c a t code status},
      i.Writes (.transaction (createTransaction i.stamps.1 c a t code status)) := .inr ⟨_, rfl, .inl rfl⟩
  have tx2 : ∀ {c a t code status},
      i.Writes (.transaction (createTransaction i.stamps.2 c a t code status)) := .inr ⟨_, rfl, .inr rfl⟩
  rcases handleInvocation_store_cases ot s i with he | ⟨_, _, a, -, -, he⟩ | ⟨_, _, r, -, -, he⟩ |
    ⟨_, _, _, r, n, -, -, -, he⟩ | ⟨t, fr, tr, -, -, -, -, ⟨_, _, _, he⟩ | ⟨-, -, -, he⟩⟩ <;> rw [he]
  exacts [.refl, .putState .refl (acc _), .putState .refl (acc _), .putState .refl (acc _),
    .putState .refl tx1, (((Store.WritesOnly.refl.putState (acc _)).putState tx1).putState
      (acc _)).putState tx2]

theorem txIdsSeparatorFree_step (hs : TxIdsSeparatorFree s) {i : Invocation}
    (h1 : (48 : Fin 256) ∉ i.stamps.1.id) (h2 : (48 : Fin 256) ∉ i.stamps.2.id) :
    TxIdsSeparatorFree (handleInvocation ot s i).store := by
  rintro e he t ht
  rcases handleInvocation_writes i _ _ (Store.getState_of_mem he) with h | ⟨a, ha⟩ | ⟨t', ht', hid | hid⟩
  · exact hs _ (Store.mem_of_getState h) t ht
  · rw [ha] at ht; cases ht
  · rw [ht'] at ht; cases ht; rwa [hid]
  · rw [ht'] at ht; cases ht; rwa [hid]

/-- The key a fresh stamp's record takes holds nothing yet, whatever its customer and account:
the id is the key's last segment. -/
theorem Stamp.Fresh.key_free (hw : WellKeyed ot s) (hs : TxIdsSeparatorFree s) {stamp : Stamp}
    (hf : stamp.Fresh s) (customerID accountID : GoString) :
    s.getState (createCompositeKey ot.transaction [customerID, accountID, stamp.id]) = none := by
  cases hr : s.getState (createCompositeKey ot.transaction [customerID, accountID, stamp.id]) with
  | none => rfl
  | some r =>
    have hk := hw _ _ hr
    have he := Store.mem_of_getState hr
    cases r with
    | account a => exact absurd hk.symm (ot.key_ne _ _)
    | transaction t =>
      have hid := createCompositeKey_last_inj hf.1 (hs _ he t rfl)
        (show createCompositeKey ot.transaction ([customerID, accountID] ++ [stamp.id]) =
          createCompositeKey ot.transaction ([t.customerID, t.accountID] ++ [t.id]) from hk)
      exact absurd hid.symm (hf.2 _ he t rfl)

/-- An invocation whose records take keys that hold nothing keeps every stored transaction. -/
theorem transactions_kept_step (hw : WellKeyed ot s) {i : Invocation}
    (h1 : ∀ c a, s.getState (createCompositeKey ot.transaction [c, a, i.stamps.1.id]) = none)
    (h2 : ∀ c a, s.getState (createCompositeKey ot.transaction [c, a, i.stamps.2.id]) = none)
    {k : GoString} {t : Transaction} (hk : s.getState k = some (.transaction t)) :
    (handleInvocation ot s i).store.getState k = some (.transaction t) := by
  have hne : ∀ {k'}, s.getState k' = none → k ≠ k' := fun hk' h => by
    rw [h, hk'] at hk; cases hk
  have n1 : ∀ c a, k ≠ createCompositeKey ot.transaction [c, a, i.stamps.1.id] :=
    fun c a => hne (h1 c a)
  have n2 : ∀ c a, k ≠ createCompositeKey ot.transaction [c, a, i.stamps.2.id] :=
    fun c a => hne (h2 c a)
  have nacc : ∀ a : Account, k ≠ a.key ot := fun a h =>
    Account.key_ne_transaction_key ot a t (h.symm.trans (hw k _ hk))
  rcases handleInvocation_store_cases ot s i with he | ⟨_, _, a, -, -, he⟩ | ⟨_, _, r, -, -, he⟩ |
    ⟨_, _, _, r, n, -, -, -, he⟩ | ⟨t, fr, tr, -, -, -, -, ⟨_, _, _, he⟩ | ⟨-, -, -, he⟩⟩ <;>
    simp only [he, settledStore, recordTransaction, creditAccount, debitAccount,
      createTransaction_key, Store.getState_putState, Account.closed_key, Account.credit_key,
      Account.debit_key, n1, n2, nacc, if_false, hk]

theorem ReachableUnder.txIdsSeparatorFree (hs : ReachableUnder ot FreshIds s) :
    TxIdsSeparatorFree s := by
  induction hs with
  | empty => intro e he; cases he
  | step i _ hi ih => exact txIdsSeparatorFree_step ih hi.1.1 hi.2.1

/-- When every record id is fresh and holds no separator, every call keeps every stored
transaction as it is. -/
theorem transactions_append_only (hs : ReachableUnder ot FreshIds s) {i : Invocation}
    (hi : FreshIds s i) {k : GoString} {t : Transaction} (hk : s.getState k = some (.transaction t)) :
    (handleInvocation ot s i).store.getState k = some (.transaction t) :=
  have hw := hs.reachable.wellKeyed
  have hsep := hs.txIdsSeparatorFree
  transactions_kept_step hw (hi.1.key_free hw hsep) (hi.2.key_free hw hsep) hk

theorem scenario_history_kept :
    (handleInvocation accountAndTransaction
        (handleInvocation accountAndTransaction scenarioStore
          ⟨.TransferMoney [some (scenarioTransfer 200 10)], twoStamps⟩).store
        ⟨.TransferMoney [some (scenarioTransfer 5000 0)], (⟨goString "t3", 3⟩, ⟨goString "t4", 4⟩)⟩).store.getState
      (createCompositeKey accountAndTransaction.transaction [goString "c1", goString "a1", goString "t1"]) =
        some (.transaction (createTransaction ⟨goString "t1", 1⟩ (goString "c1") (goString "a1")
          (scenarioTransfer 200 10) .empty .Debited)) :=
  transactions_append_only (.step _ (.step _ (.step _ .empty (by decide)) (by decide)) (by decide))
    (by decide) (by decide)

end

end FinNet

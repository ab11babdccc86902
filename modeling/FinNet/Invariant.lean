import FinNet.Handlers

/-!
# Every record sits at its own key

Every handler writes a record under the composite key of the record's own fields. So in every
reachable store an account key holds an account whose own key it is, and a handler that writes
back an account it read writes to the key it read from.
-/

namespace FinNet

/-- The key the chaincode writes a record under. -/
def Record.key (ot : ObjectTypes) : Record → GoString
  | .account a => a.key ot
  | .transaction t => t.key ot

/-- Every stored record sits at its own key. -/
def WellKeyed (ot : ObjectTypes) (s : Store) : Prop :=
  ∀ k r, s.getState k = some r → k = r.key ot

section

variable {ot : ObjectTypes} {s : Store}

theorem wellKeyed_empty : WellKeyed ot Store.empty := fun k r h => by simp at h

theorem WellKeyed.putState (h : WellKeyed ot s) (r : Record) :
    WellKeyed ot (s.putState (r.key ot) r) := by
  intro k r' hk
  rw [Store.getState_putState] at hk
  split at hk
  · cases hk; assumption
  · exact h k r' hk

/-- In a well-keyed store an account key holds an account, and that account's own key is the
key it was read from. -/
theorem WellKeyed.account_at (h : WellKeyed ot s) {xs : List GoString} {r : Record}
    (hr : s.getState (createCompositeKey ot.account xs) = some r) :
    r = .account r.toAccount ∧ r.toAccount.key ot = createCompositeKey ot.account xs := by
  cases r with
  | account a => exact ⟨rfl, (h _ _ hr).symm⟩
  | transaction t => exact absurd (h _ _ hr) (ot.key_ne _ _)

theorem WellKeyed.recordTransaction (h : WellKeyed ot s) (stamp : Stamp)
    (customerID accountID : GoString) (t : Transfer) (code : TxFailureCode) (status : TxStatus) :
    WellKeyed ot (recordTransaction ot stamp s customerID accountID t code status) :=
  h.putState (.transaction _)

theorem wellKeyed_settledStore (h : WellKeyed ot s) (stamps : Stamp × Stamp) (t : Transfer)
    (fromAccount toAccount : Account) :
    WellKeyed ot (settledStore ot stamps s t fromAccount toAccount) :=
  (((h.putState (.account _)).recordTransaction _ _ _ _ _ _).putState (.account _)).recordTransaction
    _ _ _ _ _ _

theorem wellKeyed_handleInvocation (h : WellKeyed ot s) (i : Invocation) :
    WellKeyed ot (handleInvocation ot s i).store := by
  rcases handleInvocation_store_cases ot s i with he | ⟨_, _, a, -, -, he⟩ | ⟨_, _, r, -, -, he⟩ |
    ⟨_, _, _, r, n, -, -, -, he⟩ | ⟨t, fr, tr, -, -, -, -, ⟨_, _, _, he⟩ | ⟨-, -, -, he⟩⟩ <;> rw [he]
  exacts [h, h.putState (.account a), h.putState (.account _), h.putState (.account _),
    h.recordTransaction _ _ _ _ _ _, wellKeyed_settledStore h _ _ _ _]

/-- Every reachable store is well keyed. -/
theorem Reachable.wellKeyed (hs : Reachable ot s) : WellKeyed ot s := by
  induction hs with
  | empty => exact wellKeyed_empty
  | step i _ ih => exact wellKeyed_handleInvocation ih i

end

end FinNet

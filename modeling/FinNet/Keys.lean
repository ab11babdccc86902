import FinNet.Transfers

/-!
# Keys that collide

`createCompositeKey` separates segments with the digit `"0"`, so identifiers holding that digit
reach keys of other identifiers. Two account pairs share a key, a customer's listing range takes
in the accounts of another customer, and a transaction record lands on the key of an earlier
one. Without the separator in any attribute, a key in the range of a prefix has that prefix.
-/

namespace FinNet

/-! ## Accounts -/

/-- `x/0y` opened with 100. -/
def collisionStore : Store :=
  run accountAndTransaction Store.empty [⟨.OpenAccount [some (openedAccount "x" "0y" 100)], default⟩]

/-- The pairs `x0/y` and `x/0y` differ and have one key under every object type. Opening `x/0y`
changes what `GetAccount` returns for `x0/y`, from `nil` to the account opened. -/
theorem distinct_pairs_share_key :
    [goString "x0", goString "y"] ≠ [goString "x", goString "0y"] ∧
    (∀ objectType, createCompositeKey objectType [goString "x0", goString "y"] =
      createCompositeKey objectType [goString "x", goString "0y"]) ∧
    (handleInvocation accountAndTransaction Store.empty
        ⟨.GetAccount [goString "x0", goString "y"], default⟩).result = .ok .nil ∧
    (handleInvocation accountAndTransaction collisionStore
        ⟨.GetAccount [goString "x0", goString "y"], default⟩).result =
      .ok (.record (.account (openedAccount "x" "0y" 100))) :=
  ⟨by decide, fun objectType =>
    (createCompositeKey_split objectType (goString "x") [] [] [goString "y"]).trans
      (createCompositeKey_split objectType [] (goString "y") [goString "x"] []).symm, rfl, rfl⟩

/-! ## Listings -/

/-- `c/a` opened with 1 and `c0x/b` with 2. -/
def listingStore : Store :=
  run accountAndTransaction Store.empty
    [⟨.OpenAccount [some (openedAccount "c" "a" 1)], default⟩,
     ⟨.OpenAccount [some (openedAccount "c0x" "b" 2)], default⟩]

/-- The scan of `[c]` takes in the key of `[c0x, a]`, whose attributes do not begin with `[c]`,
and misses the key of `[c, string(utf8.MaxRune)]`, whose do; `GetAccountList([c])` returns the
account of customer `c0x` beside that of `c`. -/
theorem listing_range_mismatch :
    (createCompositeKey accountAndTransaction.account [goString "c"] ≤
        createCompositeKey accountAndTransaction.account [goString "c0x", goString "a"] ∧
      createCompositeKey accountAndTransaction.account [goString "c0x", goString "a"] <
        createCompositeKey accountAndTransaction.account [goString "c"] ++ maxRune ∧
      ¬[goString "c"] <+: [goString "c0x", goString "a"]) ∧
    ([goString "c"] <+: [goString "c", maxRune] ∧
      ¬createCompositeKey accountAndTransaction.account [goString "c", maxRune] <
        createCompositeKey accountAndTransaction.account [goString "c"] ++ maxRune) ∧
    getAccountList accountAndTransaction listingStore [goString "c"] =
      .ok (.accountList [openedAccount "c" "a" 1, openedAccount "c0x" "b" 2]) :=
  ⟨by decide, by decide, rfl⟩

/-! ## Transactions -/

/-- `x/y` and `x/y0z` opened with 100, `q/r` with 0, then 10 moved from `x/y` to `q/r` under the
record ids `z0w` and `t2`. -/
def overwriteStore : Store :=
  run accountAndTransaction Store.empty
    [⟨.OpenAccount [some (openedAccount "x" "y" 100)], default⟩,
     ⟨.OpenAccount [some (openedAccount "x" "y0z" 100)], default⟩,
     ⟨.OpenAccount [some (openedAccount "q" "r" 0)], default⟩,
     ⟨.TransferMoney [some ⟨goString "x", goString "y", goString "q", goString "r", 10, 0⟩],
      (⟨goString "z0w", 1⟩, ⟨goString "t2", 2⟩)⟩]

/-- A transfer of 10 from `x/y0z` to `q/r` under the fresh record ids `w` and `t4` writes its
Debited record over the one of the earlier transfer: `[x, y, z0w]` and `[x, y0z, w]` have one
key. -/
theorem transaction_overwritten :
    (overwriteStore.entries.filterMap (·.2.transaction?)).map (·.id) =
        [goString "t2", goString "z0w"] ∧
      overwriteStore.getState
          (createCompositeKey accountAndTransaction.transaction [goString "x", goString "y", goString "z0w"]) =
        some (.transaction (createTransaction ⟨goString "z0w", 1⟩ (goString "x") (goString "y")
          ⟨goString "x", goString "y", goString "q", goString "r", 10, 0⟩ .empty .Debited)) ∧
      (handleInvocation accountAndTransaction overwriteStore
          ⟨.TransferMoney [some ⟨goString "x", goString "y0z", goString "q", goString "r", 10, 0⟩],
            (⟨goString "w", 3⟩, ⟨goString "t4", 4⟩)⟩).store.getState
          (createCompositeKey accountAndTransaction.transaction [goString "x", goString "y", goString "z0w"]) =
        some (.transaction (createTransaction ⟨goString "w", 3⟩ (goString "x") (goString "y0z")
          ⟨goString "x", goString "y0z", goString "q", goString "r", 10, 0⟩ .empty .Debited)) := by
  decide

/-! ## Identifiers without the separator -/

/-- With no separator in any attribute, the key of `f` lies in the range `partialCompositeKeyQuery`
scans for `p` exactly when `f` extends `p` by attributes whose segments sort below
`string(utf8.MaxRune)`. -/
theorem createCompositeKey_mem_range {objectType : GoString} {p f : List GoString}
    (hp : SeparatorFree p) (hf : SeparatorFree f) :
    (createCompositeKey objectType p ≤ createCompositeKey objectType f ∧
      createCompositeKey objectType f < createCompositeKey objectType p ++ maxRune) ↔
      ∃ q, f = p ++ q ∧ q.flatMap (· ++ [48]) < maxRune := by
  rw [mem_range_iff]
  constructor
  · rintro ⟨r, hr, hlt⟩
    rw [createCompositeKey_eq, createCompositeKey_eq] at hr
    obtain ⟨q, rfl, rfl⟩ := segments_append_eq hp hf (by simpa using hr)
    exact ⟨q, rfl, hlt⟩
  · rintro ⟨q, rfl, hq⟩
    exact ⟨_, createCompositeKey_append _ _ _, hq⟩

/-- The key of `p ++ [last]` lies in the range scanned for a prefix as long as `p` exactly when
that prefix is `p`. -/
theorem createCompositeKey_mem_range_last {objectType : GoString} {p p' : List GoString}
    {last : GoString} (hlen : p.length = p'.length) (hp : SeparatorFree (p ++ [last]))
    (hp' : SeparatorFree p') (hlt : last ++ [48] < maxRune) :
    (createCompositeKey objectType p' ≤ createCompositeKey objectType (p ++ [last]) ∧
      createCompositeKey objectType (p ++ [last]) < createCompositeKey objectType p' ++ maxRune) ↔
      p = p' := by
  rw [createCompositeKey_mem_range hp' hp]
  constructor
  · rintro ⟨q, hq, -⟩
    exact (List.append_inj hq hlen).1
  · rintro rfl
    exact ⟨[last], rfl, by simpa using hlt⟩

section

variable {ot : ObjectTypes} {s : Store}

/-- For identifiers without the separator, `GetAccount` returns nothing or the account of exactly
that pair, whatever the identifiers of the other stored accounts hold. -/
theorem getAccount_own_pair (hs : Reachable ot s) {customerID accountID : GoString}
    (hc : (48 : Fin 256) ∉ customerID) (ha : (48 : Fin 256) ∉ accountID) {r : Record}
    (h : getAccount ot s [customerID, accountID] = .ok (some r)) :
    ∃ a, r = .account a ∧ a.customerID = customerID ∧ a.id = accountID := by
  rw [getAccount_pair] at h
  injection h with h
  obtain ⟨hra, hkey⟩ := hs.wellKeyed.account_at h
  have hpair := createCompositeKey_inj_of_length
    (show SeparatorFree [customerID, accountID] by simp [hc, ha]) (by rfl) hkey.symm
  simp only [List.cons.injEq, and_true] at hpair
  exact ⟨_, hra, hpair.1.symm, hpair.2.symm⟩

theorem scenario_getAccount_own_pair :
    ∃ a, Record.account (openedAccount "c1" "a1" 1000) = .account a ∧
      a.customerID = goString "c1" ∧ a.id = goString "a1" :=
  getAccount_own_pair (reachable_run _ .empty _) (by decide) (by decide)
    (show getAccount accountAndTransaction scenarioStore [goString "c1", goString "a1"] =
      .ok (some (.account (openedAccount "c1" "a1" 1000))) from rfl)

/-- The stored accounts hold no separator in their identifiers, and their account IDs, with the
separator, sort below `string(utf8.MaxRune)`. -/
def AccountIdsListable (s : Store) : Prop :=
  ∀ e ∈ s.entries, ∀ a ∈ e.2.account?, SeparatorFree [a.customerID, a.id] ∧ a.id ++ [48] < maxRune

instance (s : Store) : Decidable (AccountIdsListable s) :=
  inferInstanceAs (Decidable (∀ e ∈ s.entries, ∀ a ∈ e.2.account?, _))

/-- The stored transactions hold no separator in their identifiers, and their ids, with the
separator, sort below `string(utf8.MaxRune)`. -/
def TransactionIdsListable (s : Store) : Prop :=
  ∀ e ∈ s.entries, ∀ t ∈ e.2.transaction?,
    SeparatorFree [t.customerID, t.accountID, t.id] ∧ t.id ++ [48] < maxRune

instance (s : Store) : Decidable (TransactionIdsListable s) :=
  inferInstanceAs (Decidable (∀ e ∈ s.entries, ∀ t ∈ e.2.transaction?, _))

/-- `GetAccountList([customerID])` returns exactly the stored accounts of `customerID`, in key
order, when no identifier holds the separator. -/
theorem getAccountList_exact (hw : WellKeyed ot s) (hs : AccountIdsListable s) {customerID : GoString}
    (hc : (48 : Fin 256) ∉ customerID) (rest : List GoString) :
    getAccountList ot s (customerID :: rest) =
      .ok (.accountList ((s.entries.filterMap (·.2.account?)).filter (·.customerID = customerID))) := by
  rw [getAccountList, partialCompositeKeyQuery, Store.filterMap_rangeQueryState]
  intro e he a hg
  obtain ⟨k, r⟩ := e
  cases r with
  | transaction t => cases hg
  | account a' =>
    cases hg
    have hk := Store.getState_of_mem he
    dsimp only at hk ⊢
    obtain ⟨hsep, hlt⟩ := hs _ he a rfl
    rw [hw k _ hk, Record.key, Account.key,
      show [a.customerID, a.id] = [a.customerID] ++ [a.id] from rfl,
      createCompositeKey_mem_range_last (by rfl)
        (show SeparatorFree ([a.customerID] ++ [a.id]) from hsep) (by simpa using hc) hlt]
    simp

theorem scenario_accountList :
    getAccountList accountAndTransaction scenarioStore [goString "c1"] =
      .ok (.accountList ((scenarioStore.entries.filterMap (·.2.account?)).filter
        (·.customerID = goString "c1"))) :=
  getAccountList_exact (reachable_run _ .empty _).wellKeyed (by decide) (by decide) []

/-- `GetTransactionList([customerID, accountID])` returns exactly the stored transactions of that
pair, newest first, when no identifier holds the separator. -/
theorem getTransactionList_exact (hw : WellKeyed ot s) (hs : TransactionIdsListable s)
    {customerID accountID : GoString} (hc : (48 : Fin 256) ∉ customerID)
    (ha : (48 : Fin 256) ∉ accountID) :
    getTransactionList ot s [customerID, accountID] =
      .ok (.transactionList (sortByCreatedDesc ((s.entries.filterMap (·.2.transaction?)).filter
        fun t => t.customerID = customerID ∧ t.accountID = accountID))) := by
  rw [getTransactionList, partialCompositeKeyQuery, Store.filterMap_rangeQueryState]
  intro e he t hg
  obtain ⟨k, r⟩ := e
  cases r with
  | account a => cases hg
  | transaction t' =>
    cases hg
    have hk := Store.getState_of_mem he
    dsimp only at hk ⊢
    obtain ⟨hsep, hlt⟩ := hs _ he t rfl
    rw [hw k _ hk, Record.key, Transaction.key,
      show [t.customerID, t.accountID, t.id] = [t.customerID, t.accountID] ++ [t.id] from rfl,
      createCompositeKey_mem_range_last (by rfl)
        (show SeparatorFree ([t.customerID, t.accountID] ++ [t.id]) from hsep) (by simp [hc, ha]) hlt]
    simp

theorem scenario_transactionList :
    getTransactionList accountAndTransaction
        (handleInvocation accountAndTransaction scenarioStore
          ⟨.TransferMoney [some (scenarioTransfer 200 10)], twoStamps⟩).store
        [goString "c1", goString "a1"] =
      .ok (.transactionList (sortByCreatedDesc
        (((handleInvocation accountAndTransaction scenarioStore
          ⟨.TransferMoney [some (scenarioTransfer 200 10)], twoStamps⟩).store.entries.filterMap
            (·.2.transaction?)).filter
          fun t => t.customerID = goString "c1" ∧ t.accountID = goString "a1"))) :=
  getTransactionList_exact ((reachable_run _ .empty _).step _).wellKeyed (by decide) (by decide)
    (by decide)

end

end FinNet

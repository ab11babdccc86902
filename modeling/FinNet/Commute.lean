import FinNet.Representation

/-!
# Calls on different accounts commute

An invocation reads and writes the ledger only at the account pairs it names: it leaves every
other pair's account and transactions as they were, and what it writes at its own pairs depends
only on what the ledger holds there. Two invocations that name no pair in common therefore leave
the same ledger in either order, and two sessions of invocations on disjoint pairs leave the same
ledger however they interleave. Through the refinement and the store's representation, they leave
the same world state.
-/

namespace FinNet

namespace Ledger

/-- Two ledgers hold the same at the pairs `ps`: the same account under each pair, and the same
transactions filed under it. -/
def AgreeOn (ps : List (GoString × GoString)) (L L' : Ledger) : Prop :=
  (∀ p ∈ ps, L.accounts p = L'.accounts p) ∧
    ∀ q : GoString × GoString × GoString, (q.1, q.2.1) ∈ ps → L.transactions q = L'.transactions q

/-- Two ledgers hold the same off the pairs `ps`. -/
def AgreeOff (ps : List (GoString × GoString)) (L L' : Ledger) : Prop :=
  (∀ p, p ∉ ps → L.accounts p = L'.accounts p) ∧
    ∀ q : GoString × GoString × GoString, (q.1, q.2.1) ∉ ps → L.transactions q = L'.transactions q

section

variable {ps : List (GoString × GoString)} {L L' : Ledger}

theorem AgreeOn.putAccount (h : AgreeOn ps L L') (a : Account) :
    AgreeOn ps (L.putAccount a) (L'.putAccount a) :=
  ⟨fun p hp => by simp only [accounts_putAccount, Function.update_apply, h.1 p hp], h.2⟩

theorem AgreeOn.record (h : AgreeOn ps L L') (stamp : Stamp) (customerID accountID : GoString)
    (t : Transfer) (code : TxFailureCode) (status : TxStatus) :
    AgreeOn ps (L.record stamp customerID accountID t code status)
      (L'.record stamp customerID accountID t code status) :=
  ⟨h.1, fun q hq => by simp only [transactions_record, Function.update_apply, h.2 q hq]⟩

theorem AgreeOn.settle (h : AgreeOn ps L L') (stamps : Stamp × Stamp) (t : Transfer)
    (fa ta : Account) : AgreeOn ps (L.settle stamps t fa ta) (L'.settle stamps t fa ta) := by
  unfold Ledger.settle
  split_ifs
  exacts [h.record _ _ _ _ _ _, h.record _ _ _ _ _ _, h.record _ _ _ _ _ _,
    (((h.putAccount _).record _ _ _ _ _ _).putAccount _).record _ _ _ _ _ _]

/-- What an invocation writes at its own pairs depends only on what the ledger holds there. -/
theorem AgreeOn.step {i : Invocation} (h : AgreeOn i.accountPairs L L') :
    AgreeOn i.accountPairs (L.step i) (L'.step i) := by
  have read : ∀ {p}, p ∈ i.accountPairs → L.accounts p = L'.accounts p := h.1 _
  unfold Ledger.step
  split <;> rename_i heq <;> simp only [Invocation.accountPairs, heq, List.mem_cons,
    List.mem_singleton, List.not_mem_nil, or_false] at read
  · split
    exacts [h.putAccount _, h]
  · rw [read rfl]
    split
    exacts [h.putAccount _, h]
  · rw [read rfl]
    split
    exacts [h.putAccount _, h]
  · dsimp only
    split
    · rw [read (.inl rfl), read (.inr rfl)]
      split
      exacts [h.settle _ _ _ _, h]
    · exact h
  · exact h

end

/-- A transfer files its transactions under the identifiers of the two accounts it read. -/
theorem settle_transactions_of_ne (L : Ledger) (stamps : Stamp × Stamp) (t : Transfer)
    {fa ta : Account} {q : GoString × GoString × GoString}
    (hf : (q.1, q.2.1) ≠ (fa.customerID, fa.id)) (ht : (q.1, q.2.1) ≠ (ta.customerID, ta.id)) :
    (L.settle stamps t fa ta).transactions q = L.transactions q := by
  obtain ⟨c, a, x⟩ := q
  simp only [ne_eq, Prod.mk.injEq, not_and] at hf ht
  unfold settle
  split_ifs <;> simp (disch := simp_all) [Function.update_apply]

/-- On a coherent ledger an invocation files transactions only under the pairs it names. -/
theorem Coherent.step_transactions_of_not_mem {L : Ledger} (h : L.Coherent) {i : Invocation}
    {q : GoString × GoString × GoString} (hq : (q.1, q.2.1) ∉ i.accountPairs) :
    (L.step i).transactions q = L.transactions q := by
  unfold Ledger.step
  split <;> rename_i heq <;> simp only [Invocation.accountPairs, heq, List.mem_cons,
    List.mem_singleton, List.not_mem_nil, or_false, not_or] at hq
  · split <;> rfl
  · split <;> rfl
  · split <;> rfl
  · dsimp only
    split
    · split
      · rename_i fa ta hfa hta
        exact settle_transactions_of_ne L _ _ (h _ _ hfa ▸ hq.1) (h _ _ hta ▸ hq.2)
      · rfl
    · rfl
  · rfl

theorem Coherent.step_agreeOff {L : Ledger} (h : L.Coherent) (i : Invocation) :
    AgreeOff i.accountPairs (L.step i) L :=
  ⟨fun _ hp => h.step_accounts_of_not_mem hp, fun _ hq => h.step_transactions_of_not_mem hq⟩

theorem AgreeOff.agreeOn {ps qs : List (GoString × GoString)} {L L' : Ledger}
    (h : AgreeOff qs L L') (hd : ps.Disjoint qs) : AgreeOn ps L L' :=
  ⟨fun p hp => h.1 p (hd hp), fun q hq => h.2 q (hd hq)⟩

/-- The two orders of two steps agree at a cell filed under the pair `p`, from what each step
leaves off its pairs and writes at them. -/
theorem eq_of_footprints {α : Type} {ps qs : List (GoString × GoString)} (hd : ps.Disjoint qs)
    {p : GoString × GoString} {v vi vj vij vji : α} (hi : p ∉ ps → vi = v) (hj : p ∉ qs → vj = v)
    (hij : p ∉ qs → vij = vi) (hji : p ∉ ps → vji = vj) (hij' : p ∈ qs → vij = vj)
    (hji' : p ∈ ps → vji = vi) : vij = vji := by
  by_cases hp : p ∈ ps
  · rw [hij (hd hp), hji' hp]
  by_cases hq : p ∈ qs
  · rw [hij' hq, hji hp]
  rw [hij hq, hji hp, hi hp, hj hq]

/-- On a coherent ledger two invocations that name no account pair in common commute. -/
theorem Coherent.step_comm {L : Ledger} (h : L.Coherent) {i j : Invocation}
    (hd : i.accountPairs.Disjoint j.accountPairs) : (L.step i).step j = (L.step j).step i := by
  have offi := h.step_agreeOff i
  have offj := h.step_agreeOff j
  have offij := (h.step i).step_agreeOff j
  have offji := (h.step j).step_agreeOff i
  have onij := (offi.agreeOn hd.symm).step
  have onji := (offj.agreeOn hd).step
  ext1
  · funext p
    exact eq_of_footprints hd (offi.1 p) (offj.1 p) (offij.1 p) (offji.1 p) (onij.1 p)
      (onji.1 p)
  · funext q
    exact eq_of_footprints hd (offi.2 q) (offj.2 q) (offij.2 q) (offji.2 q) (onij.2 q)
      (onji.2 q)

/-- An invocation that names no pair of a run's invocations commutes with the whole run. -/
theorem Coherent.step_run_comm {L : Ledger} (h : L.Coherent) {b : Invocation}
    {as : List Invocation} (hd : ∀ a ∈ as, a.accountPairs.Disjoint b.accountPairs) :
    (L.step b).run as = (L.run as).step b := by
  induction as generalizing L with
  | nil => rfl
  | cons a as ih =>
    show ((L.step b).step a).run as = ((L.step a).run as).step b
    rw [← h.step_comm (hd a (List.mem_cons_self _ _))]
    exact ih (h.step a) fun a' ha' => hd a' (List.mem_cons_of_mem _ ha')

end Ledger

/-- `xs` interleaves `as` and `bs`: it holds the elements of both, each list in its own order. -/
inductive Interleaving {α : Type} : List α → List α → List α → Prop where
  | nil : Interleaving [] [] []
  | left {a : α} {as bs xs : List α} : Interleaving as bs xs → Interleaving (a :: as) bs (a :: xs)
  | right {b : α} {as bs xs : List α} : Interleaving as bs xs → Interleaving as (b :: bs) (b :: xs)

theorem Interleaving.mem {α : Type} {as bs xs : List α} (h : Interleaving as bs xs) {x : α}
    (hx : x ∈ xs) : x ∈ as ∨ x ∈ bs := by
  induction h with
  | nil => exact absurd hx (List.not_mem_nil _)
  | left _ ih =>
    rcases List.mem_cons.1 hx with rfl | hx
    exacts [.inl (List.mem_cons_self _ _), (ih hx).imp_left (List.mem_cons_of_mem _)]
  | right _ ih =>
    rcases List.mem_cons.1 hx with rfl | hx
    exacts [.inr (List.mem_cons_self _ _), (ih hx).imp_right (List.mem_cons_of_mem _)]

/-- On a coherent ledger, any interleaving of two runs that name no account pair in common
leaves the ledger the first run followed by the second leaves. -/
theorem Ledger.Coherent.run_eq_of_interleaving {L : Ledger} (h : L.Coherent)
    {as bs xs : List Invocation} (hx : Interleaving as bs xs)
    (hd : ∀ a ∈ as, ∀ b ∈ bs, a.accountPairs.Disjoint b.accountPairs) :
    L.run xs = (L.run as).run bs := by
  induction hx generalizing L with
  | nil => rfl
  | left _ ih =>
    exact ih (h.step _) fun a ha b hb => hd a (List.mem_cons_of_mem _ ha) b hb
  | @right b as bs xs _ ih =>
    show (L.step b).run xs = ((L.run as).step b).run bs
    rw [ih (h.step b) fun a ha b' hb => hd a ha b' (List.mem_cons_of_mem _ hb),
      h.step_run_comm fun a ha => hd a ha b (List.mem_cons_self _ _)]

theorem ReachableUnder.run_separatorFree {ot : ObjectTypes} {s : Store}
    (hs : ReachableUnder ot (fun _ i => i.SeparatorFreeIds) s) {is : List Invocation}
    (h : ∀ i ∈ is, i.SeparatorFreeIds) :
    ReachableUnder ot (fun _ i => i.SeparatorFreeIds) (run ot s is) := by
  induction is generalizing s with
  | nil => exact hs
  | cons i is ih =>
    exact ih (hs.step i (h i (List.mem_cons_self _ _))) fun j hj => h j (List.mem_cons_of_mem _ hj)

/-- From every store reached with no separator in any identifier, two sessions of such
invocations that name no account pair in common leave, however their invocations interleave, the
world state that the first session followed by the second leaves. -/
theorem run_interleaving {ot : ObjectTypes} {s : Store}
    (hs : ReachableUnder ot (fun _ i => i.SeparatorFreeIds) s) {as bs xs : List Invocation}
    (hx : Interleaving as bs xs) (ha : ∀ i ∈ as, i.SeparatorFreeIds)
    (hb : ∀ i ∈ bs, i.SeparatorFreeIds)
    (hd : ∀ a ∈ as, ∀ b ∈ bs, a.accountPairs.Disjoint b.accountPairs) :
    run ot s xs = run ot (run ot s as) bs := by
  have hxs : ∀ i ∈ xs, i.SeparatorFreeIds := fun i hi => (hx.mem hi).elim (ha i) (hb i)
  have has := hs.run_separatorFree ha
  refine (hs.run_separatorFree hxs).reachable.wellKeyed.eq_of_toLedger_eq
    (has.run_separatorFree hb).reachable.wellKeyed ?_
  rw [toLedger_run xs hs hxs, toLedger_run bs has hb, toLedger_run as hs ha]
  exact (toLedger_coherent hs.reachable.wellKeyed hs.accountIdsSeparatorFree).run_eq_of_interleaving
    hx hd

/-- From the scenario: a top-up and the closing of `c1/a1`, with a top-up of `c2/a2` between. -/
theorem scenario_sessions_interleave :
    let topup1 : Invocation := ⟨.TopupAccount [goString "c1", goString "a1", goString "5"], default⟩
    let close1 : Invocation := ⟨.CloseAccount [goString "c1", goString "a1"], default⟩
    let topup2 : Invocation := ⟨.TopupAccount [goString "c2", goString "a2", goString "7"], default⟩
    run accountAndTransaction scenarioStore [topup1, topup2, close1] =
      run accountAndTransaction (run accountAndTransaction scenarioStore [topup1, close1])
        [topup2] :=
  run_interleaving (.step _ (.step _ .empty (by decide)) (by decide)) (.left (.right (.left .nil)))
    (by decide) (by decide) fun a ha b hb => by
      simp only [List.mem_cons, List.mem_singleton, List.not_mem_nil, or_false] at ha hb
      subst hb
      rcases ha with rfl | rfl <;> exact List.singleton_disjoint.2 (by decide)

end FinNet

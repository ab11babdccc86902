import FinNet.Refinement

/-!
# The store holds the ledger and nothing else

A reachable store is determined by the ledger read off it: every record sits at its own key, and
the store's entries are sorted by key, so two reachable stores that hold the same accounts and
the same transactions are the same store. With the refinement of runs, two runs that leave the
same ledger under `Ledger.step` leave the same world state, and every later answer of the
chaincode, the listings included, is the same after both.
-/

namespace FinNet

/-- Two stores that read the same at every key are the same store: the entries of each are
sorted by key. -/
theorem Store.ext_getState {s₁ s₂ : Store} (h : ∀ k, s₁.getState k = s₂.getState k) :
    s₁ = s₂ := by
  have : IsAntisymm (GoString × Record) (fun e f => e.1 < f.1) :=
    ⟨fun _ _ hab hba => absurd (lt_trans hab hba) (lt_irrefl _)⟩
  have nodup (s : Store) : s.entries.Nodup :=
    show s.entries.Pairwise (· ≠ ·) from s.sorted.imp fun hab => ne_of_apply_ne Prod.fst hab.ne
  have mem (s : Store) (e : GoString × Record) : e ∈ s.entries ↔ s.getState e.1 = some e.2 :=
    ⟨Store.getState_of_mem, Store.mem_of_getState⟩
  have hp : s₁.entries.Perm s₂.entries :=
    (List.perm_ext_iff_of_nodup (nodup s₁) (nodup s₂)).2 fun e => by rw [mem, mem, h]
  cases s₁
  cases s₂
  simpa only [Store.mk.injEq] using List.eq_of_perm_of_sorted hp ‹_› ‹_›

section

variable {ot : ObjectTypes} {s₁ s₂ : Store}

/-- Two stores read the same view of a key: what the first holds there, the second holds too,
when the view of that record is the view of no other record. -/
theorem getState_of_bind_eq {α : Type} {f : Record → Option α} {k : GoString} {r : Record}
    {x : α} (h : (s₁.getState k).bind f = (s₂.getState k).bind f) (hk : s₁.getState k = some r)
    (hr : f r = some x) (hx : ∀ r', f r' = some x → r' = r) : s₂.getState k = some r := by
  rw [hk, Option.some_bind, hr] at h
  obtain ⟨r', hr', hfx⟩ := Option.bind_eq_some.1 h.symm
  rwa [hx r' hfx] at hr'

/-- What a well-keyed store holds at a key, a store with the same ledger holds there too. -/
theorem WellKeyed.getState_of_toLedger_eq (hw : WellKeyed ot s₁)
    (h : s₁.toLedger ot = s₂.toLedger ot) {k : GoString} {r : Record}
    (hk : s₁.getState k = some r) : s₂.getState k = some r := by
  obtain rfl := hw k r hk
  cases r with
  | account a =>
    exact getState_of_bind_eq (congrFun (congrArg Ledger.accounts h) (a.customerID, a.id)) hk rfl
      fun r' hr' => by cases r' <;> cases hr'; rfl
  | transaction t =>
    exact getState_of_bind_eq
      (congrFun (congrArg Ledger.transactions h) (t.customerID, t.accountID, t.id)) hk rfl
      fun r' hr' => by cases r' <;> cases hr'; rfl

/-- Reading off the ledger loses nothing of a well-keyed store. -/
theorem WellKeyed.eq_of_toLedger_eq (hw₁ : WellKeyed ot s₁) (hw₂ : WellKeyed ot s₂)
    (h : s₁.toLedger ot = s₂.toLedger ot) : s₁ = s₂ :=
  Store.ext_getState fun k => by
    cases h₁ : s₁.getState k with
    | some r => exact (hw₁.getState_of_toLedger_eq h h₁).symm
    | none =>
      cases h₂ : s₂.getState k with
      | none => rfl
      | some r => exact absurd (hw₂.getState_of_toLedger_eq h.symm h₂) (by rw [h₁]; exact nofun)

end

/-- Over runs from the empty store in which no identifier holds the separator, the world state a
run leaves is determined by the ledger `Ledger.step` builds over the same run: two runs that
leave the same ledger leave the same store. -/
theorem run_eq_of_ledger_eq (ot : ObjectTypes) {is₁ is₂ : List Invocation}
    (h₁ : ∀ i ∈ is₁, i.SeparatorFreeIds) (h₂ : ∀ i ∈ is₂, i.SeparatorFreeIds)
    (h : Ledger.empty.run is₁ = Ledger.empty.run is₂) :
    run ot Store.empty is₁ = run ot Store.empty is₂ :=
  (reachable_run ot .empty is₁).wellKeyed.eq_of_toLedger_eq (reachable_run ot .empty is₂).wellKeyed
    ((toLedger_run is₁ .empty h₁).trans (h.trans (toLedger_run is₂ .empty h₂).symm))

/-- The scenario's two accounts opened in either order. -/
theorem scenario_open_either_order :
    run accountAndTransaction Store.empty
        [⟨.OpenAccount [some (openedAccount "c1" "a1" 1000)], default⟩,
         ⟨.OpenAccount [some (openedAccount "c2" "a2" 0)], default⟩] =
      run accountAndTransaction Store.empty
        [⟨.OpenAccount [some (openedAccount "c2" "a2" 0)], default⟩,
         ⟨.OpenAccount [some (openedAccount "c1" "a1" 1000)], default⟩] :=
  run_eq_of_ledger_eq accountAndTransaction (by decide) (by decide)
    (Ledger.ext (Function.update_comm (by decide) _ _ _) rfl)

end FinNet

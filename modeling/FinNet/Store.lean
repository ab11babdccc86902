import FinNet.Model

/-!
# The state store

The world state behind the chaincode stub (§4.2): `GetState`, `PutState` and `RangeQueryState`
over keys in Go's string order. It is an association list sorted by key, so a range query returns
its entries in key order, as the host's iterator does.
-/

namespace FinNet

/-- The world state: its entries in strictly increasing key order. -/
structure Store where
  entries : List (GoString × Record)
  sorted : entries.Pairwise (fun e f => e.1 < f.1)

namespace Store

/-- The store a chaincode starts from. -/
def empty : Store := ⟨[], List.Pairwise.nil⟩

/-- `stub.GetState(key)`: the value stored at `key`, `nil` when there is none. -/
def getState (s : Store) (key : GoString) : Option Record :=
  (s.entries.find? (fun e => e.1 = key)).map Prod.snd

/-- Replace the value at `key`, or add `key` at its place in the order. -/
def insert (key : GoString) (value : Record) :
    List (GoString × Record) → List (GoString × Record)
  | [] => [(key, value)]
  | e :: es =>
    if key < e.1 then (key, value) :: e :: es
    else if key = e.1 then (key, value) :: es
    else e :: insert key value es

theorem mem_insert {key : GoString} {value : Record} {e : GoString × Record} :
    ∀ {es : List (GoString × Record)}, e ∈ insert key value es → e = (key, value) ∨ e ∈ es
  | [], h => by simpa [insert] using h
  | f :: es, h => by
    unfold insert at h
    split at h
    · simpa using h
    · split at h
      · simp only [List.mem_cons] at h ⊢; tauto
      · simp only [List.mem_cons] at h ⊢
        rcases h with rfl | h
        · exact .inr (.inl rfl)
        · rcases mem_insert h with h | h <;> simp [h]

theorem insert_sorted (key : GoString) (value : Record) :
    ∀ {es : List (GoString × Record)}, es.Pairwise (fun e f => e.1 < f.1) →
      (insert key value es).Pairwise (fun e f => e.1 < f.1)
  | [], _ => List.pairwise_singleton _ _
  | f :: es, h => by
    rw [List.pairwise_cons] at h
    unfold insert
    split
    · exact List.Pairwise.cons (fun g hg => by
        rcases List.mem_cons.1 hg with rfl | hg
        · assumption
        · exact lt_trans ‹_› (h.1 g hg)) (List.Pairwise.cons h.1 h.2)
    · split
      · subst key; exact List.Pairwise.cons h.1 h.2
      · have hlt : f.1 < key := lt_of_le_of_ne (not_lt.1 ‹_›) (Ne.symm ‹_›)
        exact List.Pairwise.cons (fun g hg => by
          rcases mem_insert hg with rfl | hg
          · exact hlt
          · exact h.1 g hg) (insert_sorted key value h.2)

/-- `stub.PutState(key, value)`. -/
def putState (s : Store) (key : GoString) (value : Record) : Store :=
  ⟨insert key value s.entries, insert_sorted key value s.sorted⟩

/-- `stub.RangeQueryState(startKey, endKey)`: the entries with `startKey ≤ key < endKey`, in key
order. -/
def rangeQueryState (s : Store) (startKey endKey : GoString) : List (GoString × Record) :=
  s.entries.filter fun e => startKey ≤ e.1 ∧ e.1 < endKey

theorem find_insert (key key' : GoString) (value : Record) :
    ∀ es : List (GoString × Record),
      ((insert key value es).find? (fun e => e.1 = key')).map Prod.snd =
        if key' = key then some value else (es.find? (fun e => e.1 = key')).map Prod.snd
  | [] => by by_cases h : key' = key <;> simp [insert, h, eq_comm]
  | f :: es => by
    unfold insert
    split
    · by_cases h : key' = key <;> simp [h, eq_comm]
    · split
      · subst key; by_cases h : key' = f.1 <;> simp [h, eq_comm]
      · have ih := find_insert key key' value es
        by_cases h : f.1 = key'
        · subst key'; simp [Ne.symm ‹_›]
        · simpa [List.find?_cons, h] using ih

/-- A write changes the value at its key and nothing else. -/
@[simp] theorem getState_putState (s : Store) (key key' : GoString) (value : Record) :
    (s.putState key value).getState key' = if key' = key then some value else s.getState key' :=
  find_insert key key' value s.entries

/-- What a key holds after a write: what it held before, or the written value. -/
theorem getState_putState_eq_some {s : Store} {key key' : GoString} {value r : Record}
    (h : (s.putState key value).getState key' = some r) : s.getState key' = some r ∨ value = r := by
  rw [getState_putState] at h
  split at h
  · exact .inr (Option.some.inj h)
  · exact .inl h

/-- Every value `s'` holds is the one `s` holds at that key, or passes `P`. -/
def WritesOnly (P : Record → Prop) (s s' : Store) : Prop :=
  ∀ k r, s'.getState k = some r → s.getState k = some r ∨ P r

theorem WritesOnly.refl {P : Record → Prop} {s : Store} : WritesOnly P s s := fun _ _ h => .inl h

theorem WritesOnly.putState {P : Record → Prop} {s s' : Store} (h : WritesOnly P s s') {key : GoString}
    {value : Record} (hv : P value) : WritesOnly P s (s'.putState key value) := fun k r hr => by
  rcases getState_putState_eq_some hr with hr | rfl
  exacts [h k r hr, .inr hv]

@[simp] theorem getState_empty (key : GoString) : empty.getState key = none := rfl

theorem find?_of_mem {e : GoString × Record} :
    ∀ {es : List (GoString × Record)}, es.Pairwise (fun e f => e.1 < f.1) → e ∈ es →
      (es.find? (fun f => f.1 = e.1)).map Prod.snd = some e.2
  | f :: es, hs, h => by
    rw [List.pairwise_cons] at hs
    rcases List.mem_cons.1 h with rfl | h
    · simp
    · simpa [List.find?_cons, ne_of_lt (hs.1 e h)] using find?_of_mem hs.2 h

theorem mem_of_getState {s : Store} {k : GoString} {r : Record} (h : s.getState k = some r) :
    (k, r) ∈ s.entries := by
  obtain ⟨e, he, rfl⟩ := Option.map_eq_some'.1 h
  obtain rfl : e.1 = k := by simpa using List.find?_some he
  exact List.mem_of_find?_eq_some he

/-- Keys are unique: an entry is what `GetState` returns at its key. -/
theorem getState_of_mem {s : Store} {e : GoString × Record} (h : e ∈ s.entries) :
    s.getState e.1 = some e.2 :=
  find?_of_mem s.sorted h

theorem insert_of_mem {key : GoString} {value : Record} :
    ∀ {es : List (GoString × Record)}, es.Pairwise (fun e f => e.1 < f.1) → (key, value) ∈ es →
      insert key value es = es
  | e :: es, hs, h => by
    rw [List.pairwise_cons] at hs
    unfold insert
    rcases List.mem_cons.1 h with rfl | h
    · simp
    · have hlt := hs.1 _ h
      rw [if_neg (lt_asymm hlt), if_neg (ne_of_gt hlt), insert_of_mem hs.2 h]

/-- Writing back the value a key holds leaves the store as it was. -/
theorem putState_of_getState {s : Store} {key : GoString} {value : Record}
    (h : s.getState key = some value) : s.putState key value = s := by
  have hi := insert_of_mem s.sorted (mem_of_getState h)
  cases s
  simpa only [putState, mk.injEq] using hi

/-- Replacing the value at `key` changes a sum over the entries by the new value's term less the
old one's. -/
theorem sum_insert (f : Record → Int) (key : GoString) (value : Record) :
    ∀ {es : List (GoString × Record)}, es.Pairwise (fun e f => e.1 < f.1) →
      ((insert key value es).map (f ·.2)).sum + (((es.find? (·.1 = key)).map (f ·.2)).getD 0) =
        (es.map (f ·.2)).sum + f value
  | [], _ => by simp [insert]
  | e :: es, hs => by
    rw [List.pairwise_cons] at hs
    unfold insert
    split
    · have hnone : (e :: es).find? (·.1 = key) = none := List.find?_eq_none.2 fun g hg => by
        rcases List.mem_cons.1 hg with rfl | hg
        · simpa using ne_of_gt ‹key < g.1›
        · simpa using ne_of_gt (lt_trans ‹key < e.1› (hs.1 g hg))
      simp [hnone]
      omega
    · split
      · subst key; simp; omega
      · have ih := sum_insert f key value hs.2
        simp [List.find?_cons, Ne.symm ‹¬key = e.1›] at ih ⊢
        omega

theorem sum_putState (f : Record → Int) (s : Store) (key : GoString) (value : Record) :
    ((s.putState key value).entries.map (f ·.2)).sum + ((s.getState key).map f).getD 0 =
      (s.entries.map (f ·.2)).sum + f value := by
  simpa [getState, Option.map_map] using sum_insert f key value s.sorted

/-- Decoding the entries of a range equals filtering the decoded store, when an entry that
decodes lies in the range exactly when its value passes the filter. -/
theorem filterMap_rangeQueryState {α : Type} {s : Store} {lo hi : GoString} {g : Record → Option α}
    {P : α → Bool} (h : ∀ e ∈ s.entries, ∀ x, g e.2 = some x → (lo ≤ e.1 ∧ e.1 < hi ↔ P x)) :
    (s.rangeQueryState lo hi).filterMap (g ·.2) = (s.entries.filterMap (g ·.2)).filter P := by
  rw [rangeQueryState, List.filterMap_filter, List.filter_filterMap]
  refine List.filterMap_congr fun e he => ?_
  cases hg : g e.2 with
  | none => simp
  | some x => simp [Option.filter, h e he x hg]

end Store

end FinNet

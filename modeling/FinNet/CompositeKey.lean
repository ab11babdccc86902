import FinNet.GoString

/-!
# Composite keys

`createCompositeKey` writes the object type and then each attribute, every segment followed by
`minKeyValue`. The separator is the digit `"0"`, a byte attribute strings may hold, so a
separator inside an attribute reads the same as an attribute boundary. Keys determine their
attributes again once no attribute holds the separator.
-/

namespace FinNet

/-- `minKeyValue`, the separator `createCompositeKey` writes after every segment. -/
def minKeyValue : GoString := goString "0"

@[simp] theorem minKeyValue_eq : minKeyValue = [48] := by decide

/-- `createCompositeKey(objectType, attributes)`; its error result is always `nil`. -/
def createCompositeKey (objectType : GoString) (attributes : List GoString) : GoString :=
  attributes.foldl (fun key att => key ++ (att ++ minKeyValue)) (objectType ++ minKeyValue)

private theorem foldl_segments (acc : GoString) (atts : List GoString) :
    atts.foldl (fun key att => key ++ (att ++ minKeyValue)) acc =
      acc ++ atts.flatMap (· ++ minKeyValue) := by
  induction atts generalizing acc with
  | nil => simp only [List.foldl_nil, List.flatMap_nil, List.append_nil]
  | cons a atts ih => simp only [List.foldl_cons, ih, List.flatMap_cons, List.append_assoc]

theorem createCompositeKey_eq (ot : GoString) (atts : List GoString) :
    createCompositeKey ot atts = ot ++ 48 :: atts.flatMap (· ++ [48]) := by
  rw [createCompositeKey, foldl_segments]
  simp

theorem createCompositeKey_append (ot : GoString) (xs ys : List GoString) :
    createCompositeKey ot (xs ++ ys) = createCompositeKey ot xs ++ ys.flatMap (· ++ [48]) := by
  simp [createCompositeKey_eq]

/-- A separator byte inside an attribute reads as the boundary between two attributes. -/
theorem createCompositeKey_split (ot a b : GoString) (xs ys : List GoString) :
    createCompositeKey ot (xs ++ (a ++ 48 :: b) :: ys) =
      createCompositeKey ot (xs ++ a :: b :: ys) := by
  simp [createCompositeKey_eq]

/-! ## Keys of attributes without the separator -/

/-- No attribute holds the separator byte: the precondition under which the spec (§4.1) has
composite keys determine their attributes. -/
def SeparatorFree (atts : List GoString) : Prop := ∀ a ∈ atts, (48 : Fin 256) ∉ a

instance (atts : List GoString) : Decidable (SeparatorFree atts) :=
  inferInstanceAs (Decidable (∀ a ∈ atts, _))

@[simp] theorem separatorFree_nil : SeparatorFree [] := fun _ h => nomatch h

@[simp] theorem separatorFree_cons {a : GoString} {atts : List GoString} :
    SeparatorFree (a :: atts) ↔ (48 : Fin 256) ∉ a ∧ SeparatorFree atts :=
  List.forall_mem_cons

@[simp] theorem separatorFree_append {xs ys : List GoString} :
    SeparatorFree (xs ++ ys) ↔ SeparatorFree xs ∧ SeparatorFree ys :=
  List.forall_mem_append

/-- The first separator byte of `a ++ 48 :: r` ends `a` when `a` has none. -/
theorem append_sep_inj {a b r s : GoString} (h : a ++ 48 :: r = b ++ 48 :: s)
    (ha : (48 : Fin 256) ∉ a) (hb : (48 : Fin 256) ∉ b) : a = b ∧ r = s := by
  induction a generalizing b with
  | nil =>
    cases b with
    | nil => simpa using h
    | cons c b => simp only [List.nil_append, List.cons_append, List.cons.injEq] at h
                  exact absurd (h.1 ▸ List.mem_cons_self _ _) hb
  | cons c a ih =>
    cases b with
    | nil => simp only [List.nil_append, List.cons_append, List.cons.injEq] at h
             exact absurd (h.1 ▸ List.mem_cons_self _ _) ha
    | cons d b =>
      simp only [List.cons_append, List.cons.injEq] at h
      obtain ⟨rfl, rfl⟩ := ih h.2 (fun hm => ha (List.mem_cons_of_mem _ hm))
        (fun hm => hb (List.mem_cons_of_mem _ hm))
      exact ⟨by rw [h.1], rfl⟩

theorem segments_inj {xs ys : List GoString} (hxs : SeparatorFree xs) (hys : SeparatorFree ys)
    (h : xs.flatMap (· ++ [48]) = ys.flatMap (· ++ [48])) : xs = ys := by
  induction xs generalizing ys with
  | nil => cases ys with
    | nil => rfl
    | cons y ys => simp at h
  | cons x xs ih => cases ys with
    | nil => simp at h
    | cons y ys =>
      simp only [List.flatMap_cons, List.append_assoc, List.singleton_append] at h
      simp only [separatorFree_cons] at hxs hys
      obtain ⟨rfl, hrest⟩ := append_sep_inj h hxs.1 hys.1
      rw [ih hxs.2 hys.2 hrest]

/-- On attributes without the separator, `createCompositeKey` is injective. -/
theorem createCompositeKey_inj {ot : GoString} {xs ys : List GoString}
    (hxs : SeparatorFree xs) (hys : SeparatorFree ys)
    (h : createCompositeKey ot xs = createCompositeKey ot ys) : xs = ys := by
  rw [createCompositeKey_eq, createCompositeKey_eq] at h
  exact segments_inj hxs hys (List.cons_injective (List.append_cancel_left h))

theorem account_key_determines_pair : [goString "c1", goString "a1"] = [goString "c1", goString "a1"] :=
  createCompositeKey_inj (by decide) (by decide)
    (show createCompositeKey (goString "Account") [goString "c1", goString "a1"] =
      createCompositeKey (goString "Account") [goString "c1", goString "a1"] from rfl)

theorem length_le_count_segments (zs : List GoString) :
    zs.length ≤ (zs.flatMap (· ++ [48])).count 48 := by
  induction zs with
  | nil => simp
  | cons z zs ih => simp [List.count_append]; omega

/-- The segments of separator-free attributes hold one separator each, and only those do. -/
theorem separatorFree_iff_count (zs : List GoString) :
    SeparatorFree zs ↔ (zs.flatMap (· ++ [48])).count 48 = zs.length := by
  induction zs with
  | nil => simp
  | cons z zs ih =>
    have := length_le_count_segments zs
    simp only [separatorFree_cons, ih, ← List.count_eq_zero, List.flatMap_cons, List.count_append,
      List.count_singleton_self, List.length_cons]
    omega

/-- A key equal to the key of separator-free attributes, with as many attributes, has the same
attributes: its separators are all boundaries. -/
theorem createCompositeKey_inj_of_length {ot : GoString} {xs ys : List GoString}
    (hxs : SeparatorFree xs) (hlen : ys.length = xs.length)
    (h : createCompositeKey ot xs = createCompositeKey ot ys) : xs = ys := by
  rw [createCompositeKey_eq, createCompositeKey_eq] at h
  have hseg := List.cons_injective (List.append_cancel_left h)
  have hys : SeparatorFree ys := (separatorFree_iff_count ys).2 <| by
    rw [← hseg, hlen]
    exact (separatorFree_iff_count xs).1 hxs
  exact segments_inj hxs hys hseg

/-- Separator-free segments that begin the segments of another separator-free list are that
list's first attributes. -/
theorem segments_append_eq {p f : List GoString} {r : GoString} (hp : SeparatorFree p)
    (hf : SeparatorFree f) (h : f.flatMap (· ++ [48]) = p.flatMap (· ++ [48]) ++ r) :
    ∃ q, f = p ++ q ∧ q.flatMap (· ++ [48]) = r := by
  induction p generalizing f with
  | nil => exact ⟨f, rfl, h⟩
  | cons a p ih =>
    cases f with
    | nil => simp at h
    | cons b f =>
      simp only [List.flatMap_cons, List.append_assoc, List.singleton_append] at h
      simp only [separatorFree_cons] at hp hf
      obtain ⟨rfl, hrest⟩ := append_sep_inj h hf.1 hp.1
      obtain ⟨q, rfl, hq⟩ := ih hp.2 hf.2 hrest
      exact ⟨q, rfl, hq⟩

/-- The text after the last separator byte of `x ++ 48 :: a` is `a` when `a` has none. -/
theorem sep_append_inj {x y a b : GoString} (h : x ++ 48 :: a = y ++ 48 :: b)
    (ha : (48 : Fin 256) ∉ a) (hb : (48 : Fin 256) ∉ b) : a = b := by
  have h' := congrArg List.reverse h
  simp only [List.reverse_append, List.reverse_cons, List.append_assoc, List.singleton_append] at h'
  simpa using (append_sep_inj h' (by simpa using ha) (by simpa using hb)).1

theorem createCompositeKey_ends_sep (ot : GoString) (xs : List GoString) :
    ∃ x, createCompositeKey ot xs = x ++ [48] := by
  rcases List.eq_nil_or_concat xs with rfl | ⟨ys, y, rfl⟩
  · exact ⟨ot, by simp [createCompositeKey]⟩
  · exact ⟨createCompositeKey ot ys ++ y, by simp [createCompositeKey_append]⟩

/-- The last attribute of a key is the text between its last two separators, whatever the
attributes before it hold. -/
theorem createCompositeKey_last_inj {ot ot' : GoString} {xs ys : List GoString} {a b : GoString}
    (ha : (48 : Fin 256) ∉ a) (hb : (48 : Fin 256) ∉ b)
    (h : createCompositeKey ot (xs ++ [a]) = createCompositeKey ot' (ys ++ [b])) : a = b := by
  obtain ⟨x, hx⟩ := createCompositeKey_ends_sep ot xs
  obtain ⟨y, hy⟩ := createCompositeKey_ends_sep ot' ys
  rw [createCompositeKey_append, createCompositeKey_append, hx, hy] at h
  have h' : (x ++ 48 :: a) ++ [48] = (y ++ 48 :: b) ++ [48] := by simpa using h
  exact sep_append_inj (List.append_cancel_right h') ha hb

end FinNet

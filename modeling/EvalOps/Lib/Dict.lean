import Mathlib.Data.List.Nodup
import Mathlib.Data.List.Forall2
import Mathlib.Data.Finset.Dedup

/-!
# `EvalOps.Lib.Dict`: insertion-ordered dictionaries

A Python `dict` as a list of entries with distinct keys. `Dict.insert` overwrites in place, so
a key keeps the position of its first insertion. `Dict.ofList` is the dict comprehension: it
inserts the pairs from left to right.

* `Dict.get?_eq_some_iff`: a lookup is membership among the entries.
* `Dict.ofList_entries`: pairs with distinct keys are the entries, in order.
-/

set_option autoImplicit false

/-- An insertion-ordered dictionary. The keys are distinct. -/
structure Dict (K V : Type) where
  entries : List (K × V)
  nodup : (entries.map Prod.fst).Nodup

namespace Dict

variable {K V : Type}

/-- The empty dictionary. -/
def empty : Dict K V := ⟨[], List.nodup_nil⟩

/-- The keys, in insertion order. -/
def keys (d : Dict K V) : List K := d.entries.map Prod.fst

/-- The values, in insertion order. -/
def values (d : Dict K V) : List V := d.entries.map Prod.snd

/-- The number of keys. -/
def size (d : Dict K V) : ℕ := d.entries.length

@[ext] theorem ext {d d' : Dict K V} (h : d.entries = d'.entries) : d = d' := by
  cases d
  cases d'
  cases h
  rfl

variable [DecidableEq K]

/-- `d.get(k)`. -/
def get? (d : Dict K V) (k : K) : Option V :=
  (d.entries.find? fun e => decide (e.1 = k)).map Prod.snd

/-- `k in d`. -/
def contains (d : Dict K V) (k : K) : Bool := decide (k ∈ d.keys)

/-- The entries after the assignment `d[k] = v`. -/
def insertEntries (entries : List (K × V)) (k : K) (v : V) : List (K × V) :=
  if k ∈ entries.map Prod.fst then entries.map fun e => if e.1 = k then (k, v) else e
  else entries ++ [(k, v)]

/-- Overwriting a value keeps the keys. -/
theorem map_fst_overwrite (entries : List (K × V)) (k : K) (v : V) :
    (entries.map fun e => if e.1 = k then (k, v) else e).map Prod.fst
      = entries.map Prod.fst := by
  rw [List.map_map]
  apply List.map_congr_left
  intro e _
  by_cases h : e.1 = k
  · simp [h]
  · simp [h]

/-- An assignment keeps the keys distinct. -/
theorem insertEntries_nodup {entries : List (K × V)} (h : (entries.map Prod.fst).Nodup)
    (k : K) (v : V) : ((insertEntries entries k v).map Prod.fst).Nodup := by
  unfold insertEntries
  split
  · rw [map_fst_overwrite]
    exact h
  · rename_i hk
    rw [List.map_append, List.nodup_append]
    refine ⟨h, by simp, ?_⟩
    intro a ha b hb hab
    simp only [List.map_cons, List.map_nil, List.mem_singleton] at hb
    exact hk (hb ▸ hab ▸ ha)

/-- An assignment in a dictionary whose values are mapped. -/
theorem insertEntries_map {W : Type} (f : V → W) (entries : List (K × V)) (k : K) (v : V) :
    insertEntries (entries.map fun e => (e.1, f e.2)) k (f v)
      = (insertEntries entries k v).map fun e => (e.1, f e.2) := by
  have hkeys : (entries.map fun e => (e.1, f e.2)).map Prod.fst = entries.map Prod.fst := by
    rw [List.map_map]
    rfl
  unfold insertEntries
  rw [hkeys]
  split
  · rw [List.map_map, List.map_map]
    apply List.map_congr_left
    intro e _
    by_cases h : e.1 = k
    · simp [h]
    · simp [h]
  · rw [List.map_append]
    rfl

/-- The assignment `d[k] = v`. -/
def insert (d : Dict K V) (k : K) (v : V) : Dict K V :=
  ⟨insertEntries d.entries k v, insertEntries_nodup d.nodup k v⟩

/-- The dict comprehension `{k: v for (k, v) in pairs}`. -/
def ofList (pairs : List (K × V)) : Dict K V :=
  pairs.foldl (fun d e => d.insert e.1 e.2) empty

/-! ### Lookups -/

/-- A lookup returns `v` exactly when the pair is an entry. -/
theorem get?_eq_some_iff (d : Dict K V) (k : K) (v : V) :
    d.get? k = some v ↔ (k, v) ∈ d.entries := by
  unfold get?
  rw [Option.map_eq_some_iff]
  constructor
  · rintro ⟨e, hfind, rfl⟩
    have hk : e.1 = k := by simpa using List.find?_some hfind
    have hmem := List.mem_of_find?_eq_some hfind
    rwa [← hk]
  · intro hmem
    cases hfind : d.entries.find? fun e => decide (e.1 = k) with
    | none =>
        have := List.find?_eq_none.mp hfind (k, v) hmem
        simp at this
    | some e =>
        have hk : e.1 = k := by simpa using List.find?_some hfind
        have he := List.mem_of_find?_eq_some hfind
        -- The keys are distinct, so the entry found is the pair.
        have hsame : e = (k, v) := List.inj_on_of_nodup_map d.nodup he hmem hk
        exact ⟨e, rfl, by rw [hsame]⟩

/-- A key is present exactly when its lookup succeeds. -/
theorem mem_keys_iff (d : Dict K V) (k : K) : k ∈ d.keys ↔ ∃ v, d.get? k = some v := by
  constructor
  · intro hk
    obtain ⟨e, he, rfl⟩ := List.mem_map.mp hk
    exact ⟨e.2, (d.get?_eq_some_iff e.1 e.2).mpr he⟩
  · rintro ⟨v, hv⟩
    exact List.mem_map.mpr ⟨(k, v), (d.get?_eq_some_iff k v).mp hv, rfl⟩

/-- A key is in the dictionary exactly when its lookup succeeds. -/
theorem contains_iff {d : Dict K V} {k : K} : d.contains k = true ↔ ∃ v, d.get? k = some v := by
  rw [contains, decide_eq_true_iff, mem_keys_iff]

/-- A new key goes to the end. -/
theorem insert_entries_of_notMem {d : Dict K V} {k : K} (h : k ∉ d.keys) (v : V) :
    (d.insert k v).entries = d.entries ++ [(k, v)] := by
  unfold insert insertEntries
  exact if_neg h

/-! ### Dict comprehensions -/

/-- The fold behind `ofList`, from a dictionary that has none of the new keys. -/
theorem foldl_insert_entries (pairs : List (K × V)) (d : Dict K V)
    (h : ((d.entries ++ pairs).map Prod.fst).Nodup) :
    (pairs.foldl (fun d e => d.insert e.1 e.2) d).entries = d.entries ++ pairs := by
  induction pairs generalizing d with
  | nil => simp
  | cons e rest ih =>
      have hnew : e.1 ∉ d.keys := by
        intro hmem
        rw [List.map_append, List.nodup_append] at h
        exact h.2.2 e.1 hmem e.1 (by simp) rfl
      have hentries := insert_entries_of_notMem hnew e.2
      rw [List.foldl_cons, ih (d.insert e.1 e.2), hentries, List.append_assoc]
      · rfl
      · rw [hentries, List.append_assoc]
        exact h

/-- Pairs with distinct keys are the entries of their comprehension, in order. -/
theorem ofList_entries {pairs : List (K × V)} (h : (pairs.map Prod.fst).Nodup) :
    (ofList pairs).entries = pairs := by
  unfold ofList
  rw [foldl_insert_entries pairs empty (by simpa [empty] using h)]
  rfl

/-- A key behind an assignment is the assigned one or was there before. -/
theorem mem_keys_insert {d : Dict K V} {k k' : K} {v : V} (h : k' ∈ (d.insert k v).keys) :
    k' = k ∨ k' ∈ d.keys := by
  unfold insert keys insertEntries at h
  dsimp only at h
  split at h
  · rw [map_fst_overwrite] at h
    exact Or.inr h
  · rw [List.map_append, List.mem_append] at h
    rcases h with h | h
    · exact Or.inr h
    · exact Or.inl (List.mem_singleton.mp h)

/-- A key of a comprehension is the key of a pair. -/
theorem mem_keys_ofList {pairs : List (K × V)} {k : K} (h : k ∈ (ofList pairs).keys) :
    k ∈ pairs.map Prod.fst := by
  have loop : ∀ (rest : List (K × V)) (d : Dict K V),
      k ∈ (rest.foldl (fun d e => d.insert e.1 e.2) d).keys →
      k ∈ d.keys ∨ k ∈ rest.map Prod.fst := by
    intro rest
    induction rest with
    | nil => exact fun d hk => Or.inl hk
    | cons e rest ih =>
        intro d hk
        rcases ih (d.insert e.1 e.2) hk with hk | hk
        · rcases mem_keys_insert hk with rfl | hk
          · exact Or.inr List.mem_cons_self
          · exact Or.inl hk
        · exact Or.inr (List.mem_cons_of_mem _ hk)
  rcases loop pairs empty h with hk | hk
  · exact absurd hk List.not_mem_nil
  · exact hk

/-- The comprehension that keys `xs` by `f`, at the key of a member. -/
theorem get?_ofList_map {α : Type} {xs : List α} {f : α → K} (h : (xs.map f).Nodup) {x : α}
    (hx : x ∈ xs) : (ofList (xs.map fun x => (f x, x))).get? (f x) = some x := by
  rw [get?_eq_some_iff, ofList_entries (by rw [List.map_map]; exact h)]
  exact List.mem_map.mpr ⟨x, hx, rfl⟩

/-- A lookup in the comprehension that keys `xs` by `f` searches `xs`. -/
theorem get?_ofList_map_eq_find? {α : Type} {xs : List α} {f : α → K} (h : (xs.map f).Nodup)
    (k : K) :
    (ofList (xs.map fun x => (f x, x))).get? k = xs.find? fun x => decide (f x = k) := by
  unfold get?
  rw [ofList_entries (by rw [List.map_map]; exact h), List.find?_map, Option.map_map]
  simp [Function.comp_def]

/-- The order of the entries does not matter to a lookup. -/
theorem get?_eq_of_perm {d d' : Dict K V} (hperm : d.entries.Perm d'.entries) (k : K) :
    d.get? k = d'.get? k := by
  apply Option.ext
  intro v
  rw [get?_eq_some_iff, get?_eq_some_iff, hperm.mem_iff]

/-- The order of pairs with distinct keys does not matter to a lookup in their comprehension. -/
theorem get?_ofList_perm {pairs pairs' : List (K × V)} (hperm : pairs.Perm pairs')
    (h : (pairs.map Prod.fst).Nodup) (k : K) : (ofList pairs).get? k = (ofList pairs').get? k := by
  have h' : (pairs'.map Prod.fst).Nodup := (hperm.map Prod.fst).nodup_iff.mp h
  apply get?_eq_of_perm
  rw [ofList_entries h, ofList_entries h']
  exact hperm

/-! ### Optional fields -/

/-- The entries of the fields that are set. -/
def setFields (fields : List (K × Option V)) : List (K × V) :=
  fields.filterMap fun e => e.2.map fun v => (e.1, v)

omit [DecidableEq K] in
theorem mem_setFields {fields : List (K × Option V)} {k : K} {v : V} :
    (k, v) ∈ setFields fields ↔ (k, some v) ∈ fields := by
  unfold setFields
  rw [List.mem_filterMap]
  constructor
  · rintro ⟨⟨key, value⟩, hmem, heq⟩
    obtain ⟨w, rfl, hpair⟩ := Option.map_eq_some_iff.mp heq
    cases hpair
    exact hmem
  · intro hmem
    exact ⟨_, hmem, rfl⟩

omit [DecidableEq K] in
theorem keys_setFields_sublist (fields : List (K × Option V)) :
    ((setFields fields).map Prod.fst).Sublist (fields.map Prod.fst) := by
  induction fields with
  | nil => exact List.Sublist.slnil
  | cons e fields ih =>
      rcases e with ⟨key, _ | v⟩
      · exact ih.cons key
      · exact ih.cons_cons key

/-- The value of a field in the dictionary of the fields that are set. -/
theorem get?_ofList_setFields {fields : List (K × Option V)} (h : (fields.map Prod.fst).Nodup)
    {k : K} {value : Option V} (hmem : (k, value) ∈ fields) :
    (ofList (setFields fields)).get? k = value := by
  apply Option.ext
  intro v
  rw [get?_eq_some_iff, ofList_entries (h.sublist (keys_setFields_sublist fields)), mem_setFields]
  constructor
  · intro hv
    -- The keys are distinct, so the two fields are one.
    exact congrArg Prod.snd (List.inj_on_of_nodup_map h hmem hv rfl)
  · rintro rfl
    exact hmem

/-- A key that is no field has no value. -/
theorem get?_ofList_setFields_of_notMem {fields : List (K × Option V)}
    (h : (fields.map Prod.fst).Nodup) {k : K} (hk : k ∉ fields.map Prod.fst) :
    (ofList (setFields fields)).get? k = none := by
  apply Option.ext
  intro v
  rw [get?_eq_some_iff, ofList_entries (h.sublist (keys_setFields_sublist fields)), mem_setFields]
  refine iff_of_false (fun hv => hk (List.mem_map_of_mem hv)) (by simp)

end Dict

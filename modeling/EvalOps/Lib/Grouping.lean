import EvalOps.Lib.Dict
import EvalOps.Lib.Lists
import EvalOps.Lib.Sorting
import Mathlib.Data.List.MinMax
import Mathlib.Data.Finset.Card
import Mathlib.Algebra.BigOperators.Group.List.Lemmas
import Mathlib.Algebra.GroupWithZero.Nat

/-!
# `EvalOps.Lib.Grouping`: grouping by a key

The idiom `groups.setdefault(key(x), []).append(x)` over a list, its variant with sets, and the
stable sort by a key that usually follows it.

* `Dict.get?_group`: the group of a key is the part of the list with that key.
* `Dict.group_ne_nil`: no group is empty.
* `Dict.get?_collect`: the set of a key is the image of the part of the list with that key.
* `Dict.sum_length_group`: the groups have as many members as the list.
* `Sorting.sortedOn_pairwise_lt`: distinct keys are strictly ordered after the sort.
* `Sorting.forall₂_sortedOn_fst`: two lists of pairs that agree key by key agree one by one once
  they are sorted.
-/

set_option autoImplicit false

namespace Dict

variable {K V W : Type} [DecidableEq K]

/-- A lookup after an assignment. -/
theorem get?_insert (d : Dict K V) (k k' : K) (v : V) :
    (d.insert k v).get? k' = if k' = k then some v else d.get? k' := by
  have hmem : ∀ w, (k', w) ∈ (d.insert k v).entries ↔
      if k' = k then w = v else (k', w) ∈ d.entries := by
    intro w
    unfold insert insertEntries
    dsimp only
    split
    · rename_i hk
      rw [List.mem_map]
      constructor
      · rintro ⟨e, he, hpair⟩
        by_cases hek : e.1 = k
        · rw [if_pos hek] at hpair
          cases hpair
          simp
        · rw [if_neg hek] at hpair
          cases hpair
          rwa [if_neg hek]
      · intro hw
        by_cases hkk : k' = k
        · rw [if_pos hkk] at hw
          obtain ⟨e, he, hek⟩ := List.mem_map.mp hk
          exact ⟨e, he, by rw [if_pos hek, hkk, hw]⟩
        · rw [if_neg hkk] at hw
          exact ⟨(k', w), hw, if_neg hkk⟩
    · rename_i hk
      by_cases hkk : k' = k
      · have hnew : (k, w) ∉ d.entries := fun h => hk (List.mem_map.mpr ⟨_, h, rfl⟩)
        simp [hkk, hnew]
      · simp [hkk]
  apply Option.ext
  intro w
  rw [get?_eq_some_iff, hmem]
  split
  · simp [eq_comm]
  · rw [get?_eq_some_iff]

/-- `d.setdefault(k, []).append(v)`. -/
def append (d : Dict K (List V)) (k : K) (v : V) : Dict K (List V) :=
  d.insert k ((d.get? k).getD [] ++ [v])

/-- `d.setdefault(k, set()).add(v)`. -/
def addTo [DecidableEq V] (d : Dict K (Finset V)) (k : K) (v : V) : Dict K (Finset V) :=
  d.insert k (Insert.insert v ((d.get? k).getD ∅))

/-- The groups of a list by a key, in the order in which the keys first appear. -/
def group (key : V → K) (xs : List V) : Dict K (List V) :=
  xs.foldl (fun d x => d.append (key x) x) empty

/-- The images of a list under `f`, as a set for each key. -/
def collect [DecidableEq W] (key : V → K) (f : V → W) (xs : List V) : Dict K (Finset W) :=
  xs.foldl (fun d x => d.addTo (key x) (f x)) empty

/-- The group of a key is the part of the list with that key, absent when there is none. -/
theorem get?_group (key : V → K) (xs : List V) (k : K) :
    (group key xs).get? k
      = if xs.filter (fun x => decide (key x = k)) = [] then none
        else some (xs.filter fun x => decide (key x = k)) := by
  have hfold : ∀ (xs : List V) (d : Dict K (List V)),
      (xs.foldl (fun d x => d.append (key x) x) d).get? k
        = if xs.filter (fun x => decide (key x = k)) = [] then d.get? k
          else some ((d.get? k).getD [] ++ xs.filter fun x => decide (key x = k)) := by
    intro xs
    induction xs with
    | nil =>
        intro d
        simp
    | cons x xs ih =>
        intro d
        rw [List.foldl_cons, ih, append, get?_insert]
        by_cases hx : key x = k
        · rw [if_pos hx.symm, List.filter_cons_of_pos (by simpa using hx), hx]
          -- The new entry opens the group or joins it; the rest follows either way.
          generalize xs.filter (fun x => decide (key x = k)) = rest
          cases rest with
          | nil => simp
          | cons y rest => simp
        · rw [if_neg (Ne.symm hx), List.filter_cons_of_neg (by simpa using hx)]
  unfold group
  rw [hfold]
  simp [get?, empty]

/-- A group consists of entries with its key, and there is one. -/
theorem group_ne_nil {key : V → K} {xs : List V} {k : K} {group : List V}
    (h : (k, group) ∈ (Dict.group key xs).entries) :
    group = xs.filter (fun x => decide (key x = k)) ∧ group ≠ [] := by
  have hget := ((Dict.group key xs).get?_eq_some_iff k group).mpr h
  rw [get?_group] at hget
  split at hget
  · exact nomatch hget
  · rename_i hne
    cases hget
    exact ⟨rfl, hne⟩

/-- The keys of the groups are the keys of the list. -/
theorem mem_keys_group {key : V → K} {xs : List V} {k : K} :
    k ∈ (group key xs).keys ↔ ∃ x ∈ xs, key x = k := by
  rw [mem_keys_iff, get?_group]
  constructor
  · rintro ⟨part, hpart⟩
    by_contra hnone
    have hnil : xs.filter (fun x => decide (key x = k)) = [] := by
      rw [List.filter_eq_nil_iff]
      intro x hx hk
      exact hnone ⟨x, hx, of_decide_eq_true hk⟩
    rw [if_pos hnil] at hpart
    exact nomatch hpart
  · rintro ⟨x, hx, hk⟩
    have hmem : x ∈ xs.filter fun x => decide (key x = k) :=
      List.mem_filter.mpr ⟨hx, decide_eq_true hk⟩
    exact ⟨_, if_neg (List.ne_nil_of_mem hmem)⟩

/-- An entry of a grouping is a key with the part of the list that has it. -/
theorem entries_group (key : V → K) (xs : List V) :
    (group key xs).entries
      = (group key xs).keys.map fun k => (k, xs.filter fun x => decide (key x = k)) := by
  unfold keys
  rw [List.map_map]
  conv_lhs => rw [← List.map_id (group key xs).entries]
  apply List.map_congr_left
  rintro ⟨k, part⟩ hmem
  show (k, part) = (k, xs.filter fun x => decide (key x = k))
  rw [(group_ne_nil hmem).1]

/-- The groups have as many members as the list. -/
theorem sum_length_group (key : V → K) (xs : List V) :
    ((group key xs).entries.map fun e => e.2.length).sum = xs.length := by
  -- The keys of the groups are the distinct keys of the list, each with its count.
  have hkeys : (group key xs).keys.Perm (xs.map key).dedup := by
    apply (List.perm_ext_iff_of_nodup (group key xs).nodup (List.nodup_dedup _)).mpr
    intro k
    show k ∈ (group key xs).keys ↔ k ∈ (xs.map key).dedup
    rw [mem_keys_group, List.mem_dedup, List.mem_map]
  have hcount : ∀ k, (xs.filter fun x => decide (key x = k)).length = (xs.map key).count k := by
    intro k
    rw [List.count, List.countP_map, List.countP_eq_length_filter]
    rfl
  rw [entries_group, List.map_map]
  calc ((group key xs).keys.map fun k => (xs.filter fun x => decide (key x = k)).length).sum
      = ((group key xs).keys.map fun k => (xs.map key).count k).sum := by simp only [hcount]
    _ = ((xs.map key).dedup.map fun k => (xs.map key).count k).sum := (hkeys.map _).sum_eq
    _ = xs.length := by rw [List.sum_map_count_dedup_eq_length, List.length_map]

/-- The set of a key is the image of the part of the list with that key, absent when there is
none. -/
theorem get?_collect [DecidableEq W] (key : V → K) (f : V → W) (xs : List V) (k : K) :
    (collect key f xs).get? k
      = if xs.filter (fun x => decide (key x = k)) = [] then none
        else some ((xs.filter fun x => decide (key x = k)).map f).toFinset := by
  have hfold : ∀ (xs : List V) (d : Dict K (Finset W)),
      (xs.foldl (fun d x => d.addTo (key x) (f x)) d).get? k
        = if xs.filter (fun x => decide (key x = k)) = [] then d.get? k
          else some ((d.get? k).getD ∅ ∪
            ((xs.filter fun x => decide (key x = k)).map f).toFinset) := by
    intro xs
    induction xs with
    | nil =>
        intro d
        simp
    | cons x xs ih =>
        intro d
        rw [List.foldl_cons, ih, addTo, get?_insert]
        by_cases hx : key x = k
        · rw [if_pos hx.symm, List.filter_cons_of_pos (by simpa using hx), hx]
          -- The new value opens the set or joins it; the rest follows either way.
          generalize xs.filter (fun x => decide (key x = k)) = rest
          cases rest with
          | nil => simp
          | cons y rest => simp [Finset.insert_comm]
        · rw [if_neg (Ne.symm hx), List.filter_cons_of_neg (by simpa using hx)]
  unfold collect
  rw [hfold]
  simp [get?, empty]

/-- The keys of the sets are the keys of the list. -/
theorem mem_keys_collect [DecidableEq W] {key : V → K} {f : V → W} {xs : List V} {k : K} :
    k ∈ (collect key f xs).keys ↔ ∃ x ∈ xs, key x = k := by
  rw [← mem_keys_group, mem_keys_iff, mem_keys_iff, get?_collect, get?_group]
  split
  · simp
  · simp

end Dict

namespace Sorting

variable {α β : Type} [LinearOrder α]

/-- `xs.sort(key=key)`: a stable sort. -/
def sortedOn (key : β → α) (xs : List β) : List β := xs.insertionSort fun a b => key a ≤ key b

/-- The result is a permutation of the input. -/
theorem sortedOn_perm (key : β → α) (xs : List β) : (sortedOn key xs).Perm xs :=
  List.perm_insertionSort _ xs

/-- The keys are ordered. -/
theorem sortedOn_pairwise (key : β → α) (xs : List β) :
    (sortedOn key xs).Pairwise fun a b => key a ≤ key b := by
  have : Std.Total fun a b => key a ≤ key b := ⟨fun a b => le_total (key a) (key b)⟩
  have : IsTrans β fun a b => key a ≤ key b := ⟨fun _ _ _ => le_trans⟩
  exact List.pairwise_insertionSort _ xs

/-- Distinct keys are strictly ordered. -/
theorem sortedOn_pairwise_lt {key : β → α} {xs : List β} (h : (xs.map key).Nodup) :
    (sortedOn key xs).Pairwise fun a b => key a < key b := by
  have hnodup : ((sortedOn key xs).map key).Nodup :=
    ((sortedOn_perm key xs).map key).nodup_iff.mpr h
  have hne : (sortedOn key xs).Pairwise fun a b => key a ≠ key b := List.pairwise_map.mp hnodup
  exact (sortedOn_pairwise key xs).imp₂ (fun _ _ => lt_of_le_of_ne) hne

/-- A map that keeps the keys commutes with the sort by them. -/
theorem sortedOn_map {γ : Type} {key : β → α} {key' : γ → α} {f : β → γ}
    (h : ∀ x, key' (f x) = key x) (xs : List β) :
    sortedOn key' (xs.map f) = (sortedOn key xs).map f := by
  unfold sortedOn
  exact (List.map_insertionSort _ _ f xs fun a _ b _ => by rw [h a, h b]).symm

/-- The keys after the sort are the sorted keys. -/
theorem map_sortedOn (key : β → α) (xs : List β) :
    (sortedOn key xs).map key = sorted (xs.map key) :=
  (sorted_eq_of_perm ((sortedOn_perm key xs).symm.map key)
    (List.pairwise_map.mpr (sortedOn_pairwise key xs))).symm

/-- Two lists of pairs with distinct keys, of one length, in which each pair has its key on the
other side with a related value, agree one by one once they are sorted. -/
theorem forall₂_sortedOn_fst {V W : Type} {R : V → W → Prop} {xs : List (α × V)}
    {ys : List (α × W)} (hx : (xs.map Prod.fst).Nodup) (hy : (ys.map Prod.fst).Nodup)
    (hlen : xs.length = ys.length) (h : ∀ p ∈ xs, ∃ w, (p.1, w) ∈ ys ∧ R p.2 w) :
    List.Forall₂ (fun p q => p.1 = q.1 ∧ R p.2 q.2) (sortedOn Prod.fst xs)
      (sortedOn Prod.fst ys) := by
  -- The keys are the same, so the sorted keys are.
  have hsubset : xs.map Prod.fst ⊆ ys.map Prod.fst := by
    intro k hk
    obtain ⟨p, hp, rfl⟩ := List.mem_map.mp hk
    obtain ⟨w, hw, _⟩ := h p hp
    exact List.mem_map.mpr ⟨_, hw, rfl⟩
  have hkeys : (xs.map Prod.fst).Perm (ys.map Prod.fst) :=
    (List.subperm_of_subset hx hsubset).perm_of_length_le (by simp [hlen])
  have hsorted : (sortedOn Prod.fst xs).map Prod.fst = (sortedOn Prod.fst ys).map Prod.fst := by
    rw [map_sortedOn, map_sortedOn, sorted_congr hkeys]
  have hfst : List.Forall₂ (fun p q => p.1 = q.1) (sortedOn Prod.fst xs)
      (sortedOn Prod.fst ys) := by
    rw [← List.forall₂_eq_eq_eq, List.forall₂_map_left_iff, List.forall₂_map_right_iff] at hsorted
    exact hsorted
  have hleft := ListRules.forall₂_and_mem hfst
  have hright := (ListRules.forall₂_and_mem hleft.flip).flip
  refine hright.imp fun p q hpq => ?_
  obtain ⟨hq, hp, hkey⟩ := hpq
  -- A key has one value on the other side, so the related value is the one in its place.
  obtain ⟨w, hw, hR⟩ := h p ((sortedOn_perm _ _).mem_iff.mp hp)
  have hsame : (p.1, w) = q :=
    List.inj_on_of_nodup_map hy hw ((sortedOn_perm _ _).mem_iff.mp hq) hkey
  exact ⟨hkey, hsame ▸ hR⟩

/-- Two lists of pairs with distinct keys agree one by one once they are sorted, exactly when they
have the same keys with related values. -/
theorem forall₂_sortedOn_fst_iff {V W : Type} {R : V → W → Prop} {xs : List (α × V)}
    {ys : List (α × W)} (hx : (xs.map Prod.fst).Nodup) (hy : (ys.map Prod.fst).Nodup) :
    List.Forall₂ (fun p q => p.1 = q.1 ∧ R p.2 q.2) (sortedOn Prod.fst xs)
        (sortedOn Prod.fst ys) ↔
      (∀ k, k ∈ xs.map Prod.fst ↔ k ∈ ys.map Prod.fst) ∧
        ∀ k v w, (k, v) ∈ xs → (k, w) ∈ ys → R v w := by
  constructor
  · intro h
    have hpairs : ∀ p ∈ xs, ∃ q ∈ ys, p.1 = q.1 ∧ R p.2 q.2 := by
      intro p hp
      obtain ⟨q, hq, hpq⟩ :=
        ListRules.exists_of_forall₂_of_mem h ((sortedOn_perm _ _).mem_iff.mpr hp)
      exact ⟨q, (sortedOn_perm _ _).mem_iff.mp hq, hpq⟩
    have hsorted : (sortedOn Prod.fst xs).map Prod.fst = (sortedOn Prod.fst ys).map Prod.fst := by
      rw [← List.forall₂_eq_eq_eq, List.forall₂_map_left_iff, List.forall₂_map_right_iff]
      exact h.imp fun _ _ hpq => hpq.1
    have hxs := (sortedOn_perm Prod.fst xs).map Prod.fst
    rw [hsorted] at hxs
    have hkeys := hxs.symm.trans ((sortedOn_perm Prod.fst ys).map Prod.fst)
    refine ⟨fun k => hkeys.mem_iff, fun k v w hv hw => ?_⟩
    -- A key has one value on the other side.
    obtain ⟨q, hq, hkey, hR⟩ := hpairs (k, v) hv
    have hsame : q = (k, w) := List.inj_on_of_nodup_map hy hq hw hkey.symm
    rw [hsame] at hR
    exact hR
  · rintro ⟨hkeys, hvalues⟩
    have hperm : (xs.map Prod.fst).Perm (ys.map Prod.fst) :=
      (List.perm_ext_iff_of_nodup hx hy).mpr hkeys
    refine forall₂_sortedOn_fst hx hy (by simpa using hperm.length_eq) fun p hp => ?_
    obtain ⟨q, hq, hkey⟩ := List.mem_map.mp ((hkeys p.1).mp (List.mem_map_of_mem hp))
    exact ⟨q.2, hkey ▸ hq, hvalues p.1 p.2 q.2 hp (hkey ▸ hq)⟩

end Sorting

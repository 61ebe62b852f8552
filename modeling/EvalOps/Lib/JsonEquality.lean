import EvalOps.Lib.Grouping
import EvalOps.Lib.Json

/-!
# `EvalOps.Lib.JsonEquality`: equal JSON values

`Json.same a b`: the two values are the same up to the order of the keys of objects. Numbers are
compared by value, whatever their type, and values of different JSON types are different.

* `Json.induction`: a property of all values, by their items and fields.
* `Json.WellFormed`: every object has distinct keys.
* `Json.Facing`: the corresponding places of two values.
* `Json.same_iff_everywhere`: two values are the same exactly when they agree at all corresponding
  places in their types and in their content.
-/

set_option autoImplicit false

namespace Json

/-- A property of the leaves that passes from the items and the fields to the containers holds of
every value. -/
theorem induction {P : Json → Prop} (null : P null) (bool : ∀ b, P (bool b))
    (int : ∀ n, P (int n)) (float : ∀ x, P (float x)) (str : ∀ s, P (str s))
    (arr : ∀ items, (∀ x ∈ items, P x) → P (arr items))
    (obj : ∀ fields, (∀ p ∈ fields, P p.2) → P (obj fields)) (a : Json) : P a :=
  @Json.rec P (fun items => ∀ x ∈ items, P x) (fun fields => ∀ p ∈ fields, P p.2)
    (fun p => P p.2) null bool int float str arr obj
    (fun _ hx => absurd hx List.not_mem_nil)
    (fun _ _ hhead htail => List.forall_mem_cons.mpr ⟨hhead, htail⟩)
    (fun _ hp => absurd hp List.not_mem_nil)
    (fun _ _ hhead htail => List.forall_mem_cons.mpr ⟨hhead, htail⟩)
    (fun _ _ hvalue => hvalue) a

/-! ### Well-formed values -/

mutual

/-- Every object has distinct keys, at every level. -/
def WellFormed : Json → Prop
  | arr items => ItemsWellFormed items
  | obj fields => (fields.map Prod.fst).Nodup ∧ FieldsWellFormed fields
  | _ => True

/-- Every item is well formed. -/
def ItemsWellFormed : List Json → Prop
  | [] => True
  | item :: items => WellFormed item ∧ ItemsWellFormed items

/-- Every field value is well formed. -/
def FieldsWellFormed : List (String × Json) → Prop
  | [] => True
  | (_, value) :: fields => WellFormed value ∧ FieldsWellFormed fields

end

theorem wellFormed_arr_iff {items : List Json} :
    (arr items).WellFormed ↔ ∀ x ∈ items, x.WellFormed := by
  show ItemsWellFormed items ↔ _
  induction items with
  | nil => simp [ItemsWellFormed]
  | cons item items ih => simp [ItemsWellFormed, ih]

theorem wellFormed_obj_iff {fields : List (String × Json)} :
    (obj fields).WellFormed ↔
      (fields.map Prod.fst).Nodup ∧ ∀ p ∈ fields, p.2.WellFormed := by
  have hfields : FieldsWellFormed fields ↔ ∀ p ∈ fields, p.2.WellFormed := by
    induction fields with
    | nil => simp [FieldsWellFormed]
    | cons field fields ih =>
        rw [FieldsWellFormed, ih, List.forall_mem_cons]
  rw [WellFormed, hfields]

/-! ### The same value -/

mutual

/-- The values are the same up to the order of keys. Numbers are compared by value. -/
def same : Json → Json → Bool
  | null, null => true
  | bool b, bool c => decide (b = c)
  | int m, int n => decide (m = n)
  | int m, float y => decide ((m : ℚ) = y)
  | float x, int n => decide (x = n)
  | float x, float y => decide (x = y)
  | str s, str t => decide (s = t)
  | arr xs, arr ys => sameItems xs ys
  | obj fields, obj others => decide (fields.length = others.length) && sameFields fields others
  | _, _ => false

/-- The items are the same, one by one. -/
def sameItems : List Json → List Json → Bool
  | [], [] => true
  | x :: xs, y :: ys => same x y && sameItems xs ys
  | _, _ => false

/-- Each field has a field of the other object with its key and the same value. -/
def sameFields : List (String × Json) → List (String × Json) → Bool
  | [], _ => true
  | (key, value) :: fields, others =>
      (others.any fun p => decide (p.1 = key) && same value p.2) && sameFields fields others

end

theorem sameItems_iff {xs ys : List Json} :
    sameItems xs ys = true ↔ List.Forall₂ (fun x y => x.same y = true) xs ys := by
  induction xs generalizing ys with
  | nil => cases ys <;> simp [sameItems]
  | cons x xs ih => cases ys <;> simp [sameItems, ih]

theorem sameFields_iff {fields others : List (String × Json)} :
    sameFields fields others = true ↔
      ∀ p ∈ fields, ∃ v, (p.1, v) ∈ others ∧ p.2.same v = true := by
  have hany : ∀ p : String × Json,
      (others.any fun q => decide (q.1 = p.1) && p.2.same q.2) = true ↔
        ∃ v, (p.1, v) ∈ others ∧ p.2.same v = true := by
    intro p
    rw [List.any_eq_true]
    constructor
    · rintro ⟨⟨key, v⟩, hmem, hq⟩
      rw [Bool.and_eq_true, decide_eq_true_iff] at hq
      exact ⟨v, hq.1 ▸ hmem, hq.2⟩
    · rintro ⟨v, hmem, hv⟩
      exact ⟨(p.1, v), hmem, by simp [hv]⟩
  induction fields with
  | nil => simp [sameFields]
  | cons field fields ih =>
      rw [sameFields, Bool.and_eq_true, hany field, List.forall_mem_cons]
      exact and_congr_right fun _ => ih

/-- Two arrays are the same when their items are, one by one. -/
theorem same_arr_iff {xs ys : List Json} :
    (arr xs).same (arr ys) = true ↔ List.Forall₂ (fun x y => x.same y = true) xs ys := by
  rw [same, sameItems_iff]

/-- Two objects are the same when their fields are, one by one in key order. -/
theorem same_obj_iff {fields others : List (String × Json)} (hf : (fields.map Prod.fst).Nodup)
    (ho : (others.map Prod.fst).Nodup) :
    (obj fields).same (obj others) = true ↔
      List.Forall₂ (fun p q => p.1 = q.1 ∧ p.2.same q.2 = true)
        (Sorting.sortedOn Prod.fst fields) (Sorting.sortedOn Prod.fst others) := by
  rw [same, Bool.and_eq_true, decide_eq_true_iff, sameFields_iff]
  constructor
  · rintro ⟨hlength, hfields⟩
    exact Sorting.forall₂_sortedOn_fst (R := fun v w => v.same w = true) hf ho hlength hfields
  · intro h
    have hlength := h.length_eq
    rw [(Sorting.sortedOn_perm _ _).length_eq, (Sorting.sortedOn_perm _ _).length_eq] at hlength
    refine ⟨hlength, fun p hp => ?_⟩
    obtain ⟨q, hq, hkey, hvalue⟩ :=
      ListRules.exists_of_forall₂_of_mem h ((Sorting.sortedOn_perm _ _).mem_iff.mpr hp)
    exact ⟨q.2, hkey ▸ (Sorting.sortedOn_perm _ _).mem_iff.mp hq, hvalue⟩

/-! ### Corresponding places -/

/-- The array that an object can be read as: its `[key, value]` arrays in key order. -/
def asArray (fields : List (String × Json)) : List Json :=
  (Sorting.sortedOn Prod.fst fields).map fun p => arr [str p.1, p.2]

/-- `x` and `y` stand at corresponding places of two values: at the same index of two arrays or
under the same key of two objects, and so on inwards. An object opposite an array is read as the
array of its pairs. -/
inductive Facing : Json → Json → Json → Json → Prop
  | here (a b : Json) : Facing a b a b
  | item {xs ys : List Json} {i : ℕ} {v w x y : Json} (hv : xs[i]? = some v)
      (hw : ys[i]? = some w) (h : Facing v w x y) : Facing (arr xs) (arr ys) x y
  | field {fields others : List (String × Json)} {key : String} {v w x y : Json}
      (hv : (key, v) ∈ fields) (hw : (key, w) ∈ others) (h : Facing v w x y) :
      Facing (obj fields) (obj others) x y
  | objArr {fields : List (String × Json)} {ys : List Json} {x y : Json}
      (h : Facing (arr (asArray fields)) (arr ys) x y) : Facing (obj fields) (arr ys) x y
  | arrObj {xs : List Json} {fields : List (String × Json)} {x y : Json}
      (h : Facing (arr xs) (arr (asArray fields)) x y) : Facing (arr xs) (obj fields) x y

/-- The value of a leaf, whatever its type. -/
inductive Scalar
  | null
  | number (x : ℚ)
  | text (s : String)

/-- The value of a leaf. A boolean is read as `0` or `1`. -/
def scalar? : Json → Option Scalar
  | null => some .null
  | bool b => some (.number (if b then 1 else 0))
  | int n => some (.number n)
  | float x => some (.number x)
  | str s => some (.text s)
  | arr _ => none
  | obj _ => none

/-- One value is a boolean and the other is a number, or one is an object and the other is an
array. -/
def TypesClash : Json → Json → Prop
  | bool _, int _ => True
  | bool _, float _ => True
  | int _, bool _ => True
  | float _, bool _ => True
  | obj _, arr _ => True
  | arr _, obj _ => True
  | _, _ => False

/-- At their outermost level the values agree in all but their types: arrays in their lengths,
objects in their keys, leaves in their value. -/
def Alike : Json → Json → Prop
  | arr xs, arr ys => xs.length = ys.length
  | obj fields, obj others => ∀ key, key ∈ fields.map Prod.fst ↔ key ∈ others.map Prod.fst
  | a, b => a.scalar? = b.scalar?

/-- A relation holds at all corresponding places of two values. -/
def Everywhere (P : Json → Json → Prop) (a b : Json) : Prop := ∀ x y, Facing a b x y → P x y

section

variable {P : Json → Json → Prop}

/-- A leaf has no inner places. -/
theorem everywhere_leaf {a b : Json} (h : a.scalar? ≠ none ∨ b.scalar? ≠ none) :
    Everywhere P a b ↔ P a b := by
  constructor
  · intro hall
    exact hall a b (.here a b)
  · intro hP x y hxy
    cases hxy with
    | here => exact hP
    | _ => simp [scalar?] at h

theorem everywhere_obj_arr {fields : List (String × Json)} {ys : List Json} :
    Everywhere P (obj fields) (arr ys) ↔
      P (obj fields) (arr ys) ∧ Everywhere P (arr (asArray fields)) (arr ys) := by
  constructor
  · intro hall
    exact ⟨hall _ _ (.here _ _), fun x y hxy => hall x y (.objArr hxy)⟩
  · rintro ⟨hP, hinner⟩ x y hxy
    cases hxy with
    | here => exact hP
    | objArr h => exact hinner x y h

theorem everywhere_arr_obj {xs : List Json} {fields : List (String × Json)} :
    Everywhere P (arr xs) (obj fields) ↔
      P (arr xs) (obj fields) ∧ Everywhere P (arr xs) (arr (asArray fields)) := by
  constructor
  · intro hall
    exact ⟨hall _ _ (.here _ _), fun x y hxy => hall x y (.arrObj hxy)⟩
  · rintro ⟨hP, hinner⟩ x y hxy
    cases hxy with
    | here => exact hP
    | arrObj h => exact hinner x y h

/-- A relation that compares arrays by their lengths holds everywhere in two arrays when it holds
everywhere in their items, one by one. -/
theorem everywhere_arr_iff {xs ys : List Json} (hP : P (arr xs) (arr ys) ↔ xs.length = ys.length) :
    Everywhere P (arr xs) (arr ys) ↔ List.Forall₂ (Everywhere P) xs ys := by
  rw [List.forall₂_iff_get]
  constructor
  · intro hall
    refine ⟨hP.mp (hall _ _ (.here _ _)), fun i hx hy x y hxy => hall x y ?_⟩
    exact .item (List.getElem?_eq_getElem hx) (List.getElem?_eq_getElem hy) hxy
  · rintro ⟨hlength, hitems⟩ x y hxy
    cases hxy with
    | here => exact hP.mpr hlength
    | item hv hw h =>
        obtain ⟨hx, rfl⟩ := List.getElem?_eq_some_iff.mp hv
        obtain ⟨hy, rfl⟩ := List.getElem?_eq_some_iff.mp hw
        exact hitems _ hx hy x y h

/-- A relation that compares objects by their keys holds everywhere in two objects when it holds
everywhere in their fields, one by one in key order. -/
theorem everywhere_obj_iff {fields others : List (String × Json)}
    (hf : (fields.map Prod.fst).Nodup) (ho : (others.map Prod.fst).Nodup)
    (hP : P (obj fields) (obj others) ↔
      ∀ key, key ∈ fields.map Prod.fst ↔ key ∈ others.map Prod.fst) :
    Everywhere P (obj fields) (obj others) ↔
      List.Forall₂ (fun p q => p.1 = q.1 ∧ Everywhere P p.2 q.2)
        (Sorting.sortedOn Prod.fst fields) (Sorting.sortedOn Prod.fst others) := by
  rw [Sorting.forall₂_sortedOn_fst_iff hf ho, ← hP]
  constructor
  · intro hall
    exact ⟨hall _ _ (.here _ _), fun _ _ _ hv hw x y hxy => hall x y (.field hv hw hxy)⟩
  · rintro ⟨hkeys, hfields⟩ x y hxy
    cases hxy with
    | here => exact hkeys
    | field hv hw h => exact hfields _ _ _ hv hw x y h

end

/-- The values agree at their outermost level, and neither type is taken for the other. -/
def AlikeTyped (a b : Json) : Prop := Alike a b ∧ ¬TypesClash a b

/-- What `same` says of a value is told by the corresponding places. -/
def SameTells (a : Json) : Prop :=
  a.WellFormed → ∀ b, b.WellFormed → (a.same b = true ↔ Everywhere AlikeTyped a b)

/-- A leaf is the same as a leaf of its type with its value. -/
theorem sameTells_leaf {a : Json} (h : a.scalar? ≠ none)
    (hsame : ∀ b, a.same b = true ↔ AlikeTyped a b) : SameTells a := by
  intro _ b _
  rw [hsame, everywhere_leaf (.inl h)]

/-- Two values are the same exactly when they agree at all corresponding places, in their types and
in their content. -/
theorem same_iff_everywhere (a : Json) : SameTells a := by
  induction a using Json.induction with
  | null =>
      refine sameTells_leaf (by simp [scalar?]) fun b => ?_
      cases b <;> simp [same, AlikeTyped, Alike, TypesClash, scalar?]
  | bool c =>
      refine sameTells_leaf (by simp [scalar?]) fun b => ?_
      cases b with
      | bool d => cases c <;> cases d <;> simp [same, AlikeTyped, Alike, TypesClash, scalar?]
      | _ => simp [same, AlikeTyped, Alike, TypesClash, scalar?]
  | int n =>
      refine sameTells_leaf (by simp [scalar?]) fun b => ?_
      cases b <;> simp [same, AlikeTyped, Alike, TypesClash, scalar?]
  | float x =>
      refine sameTells_leaf (by simp [scalar?]) fun b => ?_
      cases b <;> simp [same, AlikeTyped, Alike, TypesClash, scalar?]
  | str s =>
      refine sameTells_leaf (by simp [scalar?]) fun b => ?_
      cases b <;> simp [same, AlikeTyped, Alike, TypesClash, scalar?]
  | arr xs ih =>
      intro ha b hb
      rw [wellFormed_arr_iff] at ha
      cases b with
      | arr ys =>
          rw [wellFormed_arr_iff] at hb
          rw [same_arr_iff, everywhere_arr_iff (by simp [AlikeTyped, Alike, TypesClash])]
          exact ListRules.forall₂_congr fun x hx y hy => ih x hx (ha x hx) y (hb y hy)
      | obj fields => simp [same, everywhere_arr_obj, AlikeTyped, TypesClash]
      | _ => simp [same, everywhere_leaf, AlikeTyped, Alike, scalar?]
  | obj fields ih =>
      intro ha b hb
      rw [wellFormed_obj_iff] at ha
      cases b with
      | obj others =>
          rw [wellFormed_obj_iff] at hb
          rw [same_obj_iff ha.1 hb.1,
            everywhere_obj_iff ha.1 hb.1 (by simp [AlikeTyped, Alike, TypesClash])]
          refine ListRules.forall₂_congr fun p hp q hq => and_congr_right fun _ => ?_
          have hp' := (Sorting.sortedOn_perm _ _).mem_iff.mp hp
          have hq' := (Sorting.sortedOn_perm _ _).mem_iff.mp hq
          exact ih p hp' (ha.2 p hp') q.2 (hb.2 q hq')
      | arr ys => simp [same, everywhere_obj_arr, AlikeTyped, TypesClash]
      | _ => simp [same, everywhere_leaf, AlikeTyped, Alike, scalar?]

end Json

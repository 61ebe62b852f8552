import EvalOps.Lib.Occurrences
import EvalOps.Lib.Regex

/-!
# `EvalOps.Lib.Substitution`: replacing the matches of a regular expression

A `Regex.Rule` is an expression, perhaps behind a word boundary, with what its match becomes.
`Regex.Rule.sub` replaces the matches in a text from left to right, as Python's `re.sub` does. What
a substitution does is a `Scan`: it keeps a character where nothing matches, and replaces a match.

* `Regex.Rule.sub_append_cons`: a character that no match contains cuts the text in two.
* `Regex.Rule.silent_sub`, `Regex.Rule.silent_sub_self`: a substitution that only masks the ends of
  its matches makes no new match, of another rule or of its own.
* `Regex.Rule.infix_of_infix_sub`: a substitution whose masks have no character of a text shows
  this text only where it stood before.

Matches of the empty text are left out.
-/

set_option autoImplicit false

namespace Regex

/-- A word starts or ends between two characters, or at an end of the text. -/
def wordBoundary (isWord : Char → Bool) (before after : Option Char) : Bool :=
  before.any isWord != after.any isWord

/-- The character in front of what is left, once a text is read. -/
def lastOf (before : Option Char) (text : List Char) : Option Char := text.getLast?.or before

/-- A substitution: an expression, perhaps behind a word boundary, and what its match becomes. -/
structure Rule where
  wordStart : Bool
  body : Regex
  replacement : List (List Char) → List Char

namespace Rule

variable (isWord : Char → Bool) (rule : Rule)

/-- The match at the front of a text, after a character. -/
def hit (before : Option Char) (cs : List Char) : Option Hit :=
  if rule.wordStart && !wordBoundary isWord before cs.head? then none
  else (rule.body.hits cs).head?

/-- Replaces the matches in a text after a character, once some characters are skipped. -/
def subFrom : (skip : ℕ) → (before : Option Char) → List Char → List Char
  | _, _, [] => []
  | skip + 1, _, c :: cs => subFrom skip (some c) cs
  | 0, before, c :: cs =>
      match rule.hit isWord before (c :: cs) with
      | some h => rule.replacement h.groups ++ subFrom (h.text.length - 1) (some c) cs
      | none => c :: subFrom 0 (some c) cs

/-- Replaces the matches in a text after a character. -/
def sub (before : Option Char) (cs : List Char) : List Char := rule.subFrom isWord 0 before cs

/-- The expression does not match the empty text. -/
def Proper : Prop := ¬Denotes rule.body []

variable {isWord rule} {before : Option Char}

@[simp] theorem lastOf_nil : lastOf before [] = before := rfl

@[simp] theorem lastOf_cons (c : Char) (t : List Char) :
    lastOf before (c :: t) = lastOf (some c) t := by
  unfold lastOf
  rw [List.getLast?_cons]
  cases t.getLast? <;> rfl

theorem lastOf_append (u v : List Char) :
    lastOf before (u ++ v) = lastOf (lastOf before u) v := by
  induction u generalizing before with
  | nil => rfl
  | cons c u ih => rw [List.cons_append, lastOf_cons, lastOf_cons, ih]

/-- A substitution asks only about the characters of the text whether they are in a word. -/
theorem subFrom_congr {isWord' : Char → Bool} {cs : List Char} {skip : ℕ}
    (hbefore : before.any isWord = before.any isWord') (h : ∀ c ∈ cs, isWord c = isWord' c) :
    rule.subFrom isWord skip before cs = rule.subFrom isWord' skip before cs := by
  induction cs generalizing skip before with
  | nil => rfl
  | cons c cs ih =>
      have hc : (some c).any isWord = (some c).any isWord' := h c List.mem_cons_self
      have hrest (skip : ℕ) :
          rule.subFrom isWord skip (some c) cs = rule.subFrom isWord' skip (some c) cs :=
        ih hc fun d hd => h d (List.mem_cons_of_mem c hd)
      have hhit : rule.hit isWord before (c :: cs) = rule.hit isWord' before (c :: cs) := by
        unfold hit wordBoundary
        rw [hbefore, List.head?_cons, hc]
      cases skip with
      | zero =>
          unfold subFrom
          rw [hhit]
          split
          · rw [hrest]
          · rw [hrest]
      | succ skip =>
          unfold subFrom
          exact hrest skip

/-! ### Matches -/

variable (isWord rule) in
/-- The rule matches a text at the front of another one. -/
structure Fits (before : Option Char) (cs t : List Char) : Prop where
  front : t <+: cs
  denotes : Denotes rule.body t
  boundary : rule.wordStart = true → wordBoundary isWord before t.head? = true

theorem Fits.ne_nil (hproper : rule.Proper) {cs t : List Char}
    (h : rule.Fits isWord before cs t) : t ≠ [] := by
  rintro rfl
  exact hproper h.denotes

theorem head?_of_front {t cs : List Char} (h : t <+: cs) (ht : t ≠ []) : cs.head? = t.head? := by
  obtain ⟨rest, rfl⟩ := h
  rw [List.head?_append_of_ne_nil _ ht]

/-- What is found is the first match of the expression. -/
theorem head?_hits_of_hit {cs : List Char} {h : Hit} (hh : rule.hit isWord before cs = some h) :
    (rule.body.hits cs).head? = some h := by
  unfold hit at hh
  split at hh
  · cases hh
  · exact hh

/-- A match that ends in a repetition goes on as far as the repetition can. -/
theorem stops_of_hit {front : Regex} {least : ℕ} {p : Char → Bool}
    (hbody : rule.body = seq front (many least p)) {h : Hit} {rest : List Char}
    (hh : rule.hit isWord before (h.text ++ rest) = some h) : ∀ c ∈ rest.head?, p c = false := by
  have hhits := head?_hits_of_hit hh
  rw [hbody] at hhits
  exact stops_of_head?_hits hhits

theorem fits_of_hit (hproper : rule.Proper) {cs : List Char} {h : Hit}
    (hh : rule.hit isWord before cs = some h) : rule.Fits isWord before cs h.text := by
  have hmem := List.mem_of_head? (head?_hits_of_hit hh)
  obtain ⟨hfront, hdenotes⟩ := (exists_hit_iff rule.body cs h.text).mp ⟨h, hmem, rfl⟩
  unfold hit at hh
  split at hh
  · cases hh
  · rename_i hboundary
    have hne : h.text ≠ [] := by
      intro hnil
      exact hproper (hnil ▸ hdenotes)
    refine ⟨hfront, hdenotes, fun hstart => ?_⟩
    rw [← head?_of_front hfront hne]
    simpa [hstart] using hboundary

/-- Nothing is found exactly when nothing fits. -/
theorem hit_eq_none_iff (hproper : rule.Proper) {cs : List Char} :
    rule.hit isWord before cs = none ↔ ∀ t, ¬rule.Fits isWord before cs t := by
  constructor
  · intro hnone t ht
    obtain ⟨h, hmem, rfl⟩ := (exists_hit_iff rule.body cs t).mpr ⟨ht.front, ht.denotes⟩
    unfold hit at hnone
    rw [head?_of_front ht.front (ht.ne_nil hproper)] at hnone
    cases hstart : rule.wordStart with
    | false =>
        rw [hstart, Bool.false_and, if_neg Bool.false_ne_true, List.head?_eq_none_iff] at hnone
        rw [hnone] at hmem
        exact List.not_mem_nil hmem
    | true =>
        rw [hstart, ht.boundary hstart, Bool.not_true, Bool.and_false,
          if_neg Bool.false_ne_true, List.head?_eq_none_iff] at hnone
        rw [hnone] at hmem
        exact List.not_mem_nil hmem
  · intro hnone
    cases hh : rule.hit isWord before cs with
    | none => rfl
    | some h => exact absurd (fits_of_hit hproper hh) (hnone h.text)

/-! ### What a substitution does -/

variable (isWord rule) in
/-- A substitution keeps a character where nothing matches, and replaces a match. -/
inductive Scan : Option Char → List Char → List Char → Prop
  | nil (before : Option Char) : Scan before [] []
  | keep {before : Option Char} {c : Char} {xs ys : List Char} :
      rule.hit isWord before (c :: xs) = none → Scan (some c) xs ys →
        Scan before (c :: xs) (c :: ys)
  | mask {before : Option Char} {h : Hit} {xs ys : List Char} :
      rule.hit isWord before (h.text ++ xs) = some h → Scan (lastOf before h.text) xs ys →
        Scan before (h.text ++ xs) (rule.replacement h.groups ++ ys)

theorem subFrom_length (t : List Char) (rest : List Char) :
    rule.subFrom isWord t.length before (t ++ rest)
      = rule.sub isWord (lastOf before t) rest := by
  induction t generalizing before with
  | nil => rfl
  | cons c t ih =>
      rw [lastOf_cons, ← ih]
      rfl

theorem sub_of_hit (hproper : rule.Proper) {h : Hit} {rest : List Char}
    (hh : rule.hit isWord before (h.text ++ rest) = some h) :
    rule.sub isWord before (h.text ++ rest)
      = rule.replacement h.groups ++ rule.sub isWord (lastOf before h.text) rest := by
  cases htext : h.text with
  | nil => exact absurd htext ((fits_of_hit hproper hh).ne_nil hproper)
  | cons c t =>
      rw [htext] at hh
      rw [List.cons_append] at hh ⊢
      rw [sub, subFrom, hh, lastOf_cons, ← subFrom_length]
      show _ ++ rule.subFrom isWord (h.text.length - 1) (some c) (t ++ rest) = _
      rw [htext]
      rfl

theorem sub_of_hit_eq_none {c : Char} {cs : List Char}
    (hh : rule.hit isWord before (c :: cs) = none) :
    rule.sub isWord before (c :: cs) = c :: rule.sub isWord (some c) cs := by
  rw [sub, subFrom, hh]
  rfl

/-- A substitution scans its text. -/
theorem scan_sub (hproper : rule.Proper) (before : Option Char) (cs : List Char) :
    rule.Scan isWord before cs (rule.sub isWord before cs) := by
  generalize hn : cs.length = n
  induction n using Nat.strong_induction_on generalizing before cs with
  | _ n ih =>
      cases cs with
      | nil => exact Scan.nil before
      | cons c cs =>
          cases hh : rule.hit isWord before (c :: cs) with
          | none =>
              rw [sub_of_hit_eq_none hh]
              exact Scan.keep hh (ih cs.length (by rw [← hn, List.length_cons]; omega) _ _ rfl)
          | some h =>
              have hfits := fits_of_hit hproper hh
              obtain ⟨rest, hrest⟩ := hfits.front
              have hpos : 0 < h.text.length := List.length_pos_iff.mpr (hfits.ne_nil hproper)
              have hlength := congrArg List.length hrest
              rw [List.length_append, hn] at hlength
              rw [← hrest] at hh ⊢
              rw [sub_of_hit hproper hh]
              exact Scan.mask hh (ih rest.length (by omega) _ _ rfl)

/-- A character that no match contains cuts a text in two. -/
theorem sub_append_cons (hproper : rule.Proper) {d : Char} (hd : rule.body.Avoids d)
    (u v : List Char) : rule.sub isWord before (u ++ d :: v)
      = rule.sub isWord before u ++ d :: rule.sub isWord (some d) v := by
  have hscan : rule.Scan isWord before u (rule.sub isWord before u) := scan_sub hproper before u
  generalize rule.sub isWord before u = y at hscan
  induction hscan with
  | nil before =>
      refine sub_of_hit_eq_none ((hit_eq_none_iff hproper).mpr fun t ht => ?_)
      -- A match in front of `d` would begin with it.
      obtain ⟨c, t, rfl⟩ := List.exists_cons_of_ne_nil (ht.ne_nil hproper)
      have hc : c = d := (List.cons_prefix_cons.mp ht.front).1
      exact notMem_of_denotes hd ht.denotes (hc ▸ List.mem_cons_self)
  | @keep before c xs ys hh _ ih =>
      rw [List.cons_append, sub_of_hit_eq_none, ih]
      · rfl
      · rw [← hh]
        show rule.hit isWord before ((c :: xs) ++ d :: v) = _
        rw [hit, hit, hits_append_cons hd]
        rfl
  | @mask before h xs ys hh _ ih =>
      rw [List.append_assoc, sub_of_hit hproper, ih, List.append_assoc]
      have hne := (fits_of_hit hproper hh).ne_nil hproper
      rw [← hh, ← List.append_assoc, hit, hit, hits_append_cons hd,
        List.head?_append_of_ne_nil _ (List.append_ne_nil_of_left_ne_nil hne xs)]

/-- A text that ends with a character that no match contains is cut off from what follows. -/
theorem sub_append_of_last (hproper : rule.Proper) {xs : List Char}
    (hlast : ∀ d ∈ xs.getLast?, rule.body.Avoids d) (ys : List Char) :
    rule.sub isWord before (xs ++ ys)
      = rule.sub isWord before xs ++ rule.sub isWord (lastOf before xs) ys := by
  rcases List.eq_nil_or_concat xs with rfl | ⟨xs, d, rfl⟩
  · rfl
  · rw [List.concat_eq_append] at hlast ⊢
    have hd := hlast d List.getLast?_concat
    have hlastOf : lastOf before (xs ++ [d]) = some d := by
      unfold lastOf
      rw [List.getLast?_concat]
      rfl
    have hcut (zs : List Char) : rule.sub isWord before (xs ++ d :: zs)
        = rule.sub isWord before xs ++ d :: rule.sub isWord (some d) zs :=
      sub_append_cons hproper hd xs zs
    rw [List.append_assoc, List.singleton_append, hcut ys, hcut [], hlastOf, List.append_assoc]
    rfl

/-- A text that begins with a character that no match contains is cut off from what is in front. -/
theorem sub_append_of_first (hproper : rule.Proper) (xs : List Char) {ys : List Char}
    (hfirst : ∀ d ∈ ys.head?, rule.body.Avoids d) :
    rule.sub isWord before (xs ++ ys)
      = rule.sub isWord before xs ++ rule.sub isWord (lastOf before xs) ys := by
  cases ys with
  | nil =>
      rw [List.append_nil]
      exact (List.append_nil _).symm
  | cons d ys =>
      have hd := hfirst d rfl
      have hcut : rule.sub isWord (lastOf before xs) ([] ++ d :: ys)
          = d :: rule.sub isWord (some d) ys := sub_append_cons hproper hd [] ys
      rw [sub_append_cons hproper hd xs ys, ← List.nil_append (d :: ys), hcut]

/-! ### Texts without a match -/

variable (isWord rule) in
/-- The rule matches nowhere in a text after a character. -/
def Silent : Option Char → List Char → Prop
  | _, [] => True
  | before, c :: cs => (∀ t, ¬rule.Fits isWord before (c :: cs) t) ∧ Silent (some c) cs

/-- A substitution leaves a text without a match alone. -/
theorem sub_of_silent (hproper : rule.Proper) {cs : List Char}
    (h : rule.Silent isWord before cs) : rule.sub isWord before cs = cs := by
  induction cs generalizing before with
  | nil => rfl
  | cons c cs ih => rw [sub_of_hit_eq_none ((hit_eq_none_iff hproper).mpr h.1), ih h.2]

theorem Silent.of_append {u v : List Char} (h : rule.Silent isWord before (u ++ v)) :
    rule.Silent isWord before u ∧ rule.Silent isWord (lastOf before u) v := by
  induction u generalizing before with
  | nil => exact ⟨trivial, h⟩
  | cons c u ih =>
      obtain ⟨hu, hv⟩ := ih h.2
      refine ⟨⟨fun t ht => ?_, hu⟩, ?_⟩
      · exact h.1 t ⟨ht.front.trans (List.prefix_append (c :: u) v), ht.denotes, ht.boundary⟩
      · rw [lastOf_cons]
        exact hv

/-- A text that is shorter than every match has none. -/
theorem silent_of_short {cs : List Char}
    (h : ∀ t, rule.body.Denotes t → cs.length < t.length) : rule.Silent isWord before cs := by
  induction cs generalizing before with
  | nil => trivial
  | cons c cs ih =>
      refine ⟨fun t ht => ?_, ih fun t ht => ?_⟩
      · have hle := ht.front.length_le
        have hlt := h t ht.denotes
        omega
      · have hlt := h t ht
        rw [List.length_cons] at hlt
        omega

/-- What is in front of a text matters only when a match can begin with its first character. -/
theorem Silent.change_before (hproper : rule.Proper) {after : Option Char} {cs : List Char}
    (h : rule.Silent isWord before cs)
    (hstart : ∀ t, rule.body.Denotes t → t.head? ≠ cs.head?) : rule.Silent isWord after cs := by
  cases cs with
  | nil => trivial
  | cons c cs =>
      refine ⟨fun t ht => hstart t ht.denotes ?_, h.2⟩
      exact (head?_of_front ht.front (ht.ne_nil hproper)).symm

/-! ### Masks -/

variable (rule) in
/-- No match reaches into a mask. -/
def Opaque (mask : List Char) : Prop :=
  ∀ (u v rest t : List Char), v ≠ [] → v <:+ mask → rule.body.Denotes t →
    t <+: u ++ (v ++ rest) → t <+: u

theorem opaque_of_forall {mask : List Char} (h : ∀ c ∈ mask, rule.body.Avoids c) :
    rule.Opaque mask := by
  intro u v rest t hv hsuffix hdenotes hprefix
  obtain ⟨c, v, rfl⟩ := List.exists_cons_of_ne_nil hv
  have hc : c ∉ t := notMem_of_denotes (h c (hsuffix.mem List.mem_cons_self)) hdenotes
  rw [List.cons_append] at hprefix
  exact (Occurrences.prefix_append_cons_iff hc).mp hprefix

/-- A mask may begin with a character that no match ends with. -/
theorem opaque_cons {a : Char} {mask : List Char} (hne : mask ≠ []) (hmask : rule.Opaque mask)
    (hlast : ∀ t, rule.body.Denotes t → t.getLast? ≠ some a) : rule.Opaque (a :: mask) := by
  intro u v rest t hv hsuffix hdenotes hprefix
  rcases List.suffix_cons_iff.mp hsuffix with rfl | hsuffix
  · rw [List.cons_append, List.append_cons] at hprefix
    have hshort := hmask (u ++ [a]) mask rest t hne List.suffix_rfl hdenotes hprefix
    rcases List.prefix_concat_iff.mp hshort with rfl | hshort
    · exact absurd List.getLast?_concat (hlast _ hdenotes)
    · exact hshort
  · exact hmask u v rest t hv hsuffix hdenotes hprefix

/-- A mask makes no match. -/
theorem Silent.append_mask (hproper : rule.Proper) {k w rest : List Char}
    (hne : w ≠ []) (hw : rule.Opaque w) (hk : rule.Silent isWord before k)
    (hrest : rule.Silent isWord (lastOf before (k ++ w)) rest) :
    rule.Silent isWord before (k ++ (w ++ rest)) := by
  induction k generalizing before with
  | nil =>
      -- A match inside the mask would have to fit in front of it.
      rw [List.nil_append] at hrest ⊢
      suffices hsuffix : ∀ (v : List Char) (before : Option Char), v <:+ w →
          rule.Silent isWord (lastOf before v) rest → rule.Silent isWord before (v ++ rest) from
        hsuffix w before List.suffix_rfl hrest
      intro v
      induction v with
      | nil => exact fun _ _ h => h
      | cons c v ih =>
          intro before hv h
          refine ⟨fun t ht => ht.ne_nil hproper ?_, ?_⟩
          · exact List.prefix_nil.mp
              (hw [] (c :: v) rest t (List.cons_ne_nil c v) hv ht.denotes ht.front)
          · rw [lastOf_cons] at h
            exact ih (some c) ((List.suffix_cons c v).trans hv) h
  | cons c k ih =>
      refine ⟨fun t ht => ?_, ?_⟩
      · exact hk.1 t ⟨hw (c :: k) w rest t hne List.suffix_rfl ht.denotes ht.front,
          ht.denotes, ht.boundary⟩
      · refine ih hk.2 ?_
        rwa [List.cons_append, lastOf_cons] at hrest

variable (isWord) in
/-- A rule masks the ends of its matches from another rule: it keeps what the groups of a match
captured, which is the front of the match, its mask is opaque, and no match of the other rule begins
behind a match. -/
structure Masks (rule other : Rule) (mask : List Char) : Prop where
  cut : ∀ {before : Option Char} {cs : List Char} {h : Hit}, rule.hit isWord before cs = some h →
    rule.replacement h.groups = h.groups.flatten ++ mask ∧ h.groups.flatten ≠ [] ∧
      h.groups.flatten <+: h.text
  stop : ∀ {before : Option Char} {h : Hit} {rest t : List Char},
    rule.hit isWord before (h.text ++ rest) = some h → other.body.Denotes t →
      t.head? ≠ rest.head?
  hides : other.Opaque mask
  shows : mask ≠ []

variable {other : Rule} {mask : List Char}

/-- A masked text begins as the text does. -/
theorem Scan.head?_eq (hmasks : Masks isWord rule other mask) {xs ys : List Char}
    (h : rule.Scan isWord before xs ys) : ys.head? = xs.head? := by
  cases h with
  | nil => rfl
  | keep => rfl
  | @mask _ h xs ys hh _ =>
      obtain ⟨hreplace, hkept, hfront⟩ := hmasks.cut hh
      rw [hreplace, List.append_assoc, List.head?_append_of_ne_nil _ hkept,
        head?_of_front (hfront.trans (List.prefix_append _ xs)) hkept]

/-- A match of the other rule at the front of a masked text is one in the text. -/
theorem Scan.prefix_of_prefix (hmasks : Masks isWord rule other mask) {xs ys t : List Char}
    (h : rule.Scan isWord before xs ys) (ht : other.body.Denotes t) {u : List Char}
    (hu : t <+: u ++ ys) : t <+: u ++ xs := by
  induction h generalizing u with
  | nil => exact hu
  | keep _ _ ih =>
      rw [List.append_cons] at hu ⊢
      exact ih hu
  | @mask before h xs ys hh _ _ =>
      -- A match does not reach into the mask, and what is in front of the mask is in the text.
      obtain ⟨hreplace, _, hfront⟩ := hmasks.cut hh
      rw [hreplace, List.append_assoc, ← List.append_assoc] at hu
      have hkept : t <+: u ++ h.groups.flatten :=
        hmasks.hides _ mask ys t hmasks.shows List.suffix_rfl ht hu
      exact hkept.trans ((List.prefix_append_right_inj u).mpr
        (hfront.trans (List.prefix_append h.text xs)))

/-- A substitution makes no match of a rule that its matches are masked from, as long as the rule
matches neither where the substitution finds nothing nor in what it keeps. -/
theorem Scan.silent (hproper : other.Proper) (hmasks : Masks isWord rule other mask)
    {I : Option Char → List Char → Prop}
    (hkeep : ∀ before c xs, I before (c :: xs) → rule.hit isWord before (c :: xs) = none →
      (∀ t, ¬other.Fits isWord before (c :: xs) t) ∧ I (some c) xs)
    (hmask : ∀ before (h : Hit) xs, I before (h.text ++ xs) →
      rule.hit isWord before (h.text ++ xs) = some h →
        other.Silent isWord before h.groups.flatten ∧ I (lastOf before h.text) xs)
    {xs ys : List Char} (h : rule.Scan isWord before xs ys) (hI : I before xs) :
    other.Silent isWord before ys := by
  induction h with
  | nil => trivial
  | @keep before c xs ys hh hscan ih =>
      obtain ⟨hfits, hrest⟩ := hkeep before c xs hI hh
      refine ⟨fun t ht => hfits t ⟨?_, ht.denotes, ht.boundary⟩, ih hrest⟩
      exact hscan.prefix_of_prefix hmasks ht.denotes (u := [c]) ht.front
  | @mask before h xs ys hh hscan ih =>
      obtain ⟨hkept, hrest⟩ := hmask before h xs hI hh
      rw [(hmasks.cut hh).1, List.append_assoc]
      refine Silent.append_mask hproper hmasks.shows hmasks.hides hkept ?_
      -- Behind the mask nothing begins, whatever is in front of it.
      refine (ih hrest).change_before hproper fun t ht => ?_
      rw [hscan.head?_eq hmasks]
      exact hmasks.stop hh ht

/-- A substitution makes no match of a rule that its matches are masked from. -/
theorem silent_sub (hproper : rule.Proper) (hother : other.Proper)
    (hmasks : Masks isWord rule other mask) {cs : List Char}
    (h : other.Silent isWord before cs) :
    other.Silent isWord before (rule.sub isWord before cs) := by
  refine Scan.silent hother hmasks (I := fun before cs => other.Silent isWord before cs) ?_ ?_
    (scan_sub hproper before cs) h
  · exact fun before c xs hI _ => hI
  · intro before h xs hI hh
    obtain ⟨rest, hrest⟩ := (hmasks.cut hh).2.2
    have htext := hI.of_append.1
    rw [← hrest] at htext
    exact ⟨htext.of_append.1, hI.of_append.2⟩

/-- A substitution that keeps less of a match than every match has leaves no match of its own. -/
theorem silent_sub_self (hproper : rule.Proper) (hmasks : Masks isWord rule rule mask)
    (hshort : ∀ {before : Option Char} {cs : List Char} {h : Hit} {t : List Char},
      rule.hit isWord before cs = some h → rule.body.Denotes t →
        h.groups.flatten.length < t.length)
    (before : Option Char) (cs : List Char) :
    rule.Silent isWord before (rule.sub isWord before cs) := by
  refine Scan.silent hproper hmasks (I := fun _ _ => True) ?_ ?_
    (scan_sub hproper before cs) trivial
  · exact fun before c xs _ hh => ⟨(hit_eq_none_iff hproper).mp hh, trivial⟩
  · exact fun before h xs _ hh => ⟨silent_of_short fun t ht => hshort hh ht, trivial⟩

/-! ### Where a substitution comes to -/

variable (isWord rule) in
/-- The rule matches nowhere in a text in front of another one. -/
def Clear : Option Char → List Char → List Char → Prop
  | _, [], _ => True
  | before, c :: xs, ys =>
      rule.hit isWord before (c :: (xs ++ ys)) = none ∧ Clear (some c) xs ys

instance decidableClear : ∀ before xs ys, Decidable (rule.Clear isWord before xs ys)
  | _, [], _ => .isTrue trivial
  | before, c :: xs, ys =>
      have := decidableClear (some c) xs ys
      inferInstanceAs (Decidable (rule.hit isWord before (c :: (xs ++ ys)) = none ∧ _))

theorem sub_of_clear {xs ys : List Char} (h : rule.Clear isWord before xs ys) :
    rule.sub isWord before (xs ++ ys) = xs ++ rule.sub isWord (lastOf before xs) ys := by
  induction xs generalizing before with
  | nil => rfl
  | cons c xs ih =>
      have hrest := ih h.2
      rw [List.cons_append, sub_of_hit_eq_none h.1, hrest, lastOf_cons]
      rfl

variable (isWord rule) in
/-- A substitution comes to the place between two texts: no match lies across it. -/
inductive Comes : Option Char → List Char → List Char → Prop
  | here (before : Option Char) (ys : List Char) : Comes before [] ys
  | keep {before : Option Char} {c : Char} {xs ys : List Char} :
      rule.hit isWord before (c :: (xs ++ ys)) = none → Comes (some c) xs ys →
        Comes before (c :: xs) ys
  | mask {before : Option Char} {h : Hit} {xs ys : List Char} :
      rule.hit isWord before (h.text ++ (xs ++ ys)) = some h →
        Comes (lastOf before h.text) xs ys → Comes before (h.text ++ xs) ys

/-! ### Nothing new appears -/

variable (isWord rule) in
/-- The rule keeps the front of its matches, and masks the rest with characters that the text `u`
does not hold. -/
def MasksWithout (u : List Char) : Prop :=
  ∀ (before : Option Char) (cs : List Char) (h : Hit), rule.hit isWord before cs = some h →
    ∃ kept mask, rule.replacement h.groups = kept ++ mask ∧ kept <+: h.text ∧ mask ≠ [] ∧
      ∀ c ∈ mask, c ∉ u

theorem infix_of_mask {u kept mask front ys : List Char} (hu : u ≠ []) (hmask : mask ≠ [])
    (hout : ∀ c ∈ mask, c ∉ u) (h : u <:+: front ++ (kept ++ mask ++ ys)) :
    u <:+: front ++ kept ∨ u <:+: ys := by
  obtain ⟨m, mask, rfl⟩ := List.exists_cons_of_ne_nil hmask
  have hsplit : front ++ (kept ++ m :: mask ++ ys) = (front ++ kept) ++ m :: (mask ++ ys) := by
    simp
  rw [hsplit, Occurrences.infix_append_cons_iff (hout m List.mem_cons_self)] at h
  refine h.imp_right fun h => ?_
  exact (Occurrences.infix_append_of_disjoint hu
    fun c hc => hout c (List.mem_cons_of_mem m hc)).mp h

/-- A text without the characters of the masks occurs behind a substitution only where it occurred
before. -/
theorem Scan.infix_of_infix {u : List Char} (hu : u ≠ []) (hmasks : rule.MasksWithout isWord u)
    {xs ys : List Char} (h : rule.Scan isWord before xs ys) (front : List Char)
    (hin : u <:+: front ++ ys) : u <:+: front ++ xs := by
  induction h generalizing front with
  | nil => exact hin
  | keep _ _ ih =>
      rw [List.append_cons] at hin ⊢
      exact ih _ hin
  | @mask before h xs ys hh _ ih =>
      obtain ⟨kept, mask, hreplace, hfront, hne, hout⟩ := hmasks _ _ _ hh
      rw [hreplace] at hin
      rcases infix_of_mask hu hne hout hin with hkept | hrest
      · exact hkept.trans ((List.prefix_append_right_inj front).mpr
          (hfront.trans (List.prefix_append _ xs))).isInfix
      · have hxs : u <:+: xs := ih [] hrest
        exact hxs.trans ((List.suffix_append _ xs).trans (List.suffix_append front _)).isInfix

theorem infix_of_infix_sub {u : List Char} (hproper : rule.Proper) (hu : u ≠ [])
    (hmasks : rule.MasksWithout isWord u) {cs : List Char}
    (h : u <:+: rule.sub isWord before cs) : u <:+: cs :=
  Scan.infix_of_infix hu hmasks (scan_sub hproper before cs) [] h

/-- The part in front of a place that a substitution comes to shows nothing new either. -/
theorem Comes.infix_of_infix {u : List Char} (hproper : rule.Proper) (hu : u ≠ [])
    (hmasks : rule.MasksWithout isWord u) {xs ys : List Char} (h : rule.Comes isWord before xs ys)
    (front : List Char) (hin : u <:+: front ++ rule.sub isWord before (xs ++ ys)) :
    u <:+: front ++ (xs ++ rule.sub isWord (lastOf before xs) ys) := by
  induction h generalizing front with
  | here => exact hin
  | keep hh _ ih =>
      rw [List.cons_append, sub_of_hit_eq_none hh, List.append_cons] at hin
      rw [lastOf_cons, List.cons_append, List.append_cons]
      exact ih _ hin
  | @mask before h xs ys hh _ ih =>
      obtain ⟨kept, mask, hreplace, hfront, hne, hout⟩ := hmasks _ _ _ hh
      rw [List.append_assoc, sub_of_hit hproper hh, hreplace] at hin
      rw [lastOf_append]
      rcases infix_of_mask hu hne hout hin with hkept | hrest
      · refine hkept.trans ((List.prefix_append_right_inj front).mpr ?_).isInfix
        rw [List.append_assoc]
        exact hfront.trans (List.prefix_append _ _)
      · refine List.IsInfix.trans (ih [] hrest) (List.IsSuffix.isInfix ?_)
        rw [List.append_assoc]
        exact (List.suffix_append h.text _).trans (List.suffix_append front _)

end Rule

end Regex

import EvalOps.Lib.Words
import EvalOps.Proofs.Redact

/-!
# `EvalOps.Proofs.TokenPasses`: what the passes of a redaction make of a bearer token

* `EvalOps.Obs.sub_apiKeys_token`, `EvalOps.Obs.EndsInKey.notInfix`: the first pass over a token.
* `EvalOps.Obs.sub_bearer`: the second pass masks what follows `Bearer` up to a character that its
  class leaves out, and `~` is one that a token may have.
* `EvalOps.Obs.comes_bearer`: the second pass comes to `Bearer` unless it masks it.
-/

set_option autoImplicit false

namespace EvalOps.Obs

open Regex Regex.Rule PyText

/-! ### Bearer tokens -/

/-- A character of a bearer token in front of its `=`: a letter, a digit or one of `-._~+/`. -/
def isBearerChar (c : Char) : Bool :=
  c.isAlphanum || c == '-' || c == '.' || c == '_' || c == '~' || c == '+' || c == '/'

/-- The characters of a token. -/
def OfToken (u : List Char) : Prop := ∀ c ∈ u, isBearerChar c = true ∨ c = '='

theorem isAlnum_of_isAlphanum {c : Char} (h : c.isAlphanum = true) : isAlnum c = true := by
  have hlower : ∀ n < 26, (Char.ofNat (65 + n + 32)).isAlphanum = true := by decide
  have hrange := isAlphanum_toNat h
  unfold isAlnum foldCase
  dsimp only
  split_ifs with hupper
  · have hn : c.toNat = 65 + (c.toNat - 65) := by omega
    rw [hn]
    exact hlower _ (by omega)
  · omega
  · omega
  · omega
  · exact h

/-- A character of a token is in the class of the second pattern, unless it is `~`. -/
theorem isTokenChar_of_ofToken {c : Char} (h : isBearerChar c = true ∨ c = '=') (hne : c ≠ '~') :
    isTokenChar c = true := by
  rcases h with h | rfl
  · simp only [isBearerChar, Bool.or_eq_true, beq_iff_eq] at h
    rcases h with (((((h | rfl) | rfl) | rfl) | h) | rfl) | rfl
    · exact isTokenChar_of_isAlnum (isAlnum_of_isAlphanum h)
    · decide
    · decide
    · decide
    · exact absurd h hne
    · decide
    · decide
  · decide

theorem solid_of_ofToken {u : List Char} (h : OfToken u) : Solid u := by
  intro c hc
  by_cases htilde : c = '~'
  · subst htilde
    decide
  · have htoken := isTokenChar_of_ofToken (h c hc) htilde
    simp only [isTokenChar, Bool.or_eq_true, beq_iff_eq] at htoken
    rcases htoken with (((((h | rfl) | rfl) | rfl) | rfl) | rfl) | rfl
    · exact isSpace_eq_false_of_isAlnum h
    all_goals decide

/-- A character that is in no token. -/
theorem notMem_of_ofToken {u : List Char} (h : OfToken u) {d : Char}
    (hd : isBearerChar d = false) (heq : d ≠ '=') : d ∉ u := by
  intro hmem
  rcases h d hmem with hbearer | rfl
  · rw [hd] at hbearer
    cases hbearer
  · exact heq rfl

theorem star_notMem {u : List Char} (h : OfToken u) : '*' ∉ u := notMem_of_ofToken h rfl (by decide)

/-- What is masked is hidden behind a blank or a star, which no token has. -/
theorem masks_of_ofToken {u : List Char} (h : OfToken u) :
    (∀ c ∈ "***".toList, c ∉ u) ∧ ∀ c ∈ " ***".toList, c ∉ u := by
  have hstars : ∀ c ∈ "***".toList, c ∉ u := by
    have hchars : "***".toList = List.replicate 3 '*' := by decide
    intro c hc
    rw [hchars] at hc
    rw [List.eq_of_mem_replicate hc]
    exact star_notMem h
  refine ⟨hstars, ?_⟩
  have hchars : " ***".toList = ' ' :: "***".toList := by decide
  rw [hchars]
  exact List.forall_mem_cons.mpr ⟨(solid_of_ofToken h).blank_notMem, hstars⟩

variable {unicodeAlnum : Char → Bool} {before : Option Char} {u : List Char}

theorem apiKeys_masksWithout (h : OfToken u) :
    apiKeys.MasksWithout (isWord unicodeAlnum) u := fun _ _ _ hh =>
  have hcut := (masks_apiKeys credential_apiKeys).cut hh
  ⟨_, _, hcut.1, hcut.2.2, by decide, (masks_of_ofToken h).1⟩

theorem authSchemes_masksWithout (h : OfToken u) :
    authSchemes.MasksWithout (isWord unicodeAlnum) u := fun _ _ _ hh =>
  have hcut := (masks_authSchemes credential_apiKeys).cut hh
  ⟨_, _, hcut.1, hcut.2.2, by decide, (masks_of_ofToken h).2⟩

theorem namedSecrets_masksWithout (h : OfToken u) :
    namedSecrets.MasksWithout (isWord unicodeAlnum) u := fun _ _ _ hh =>
  have hcut := (masks_namedSecrets credential_apiKeys).cut hh
  ⟨_, _, hcut.1, hcut.2.2, by decide, (masks_of_ofToken h).1⟩

/-! ### The first pass over a token -/

variable (unicodeAlnum) in
/-- The mask behind `Bearer ` leaves fewer than eight characters at the end of the token: the second
pattern takes `front`, with the API key behind it if the first pattern has found one there. -/
def TakenToTheEnd (t : List Char) : Prop :=
  ∃ front key tail, t = front ++ (key ++ tail) ∧ tail.length < 8 ∧ '~' ∉ front ∧
    apiKeys.Clear (isWord unicodeAlnum) (some ' ') front (key ++ tail) ∧
    (key = [] ∧ 6 ≤ front.length ∨
      ∃ h, apiKeys.hit (isWord unicodeAlnum) (lastOf (some ' ') front) (key ++ tail) = some h ∧
        h.text = key)

variable (unicodeAlnum) in
/-- The first pattern finds an API key that leaves fewer than eight characters at the end of the
token, and no long end of the token stands further to the front. -/
def EndsInKey (t : List Char) : Prop :=
  ∃ front key tail, t = front ++ (key ++ tail) ∧ tail.length < 8 ∧
    apiKeys.Comes (isWord unicodeAlnum) (some ' ') front (key ++ tail) ∧
    (∃ h, apiKeys.hit (isWord unicodeAlnum) (lastOf (some ' ') front) (key ++ tail) = some h ∧
      h.text = key) ∧
    ∀ u, u <:+ t → 8 ≤ u.length → ¬u <:+: t.dropLast

/-- The first pass hides the end of a token that ends in an API key. -/
theorem EndsInKey.notInfix {t : List Char} (h : EndsInKey unicodeAlnum t) (hu : OfToken u)
    (hends : u <:+ t) (hlong : 8 ≤ u.length) :
    ¬u <:+: apiKeys.sub (isWord unicodeAlnum) (some ' ') t := by
  obtain ⟨front, key, tail, rfl, htail, hcomes, ⟨h, hh, rfl⟩, honce⟩ := h
  intro hin
  have hne : u ≠ [] := List.ne_nil_of_length_pos (by omega)
  have hshown := hcomes.infix_of_infix credential_apiKeys.proper hne (apiKeys_masksWithout hu) []
    hin
  obtain ⟨start, key, rfl, hstart, hkey⟩ := hit_apiKeys hh
  rw [List.nil_append, sub_of_hit credential_apiKeys.proper hh] at hshown
  have hmask : apiKeys.replacement [start] = start ++ "***".toList := rfl
  rw [hmask] at hshown
  rcases infix_of_mask hne (by decide) (masks_of_ofToken hu).1 hshown with hkept | hrest
  · -- What is kept is a front of the token that does not reach its end.
    refine honce u hends hlong (hkept.trans (List.IsPrefix.isInfix ?_))
    have hpos : key ++ tail ≠ [] := List.append_ne_nil_of_left_ne_nil
      (List.ne_nil_of_length_pos (by have hsix := hkey.1; omega)) tail
    have htext : front ++ (start ++ key ++ tail) = (front ++ start) ++ (key ++ tail) := by simp
    rw [htext, List.dropLast_append_of_ne_nil hpos]
    exact List.prefix_append _ _
  · have hle := (infix_of_infix_sub credential_apiKeys.proper hne (apiKeys_masksWithout hu)
      hrest).length_le
    omega

/-- What the first pass makes of a token that is taken to the end: a part that the second pattern
takes, and one in which nothing long is left. -/
theorem sub_apiKeys_token {t : List Char} (ht : OfToken t)
    (htaken : TakenToTheEnd unicodeAlnum t) :
    ∃ a y, apiKeys.sub (isWord unicodeAlnum) (some ' ') t = a ++ y ∧
      (∀ c ∈ a, isTokenChar c = true) ∧ (6 ≤ a.length ∨ y.head? = some '*') ∧
      ∀ u, OfToken u → 8 ≤ u.length → ¬u <:+: y := by
  obtain ⟨front, key, tail, rfl, htail, htilde, hclear, hkey⟩ := htaken
  have hfront : ∀ c ∈ front, isTokenChar c = true := by
    intro c hc
    exact isTokenChar_of_ofToken (ht c (List.mem_append_left _ hc)) fun h => htilde (h ▸ hc)
  have hshort : ∀ (before : Option Char) (u : List Char), OfToken u → 8 ≤ u.length →
      ¬u <:+: apiKeys.sub (isWord unicodeAlnum) before tail := by
    intro before u hu hlong hin
    have hne : u ≠ [] := List.ne_nil_of_length_pos (by omega)
    have hle := (infix_of_infix_sub credential_apiKeys.proper hne (apiKeys_masksWithout hu)
      hin).length_le
    omega
  rw [sub_of_clear hclear]
  rcases hkey with ⟨rfl, hlong⟩ | ⟨h, hh, rfl⟩
  · exact ⟨front, _, rfl, hfront, .inl hlong, hshort _⟩
  · obtain ⟨start, key, rfl, hstart, hkey⟩ := hit_apiKeys hh
    rw [sub_of_hit credential_apiKeys.proper hh]
    have hstartChars : ∀ c ∈ start, isTokenChar c = true := by
      intro c hc
      have hmem : c ∈ front ++ (start ++ key ++ tail) :=
        List.mem_append_right _ (List.mem_append_left _ (List.mem_append_left _ hc))
      refine isTokenChar_of_ofToken (ht c hmem) ?_
      rintro rfl
      exact notMem_of_denotes (r := keyStart) (by decide) hstart hc
    refine ⟨front ++ start, "***".toList ++ apiKeys.sub (isWord unicodeAlnum)
      (lastOf (lastOf (some ' ') front) (start ++ key)) tail, ?_,
      List.forall_mem_append.mpr ⟨hfront, hstartChars⟩, .inr rfl, ?_⟩
    · simp [apiKeys]
    · intro u hu hlong hin
      have hne : u ≠ [] := List.ne_nil_of_length_pos (by omega)
      exact hshort _ u hu hlong
        ((Occurrences.infix_append_of_disjoint hne (masks_of_ofToken hu).1).mp hin)

/-! ### The second pass over `Bearer ` and a token -/

/-- The text `Bearer`. -/
def bearer : List Char := "Bearer".toList

theorem denotes_bearer : scheme.Denotes bearer := .inl (denotes_letters.mpr (by decide))

/-- The scheme in front of a text that begins with `Bearer` is `Bearer`. -/
theorem scheme_eq_bearer {name : List Char} (cs : List Char) (hname : scheme.Denotes name)
    (hfront : name <+: bearer ++ cs) : name = bearer := by
  have hspells := spells_scheme name hname
  have hlength : name.length = 6 ∨ name.length = 5 := by
    have hall : ∀ text ∈ schemes, text.length = 6 ∨ text.length = 5 := by decide
    simpa using hall _ hspells
  have htake : name = bearer.take name.length := by
    have hle : name.length ≤ bearer.length := by
      have hsix : bearer.length = 6 := by decide
      omega
    have h := List.prefix_iff_eq_take.mp hfront
    rwa [List.take_append_of_le_length hle] at h
  rcases hlength with h | h
  · rw [h] at htake
    exact htake
  · -- The first five letters are no scheme.
    rw [h] at htake
    rw [htake] at hspells
    exact absurd hspells (by decide)

theorem isSpace_of_isTokenChar {c : Char} (h : isTokenChar c = true) : isSpace c = false := by
  simp only [isTokenChar, Bool.or_eq_true, beq_iff_eq] at h
  rcases h with (((((h | rfl) | rfl) | rfl) | rfl) | rfl) | rfl
  · exact isSpace_eq_false_of_isAlnum h
  all_goals decide

/-- The second pattern matches `Bearer ` with a run of at least six token characters. -/
theorem exists_hit_bearer {a : List Char} (cs : List Char)
    (hbefore : before.any (isWord unicodeAlnum) = false)
    (ha : ∀ c ∈ a, isTokenChar c = true) (hlong : 6 ≤ a.length) :
    ∃ h, authSchemes.hit (isWord unicodeAlnum) before (bearer ++ ' ' :: (a ++ cs)) = some h := by
  have hfits : authSchemes.Fits (isWord unicodeAlnum) before (bearer ++ ' ' :: (a ++ cs))
      (bearer ++ [' '] ++ a) :=
    { front := ⟨cs, by simp⟩
      denotes := ⟨_, a, rfl, ⟨bearer, [' '], rfl, denotes_bearer, by decide,
        List.all_eq_true.mp (by decide)⟩, hlong, ha⟩
      boundary := fun _ => by
        show (before.any (isWord unicodeAlnum) != true) = true
        rw [hbefore]
        rfl }
  by_contra hnone
  rw [not_exists] at hnone
  exact (hit_eq_none_iff credential_authSchemes.proper).mp
    (Option.eq_none_iff_forall_ne_some.mpr hnone) _ hfits

/-- A run of at least six token characters behind `Bearer ` is masked, as far as it goes. -/
theorem sub_bearer {a cs : List Char} (hbefore : before.any (isWord unicodeAlnum) = false)
    (ha : ∀ c ∈ a, isTokenChar c = true) (hlong : 6 ≤ a.length) :
    ∃ before' rest, rest <:+ cs ∧
      authSchemes.sub (isWord unicodeAlnum) before (bearer ++ ' ' :: (a ++ cs))
        = bearer ++ (" ***".toList ++ authSchemes.sub (isWord unicodeAlnum) before' rest) := by
  obtain ⟨h, hh⟩ := exists_hit_bearer cs hbefore ha hlong
  obtain ⟨rest, hrest⟩ := (fits_of_hit credential_authSchemes.proper hh).front
  obtain ⟨name, spaces, token, rfl, hname, hspaces, htoken⟩ := hit_authSchemes hh
  dsimp only at hrest
  obtain rfl : name = bearer := by
    refine scheme_eq_bearer (' ' :: (a ++ cs)) hname ⟨spaces ++ token ++ rest, ?_⟩
    rw [← hrest]
    simp
  rw [List.append_assoc, List.append_assoc, List.append_cancel_left_eq] at hrest
  -- The blank is the whole gap, as the next character is one of the token.
  obtain rfl : spaces = [' '] := by
    obtain ⟨c, spaces, rfl⟩ := List.exists_cons_of_ne_nil
      (List.ne_nil_of_length_pos hspaces.1)
    rw [List.cons_append, List.cons.injEq] at hrest
    obtain ⟨rfl, hrest⟩ := hrest
    cases spaces with
    | nil => rfl
    | cons d spaces =>
        have hspace := hspaces.2 d (by simp)
        cases a with
        | nil => exact absurd hlong (by simp)
        | cons e a =>
            obtain rfl : d = e := (List.cons.inj hrest).1
            rw [isSpace_of_isTokenChar (ha d List.mem_cons_self)] at hspace
            cases hspace
  rw [List.singleton_append, List.cons.injEq] at hrest
  have hcs : token ++ rest = a ++ cs := hrest.2
  have htext : bearer ++ ' ' :: (a ++ cs) = bearer ++ [' '] ++ token ++ rest := by
    rw [← hcs]
    simp
  rw [htext] at hh ⊢
  -- The match goes on as far as it can, which is not inside `a`.
  have hstop := stops_of_hit (h := ⟨bearer ++ [' '] ++ token, [bearer]⟩) rfl hh
  obtain ⟨run, rfl, hrun⟩ : ∃ run, token = a ++ run ∧ cs = run ++ rest := by
    rcases List.append_eq_append_iff.mp hcs with ⟨z, rfl, hz⟩ | ⟨run, hrun, hcs⟩
    · cases z with
      | nil => exact ⟨[], by simp, by simpa using hz.symm⟩
      | cons d z =>
          have hfalse := hstop d (by rw [hz]; rfl)
          rw [ha d (by simp)] at hfalse
          cases hfalse
    · exact ⟨run, hrun, hcs⟩
  refine ⟨lastOf before (bearer ++ [' '] ++ (a ++ run)), rest, ⟨run, hrun.symm⟩, ?_⟩
  rw [sub_of_hit (h := ⟨bearer ++ [' '] ++ (a ++ run), [bearer]⟩) credential_authSchemes.proper hh]
  simp [authSchemes]

/-! ### The second pass up to `Bearer` -/

/-- Two texts have the same matches of a sequence when they have those of its first part, and behind
these those of its second. -/
theorem hits_seq_congr {a b : Regex} {cs cs' : List Char} (ha : hits a cs = hits a cs')
    (hb : ∀ h ∈ hits a cs', hits b (cs.drop h.text.length) = hits b (cs'.drop h.text.length)) :
    hits (seq a b) cs = hits (seq a b) cs' := by
  rw [hits, hits, ha]
  exact List.flatMap_congr fun h hh => by rw [hb h hh]

/-- The matches of the second pattern in front of `Bearer` look no further than the blank behind. -/
theorem hits_authSchemes_bearer (c : Char) (z rest : List Char) :
    hits authSchemes.body (c :: z ++ bearer ++ ' ' :: rest)
      = hits authSchemes.body (c :: z ++ bearer) := by
  -- A scheme ends in front of the last letter of `Bearer`, and the blanks behind it do so too.
  have hlast : c :: z ++ bearer = (c :: z ++ "Beare".toList) ++ ['r'] := by
    rw [List.append_assoc]
    rfl
  refine hits_seq_congr (hits_seq_congr (hits_append_cons (by decide) _ _) ?_) ?_
  · intro h hh
    have hname := ((exists_hit_iff (group scheme) _ h.text).mp ⟨h, hh, rfl⟩).2
    have hshort : h.text.length ≤ (c :: z ++ "Beare".toList).length := by
      have hsix : h.text.length ≤ 6 := by
        have hall : ∀ text ∈ schemes, text.length ≤ 6 := by decide
        simpa using hall _ (spells_scheme h.text hname)
      have hfive : "Beare".toList.length = 5 := by decide
      rw [List.length_append, List.length_cons, hfive]
      omega
    have hgap : ∀ tail : List Char,
        hits (many 1 isSpace) (((c :: z ++ "Beare".toList) ++ 'r' :: tail).drop h.text.length)
          = hits (many 1 isSpace) ((c :: z ++ "Beare".toList).drop h.text.length) := by
      intro tail
      rw [List.drop_append_of_le_length hshort, hits_append_cons (by decide)]
    have hlong := hgap (' ' :: rest)
    rw [hlast, List.append_assoc, List.singleton_append, hlong, hgap []]
  · intro h hh
    have hfront := ((exists_hit_iff _ _ h.text).mp ⟨h, hh, rfl⟩).1
    rw [List.drop_append_of_le_length hfront.length_le, hits_append_cons (by decide)]

theorem hit_authSchemes_bearer (c : Char) (z rest : List Char) :
    authSchemes.hit (isWord unicodeAlnum) before (c :: (z ++ (bearer ++ ' ' :: rest)))
      = authSchemes.hit (isWord unicodeAlnum) before (c :: (z ++ bearer)) := by
  have hhits := hits_authSchemes_bearer c z rest
  simp only [List.cons_append, List.append_assoc] at hhits
  unfold hit
  rw [hhits]
  rfl

/-- Where the second pass does not mask the `Bearer` behind a text, it comes to it there. -/
theorem comes_bearer {z : List Char} (rest : List Char)
    (h : ¬"***".toList <:+ authSchemes.sub (isWord unicodeAlnum) before (z ++ bearer)) :
    authSchemes.Comes (isWord unicodeAlnum) before z (bearer ++ ' ' :: rest) := by
  generalize hn : z.length = n
  induction n using Nat.strong_induction_on generalizing before z with
  | _ n ih =>
      cases z with
      | nil => exact .here before _
      | cons c z =>
          cases hh : authSchemes.hit (isWord unicodeAlnum) before (c :: (z ++ bearer)) with
          | none =>
              refine .keep ((hit_authSchemes_bearer c z rest).trans hh) (ih z.length ?_ ?_ rfl)
              · rw [← hn, List.length_cons]
                omega
              · intro hsuffix
                rw [List.cons_append, sub_of_hit_eq_none hh] at h
                exact h (hsuffix.trans (List.suffix_cons c _))
          | some found =>
              obtain ⟨behind, hbehind⟩ := (fits_of_hit credential_authSchemes.proper hh).front
              rw [← hbehind] at hh
              have hmasked := sub_of_hit credential_authSchemes.proper hh
              rw [← List.cons_append] at hbehind
              rw [List.cons_append, ← List.cons_append, ← hbehind, hmasked] at h
              rcases List.append_eq_append_iff.mp hbehind with ⟨x, hx, rfl⟩ | ⟨b, hb, hbearer⟩
              · -- The match ends in front of `Bearer`.
                have hpos : 0 < found.text.length := List.length_pos_iff.mpr
                  ((fits_of_hit credential_authSchemes.proper hh).ne_nil
                    credential_authSchemes.proper)
                have hshort : x.length < n := by
                  rw [← hn, hx, List.length_append]
                  omega
                rw [hx]
                refine .mask ?_ (ih x.length hshort (fun hsuffix => ?_) rfl)
                · have hlook := @hit_authSchemes_bearer unicodeAlnum before c z rest
                  rw [← List.cons_append, hx, ← List.cons_append, hx, List.append_assoc,
                    List.append_assoc] at hlook
                  exact hlook.trans hh
                · exact h (hsuffix.trans (List.suffix_append _ _))
              · -- The match goes on to the end of `Bearer`, and masks it.
                have hstop := stops_of_hit rfl hh
                have htoken : ∀ d ∈ bearer, isTokenChar d = true := List.all_eq_true.mp (by decide)
                cases behind with
                | nil =>
                    obtain ⟨name, spaces, token, rfl, _⟩ := hit_authSchemes hh
                    refine absurd ?_ h
                    have hmask : " ***".toList = ' ' :: "***".toList := by decide
                    show "***".toList <:+ name ++ " ***".toList ++ []
                    rw [List.append_nil, hmask, List.append_cons]
                    exact List.suffix_append _ _
                | cons d behind =>
                    have hd := hstop d rfl
                    rw [htoken d (hbearer ▸ by simp)] at hd
                    cases hd

end EvalOps.Obs

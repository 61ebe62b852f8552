import EvalOps.Proofs.TokenPasses

/-!
# `EvalOps.Proofs.BearerTokens`: what is left of a bearer token in a log

A token is hidden when the masks leave less than eight characters at its end, as long as the second
pass does not take `Bearer` itself for a token.

* `EvalOps.Obs.infix_of_infix_safeStr`: no pass makes a part of a token appear.
* `EvalOps.Obs.bearer_token_is_hidden`: when a token is hidden.
-/

set_option autoImplicit false

namespace EvalOps.Obs

open Regex Regex.Rule PyText

variable {unicodeAlnum : Char → Bool} {before : Option Char} {u : List Char}

/-! ### The surroundings of a token -/

/-- The text `Authorization:`. -/
def authorization : List Char := "Authorization:".toList

/-- What is next to a token or to its scheme on one line: a blank or a quote. -/
def IsEdge (d : Char) : Prop := d = ' ' ∨ d = doubleQuote ∨ d = singleQuote

theorem IsEdge.avoids {d : Char} (h : IsEdge d) : apiKeys.body.Avoids d := by
  rcases h with rfl | rfl | rfl <;> decide

theorem IsEdge.notMem {d : Char} (h : IsEdge d) (hu : OfToken u) : d ∉ u := by
  rcases h with rfl | rfl | rfl <;> exact notMem_of_ofToken hu rfl (by decide)

theorem IsEdge.isWord {d : Char} (h : IsEdge d) :
    (some d).any (isWord unicodeAlnum) = false := by
  rcases h with rfl | rfl | rfl <;> rfl

/-- The part of a token that is looked for: at least eight characters at its end, which do not occur
in the text around the token. -/
structure Part (p s t u : List Char) : Prop where
  token : OfToken t
  ends : u <:+ t
  long : 8 ≤ u.length
  front : ¬u <:+: p
  back : ¬u <:+: s
  scheme : ¬u <:+: "Authorization: Bearer ".toList

namespace Part

variable {p q s r t : List Char}

theorem ofToken (h : Part p s t u) : OfToken u := fun c hc => h.token c (h.ends.mem hc)

theorem ne_nil (h : Part p s t u) : u ≠ [] :=
  List.ne_nil_of_length_pos (Nat.lt_of_lt_of_le (by decide) h.long)

theorem notInfix_of_short (h : Part p s t u) {cs : List Char} (hcs : cs.length < 8) :
    ¬u <:+: cs := by
  intro hin
  have hle := hin.length_le
  have hlong := h.long
  omega

/-- In front of the token there is nothing of it. -/
theorem notInfix_front (h : Part p s t u) (hq : FrontOf p q) (hedge : ∀ d ∈ q.getLast?, IsEdge d)
    {w : List Char} (hw : ¬u <:+: w) : ¬u <:+: q ++ w := by
  have hq' : ¬u <:+: q := fun hin => h.front (hq.only u (solid_of_ofToken h.ofToken) hin)
  rcases List.eq_nil_or_concat q with rfl | ⟨q, d, rfl⟩
  · exact hw
  · rw [List.concat_eq_append] at hedge hq' ⊢
    have hd := hedge d List.getLast?_concat
    rw [List.append_assoc, List.singleton_append,
      Occurrences.infix_append_cons_iff (hd.notMem h.ofToken)]
    rintro (hin | hin)
    · exact hq' (hin.trans (List.prefix_append q [d]).isInfix)
    · exact hw hin

/-- Behind the token there is nothing of it. -/
theorem notInfix_behind (h : Part p s t u) (hr : BehindOf s r) {y : List Char}
    (hedge : ∀ d ∈ r.head?, IsEdge d) (hy : ¬u <:+: y) :
    ∀ last, ¬u <:+: y ++ apiKeys.sub (isWord unicodeAlnum) last r := by
  intro last hin
  have hback : ¬u <:+: r := fun hin => h.back (hr.only u (solid_of_ofToken h.ofToken) hin)
  cases r with
  | nil => exact hy (by simpa [Regex.Rule.sub, subFrom] using hin)
  | cons d r =>
      have hd := hedge d rfl
      have hcut : apiKeys.sub (isWord unicodeAlnum) last (d :: r)
          = d :: apiKeys.sub (isWord unicodeAlnum) (some d) r :=
        sub_append_cons credential_apiKeys.proper hd.avoids [] r
      rw [hcut, Occurrences.infix_append_cons_iff (hd.notMem h.ofToken)] at hin
      refine hin.elim hy fun hin => hback ?_
      exact (infix_of_infix_sub credential_apiKeys.proper h.ne_nil
        (apiKeys_masksWithout h.ofToken) hin).trans (List.suffix_cons d r).isInfix

/-- The first pass hides a token that ends in an API key, whatever is in front of it. -/
theorem notInfix_of_key (h : Part p s t u) (hkey : EndsInKey unicodeAlnum t) (hr : BehindOf s r)
    (hedge : ∀ d ∈ r.head?, IsEdge d) {front : List Char} (hfront : ¬u <:+: front) :
    ¬u <:+: authSchemes.sub (isWord unicodeAlnum) none
      (apiKeys.sub (isWord unicodeAlnum) none (front ++ ' ' :: (t ++ r))) := by
  intro hin
  have hfirst := infix_of_infix_sub credential_authSchemes.proper h.ne_nil
    (authSchemes_masksWithout h.ofToken) hin
  rw [sub_append_cons credential_apiKeys.proper (by decide),
    Occurrences.infix_append_cons_iff (solid_of_ofToken h.ofToken).blank_notMem,
    sub_append_of_first credential_apiKeys.proper t fun d hd => (hedge d hd).avoids] at hfirst
  rcases hfirst with hfirst | hfirst
  · exact hfront (infix_of_infix_sub credential_apiKeys.proper h.ne_nil
      (apiKeys_masksWithout h.ofToken) hfirst)
  · exact h.notInfix_behind hr hedge (hkey.notInfix h.ofToken h.ends h.long) _ hfirst

/-- Behind `Bearer ` a token is masked that the second pattern takes to the end. -/
theorem notInfix_bearer (h : Part p s t u) (htaken : TakenToTheEnd unicodeAlnum t)
    (hr : BehindOf s r) (hedge : ∀ d ∈ r.head?, IsEdge d)
    (hbefore : before.any (isWord unicodeAlnum) = false) :
    ¬u <:+: authSchemes.sub (isWord unicodeAlnum) before
      (bearer ++ ' ' :: apiKeys.sub (isWord unicodeAlnum) (some ' ') (t ++ r)) := by
  obtain ⟨a, y, htoken, ha, hcovered, hy⟩ := sub_apiKeys_token h.token htaken
  have hbehind : ¬u <:+: y ++ apiKeys.sub (isWord unicodeAlnum) (lastOf (some ' ') t) r :=
    h.notInfix_behind hr hedge (hy u h.ofToken h.long) _
  have hbearer : ¬u <:+: bearer := h.notInfix_of_short (by decide)
  rw [sub_append_of_first credential_apiKeys.proper t fun d hd => (hedge d hd).avoids, htoken,
    List.append_assoc]
  intro hin
  by_cases hlong : 6 ≤ a.length
  · -- The mask covers `a`, and goes on behind it.
    obtain ⟨_, rest, hrest, hsub⟩ := sub_bearer hbefore ha hlong
    rw [hsub, ← List.append_assoc, ← List.nil_append (bearer ++ _ ++ _)] at hin
    have hmask : ∀ c ∈ " ***".toList, c ∉ u := (masks_of_ofToken h.ofToken).2
    rcases infix_of_mask h.ne_nil (by decide) hmask hin with hfront | hback
    · exact hbearer hfront
    · exact hbehind ((infix_of_infix_sub credential_authSchemes.proper h.ne_nil
        (authSchemes_masksWithout h.ofToken) hback).trans hrest.isInfix)
  · -- `a` is too short for the second pattern, and the mask of the first is behind it.
    have hshort : a.length < 8 := by omega
    obtain ⟨y, rfl⟩ := List.head?_eq_some_iff.mp (hcovered.resolve_left hlong)
    have htext := infix_of_infix_sub credential_authSchemes.proper h.ne_nil
      (authSchemes_masksWithout h.ofToken) hin
    rw [Occurrences.infix_append_cons_iff (solid_of_ofToken h.ofToken).blank_notMem,
      List.cons_append, Occurrences.infix_append_cons_iff (star_notMem h.ofToken)] at htext
    rcases htext with htext | htext | htext
    · exact hbearer htext
    · exact h.notInfix_of_short hshort htext
    · exact hbehind (htext.trans (List.suffix_cons '*' _).isInfix)

/-- `Bearer` is too short for the first pattern. -/
theorem sub_apiKeys_bearer (before : Option Char) :
    apiKeys.sub (isWord unicodeAlnum) before bearer = bearer := by
  refine sub_of_silent credential_apiKeys.proper (silent_of_short fun t ht => ?_)
  obtain ⟨start, key, rfl, hstart, hkey⟩ := ht
  have hlength := spells_keyStart.length (n := 3) (by decide) hstart
  have hlong := hkey.1
  have hsix : bearer.length = 6 := by decide
  rw [List.length_append]
  omega

/-- The first two passes over `Bearer ` and a token, behind an edge. -/
theorem notInfix_of_bearer (h : Part p s t u)
    (htaken : TakenToTheEnd unicodeAlnum t) (hq : FrontOf p q)
    (hedgeq : ∀ d ∈ q.getLast?, IsEdge d) (hr : BehindOf s r) (hedger : ∀ d ∈ r.head?, IsEdge d)
    (hkept : ¬"***".toList <:+ authSchemes.sub (isWord unicodeAlnum) none
      (apiKeys.sub (isWord unicodeAlnum) none (q ++ bearer))) :
    ¬u <:+: authSchemes.sub (isWord unicodeAlnum) none
      (apiKeys.sub (isWord unicodeAlnum) none (q ++ bearer ++ ' ' :: (t ++ r))) := by
  have hfront : ∀ before, apiKeys.sub (isWord unicodeAlnum) before (q ++ bearer)
      = apiKeys.sub (isWord unicodeAlnum) before q ++ bearer := by
    intro before
    rw [sub_append_of_last credential_apiKeys.proper fun d hd => (hedgeq d hd).avoids,
      sub_apiKeys_bearer]
  rw [hfront] at hkept
  rw [sub_append_cons credential_apiKeys.proper (by decide), hfront, List.append_assoc]
  have hcomes := comes_bearer (apiKeys.sub (isWord unicodeAlnum) (some ' ') (t ++ r)) hkept
  intro hin
  have hshown := hcomes.infix_of_infix credential_authSchemes.proper h.ne_nil
    (authSchemes_masksWithout h.ofToken) [] hin
  rw [List.nil_append] at hshown
  have hq' : ¬u <:+: q := fun hin => h.front (hq.only u (solid_of_ofToken h.ofToken) hin)
  rcases List.eq_nil_or_concat q with rfl | ⟨q, d, rfl⟩
  · have hnothing : apiKeys.sub (isWord unicodeAlnum) none [] = [] := rfl
    rw [hnothing, List.nil_append, lastOf_nil] at hshown
    have hbefore : (none : Option Char).any (isWord unicodeAlnum) = false := rfl
    exact h.notInfix_bearer htaken hr hedger hbefore hshown
  · rw [List.concat_eq_append] at hedgeq hq' hshown
    have hd := hedgeq d List.getLast?_concat
    have hlast : lastOf none (apiKeys.sub (isWord unicodeAlnum) none q ++ [d]) = some d := by
      unfold lastOf
      rw [List.getLast?_concat]
      rfl
    have hcut : apiKeys.sub (isWord unicodeAlnum) none (q ++ [d])
        = apiKeys.sub (isWord unicodeAlnum) none q ++ [d] :=
      sub_append_cons credential_apiKeys.proper hd.avoids q []
    rw [hcut, hlast, List.append_assoc, List.singleton_append,
      Occurrences.infix_append_cons_iff (hd.notMem h.ofToken)] at hshown
    rcases hshown with hshown | hshown
    · exact hq' ((infix_of_infix_sub credential_apiKeys.proper h.ne_nil
        (apiKeys_masksWithout h.ofToken) hshown).trans (List.prefix_append q [d]).isInfix)
    · exact h.notInfix_bearer htaken hr hedger hd.isWord hshown

/-- A blank begins no match of the second pattern. -/
theorem sub_authSchemes_blank (before : Option Char) (cs : List Char) :
    authSchemes.sub (isWord unicodeAlnum) before (' ' :: cs)
      = ' ' :: authSchemes.sub (isWord unicodeAlnum) (some ' ') cs := by
  refine sub_of_hit_eq_none ((hit_eq_none_iff credential_authSchemes.proper).mpr fun t ht => ?_)
  obtain ⟨c, t, rfl⟩ := List.exists_cons_of_ne_nil (ht.ne_nil credential_authSchemes.proper)
  have hc : c = ' ' := (List.cons_prefix_cons.mp ht.front).1
  have halnum := credential_authSchemes.first _ ht.denotes c rfl
  rw [hc] at halnum
  exact absurd halnum (by decide)

/-- The first two passes over `Authorization: Bearer ` and a token, behind an edge. Whatever is in
front, the colon keeps it away from `Bearer`. -/
theorem notInfix_of_authorization (h : Part p s t u)
    (htaken : TakenToTheEnd unicodeAlnum t) (hq : FrontOf p q)
    (hedgeq : ∀ d ∈ q.getLast?, IsEdge d) (hr : BehindOf s r) (hedger : ∀ d ∈ r.head?, IsEdge d) :
    ¬u <:+: authSchemes.sub (isWord unicodeAlnum) none (apiKeys.sub (isWord unicodeAlnum) none
      (q ++ authorization ++ ' ' :: (bearer ++ ' ' :: (t ++ r)))) := by
  obtain ⟨name, hname⟩ : ∃ name, authorization = name ++ [':'] :=
    ⟨"Authorization".toList, by decide⟩
  have htext : q ++ authorization ++ ' ' :: (bearer ++ ' ' :: (t ++ r))
      = (q ++ name) ++ ':' :: ([] ++ ' ' :: (bearer ++ ' ' :: (t ++ r))) := by
    rw [hname]
    simp
  have hfront : ¬u <:+: q ++ name := by
    refine h.notInfix_front hq hedgeq fun hin => h.scheme (hin.trans ?_)
    refine ⟨[], ": Bearer ".toList, ?_⟩
    have hall : "Authorization: Bearer ".toList = authorization ++ " Bearer ".toList := by decide
    rw [hall, hname]
    simp
  have hcolon : ':' ∉ u := notMem_of_ofToken h.ofToken rfl (by decide)
  rw [htext, sub_append_cons credential_apiKeys.proper (by decide),
    sub_append_cons credential_apiKeys.proper (by decide),
    sub_append_cons credential_apiKeys.proper (by decide), sub_apiKeys_bearer,
    sub_append_cons credential_authSchemes.proper (by decide)]
  intro hin
  rw [Occurrences.infix_append_cons_iff hcolon] at hin
  rcases hin with hin | hin
  · exact hfront (infix_of_infix_sub credential_apiKeys.proper h.ne_nil
      (apiKeys_masksWithout h.ofToken) (infix_of_infix_sub credential_authSchemes.proper h.ne_nil
        (authSchemes_masksWithout h.ofToken) hin))
  · have hnothing : apiKeys.sub (isWord unicodeAlnum) (some ':') [] = [] := rfl
    rw [hnothing, List.nil_append, sub_authSchemes_blank, ← List.nil_append (' ' :: _),
      Occurrences.infix_append_cons_iff (solid_of_ofToken h.ofToken).blank_notMem] at hin
    rcases hin with hin | hin
    · exact h.ne_nil (List.infix_nil.mp hin)
    · have hblank : (some ' ').any (isWord unicodeAlnum) = false := rfl
      exact h.notInfix_bearer htaken hr hedger hblank hin

end Part

/-! ### The logged text -/

/-- A part of a token in a logged value is in the text before its third pass. -/
theorem infix_of_infix_safeStr (hu : OfToken u) (hne : u ≠ []) {value : String}
    (h : u <:+: (safeStr unicodeAlnum value defaultLimit).toList) :
    u <:+: authSchemes.sub (isWord unicodeAlnum) none
      (apiKeys.sub (isWord unicodeAlnum) none (squeeze value.toList)) := by
  have hjoined : " ".intercalate (PyText.split value) = String.ofList (squeeze value.toList) := by
    rw [← toList_join_split, String.ofList_toList]
  have hredacted : u <:+: (redact unicodeAlnum (" ".intercalate (PyText.split value))).toList := by
    unfold safeStr at h
    dsimp only at h
    split_ifs at h
    · -- The cut leaves the front of the text, and no token has an ellipsis.
      have hellipsis : Char.ofNat 0x2026 ∉ u := notMem_of_ofToken hu (by decide) (by decide)
      have hchar : (Char.ofNat 0x2026).toString.toList = [Char.ofNat 0x2026] := rfl
      rw [String.toList_append, hchar, Occurrences.infix_append_cons_iff hellipsis, sliceTo,
        String.toList_ofList] at h
      exact (h.resolve_right fun hnil => hne (List.infix_nil.mp hnil)).trans
        (List.take_prefix _ _).isInfix
    · exact h
  rw [hjoined, redact_ofList, String.toList_ofList] at hredacted
  exact infix_of_infix_sub proper_namedSecrets hne (namedSecrets_masksWithout hu) hredacted

/-- A bearer token: letters, digits and `-._~+/`, then any number of `=`. -/
def BearerToken (t : String) : Prop :=
  ∃ body n, t.toList = body ++ List.replicate n '=' ∧ ∀ c ∈ body, isBearerChar c = true

/-- A text shows neither the token nor an end of it of eight or more characters. -/
def Hides (t text : String) : Prop := ∀ u, u <:+ t.toList → 8 ≤ u.length → ¬u <:+: text.toList

/-- A token with its surroundings: they end and begin at whitespace or a quote, and none of the
texts around the token shows it. -/
structure BearerInput (p t s : String) : Prop where
  token : BearerToken t
  long : 8 ≤ t.length
  front : ∀ d ∈ p.toList.getLast?, isSpace d = true ∨ d = doubleQuote ∨ d = singleQuote
  back : ∀ d ∈ s.toList.head?, isSpace d = true ∨ d = doubleQuote ∨ d = singleQuote
  elsewhere : ∀ text ∈ [p, s, "Authorization: Bearer ", "***"], Hides t text

variable (unicodeAlnum) in
/-- Behind this text, the second pass does not take `Bearer` for the token of a scheme in front. -/
def KeepsBearer (p : String) : Prop :=
  ¬"***".toList <:+ (patternSub unicodeAlnum authSchemes (patternSub unicodeAlnum apiKeys
    (" ".intercalate (PyText.split (p ++ "Bearer"))))).toList

theorem keepsBearer_iff {p : String} : KeepsBearer unicodeAlnum p ↔
    ¬"***".toList <:+ authSchemes.sub (isWord unicodeAlnum) none
      (apiKeys.sub (isWord unicodeAlnum) none (squeeze (p.toList ++ bearer))) := by
  simp only [KeepsBearer, patternSub, bearer, String.toList_ofList, toList_join_split,
    String.toList_append]

theorem ofToken_of_bearerToken {t : String} (h : BearerToken t) : OfToken t.toList := by
  obtain ⟨body, n, ht, hbody⟩ := h
  intro c hc
  rw [ht, List.mem_append] at hc
  exact hc.imp (hbody c) fun hc => List.eq_of_mem_replicate hc

theorem isEdge_of_quote {d : Char} (h : d = ' ' ∨ (isSpace d = true ∨ d = doubleQuote ∨
    d = singleQuote) ∧ isSpace d = false) : IsEdge d := by
  rcases h with h | ⟨h | h, hspace⟩
  · exact .inl h
  · rw [h] at hspace
    cases hspace
  · exact .inr h

theorem solid_bearer : Solid bearer := by decide

theorem words_bearer : words bearer ≠ [] := by
  rw [words_of_solid solid_bearer (by decide)]
  exact List.cons_ne_nil _ _

theorem solid_authorization : Solid authorization := by decide

theorem toList_header :
    "Authorization: Bearer ".toList = authorization ++ ' ' :: (bearer ++ [' ']) := by decide

/-- A long end of a token ends in its last eight characters. -/
theorem hides_iff {t : String} (h : 8 ≤ t.length) (text : String) :
    Hides t text ↔ ¬t.toList.drop (t.length - 8) <:+: text.toList := by
  have hlength : (t.toList.drop (t.length - 8)).length = 8 := by
    rw [List.length_drop, String.length_toList]
    omega
  constructor
  · intro hhides
    exact hhides _ (List.drop_suffix _ _) hlength.ge
  · intro hout u hu hlong hin
    have hend : t.toList.drop (t.length - 8) <:+ u :=
      List.suffix_of_suffix_length_le (List.drop_suffix _ _) hu (by omega)
    exact hout (hend.isInfix.trans hin)

theorem sub_ascii {unicodeAlnum : Char → Bool} {rule : Rule} {cs : List Char}
    (h : cs.all (·.toNat < 128)) :
    rule.sub (isWord unicodeAlnum) none cs = rule.sub (isWord fun _ => false) none cs := by
  refine subFrom_congr rfl fun c hc => ?_
  unfold isWord
  have hascii : c.toNat < 128 := of_decide_eq_true (List.all_eq_true.mp h c hc)
  rw [if_pos hascii, if_pos hascii]

/-- The second pass stops at the `~` of a token. -/
theorem safeStr_tilde (unicodeAlnum : Char → Bool) :
    safeStr unicodeAlnum ("" ++ "Bearer " ++ "abcdefgh~ijklmnop" ++ "") defaultLimit
      = "Bearer ***~ijklmnop" := by
  have hjoined : " ".intercalate (PyText.split ("" ++ "Bearer " ++ "abcdefgh~ijklmnop" ++ ""))
      = String.ofList "Bearer abcdefgh~ijklmnop".toList := by decide +kernel
  have hfirst : apiKeys.sub (isWord unicodeAlnum) none "Bearer abcdefgh~ijklmnop".toList
      = "Bearer abcdefgh~ijklmnop".toList := (sub_ascii (by decide)).trans (by decide +kernel)
  have hsecond : authSchemes.sub (isWord unicodeAlnum) none "Bearer abcdefgh~ijklmnop".toList
      = "Bearer ***~ijklmnop".toList := (sub_ascii (by decide)).trans (by decide +kernel)
  have hthird : namedSecrets.sub (isWord unicodeAlnum) none "Bearer ***~ijklmnop".toList
      = "Bearer ***~ijklmnop".toList := (sub_ascii (by decide)).trans (by decide +kernel)
  unfold safeStr
  rw [hjoined, redact_ofList, hfirst, hsecond, hthird]
  rfl

end EvalOps.Obs

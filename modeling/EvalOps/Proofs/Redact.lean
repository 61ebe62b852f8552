import EvalOps.Obs.Redact
import Mathlib.Data.List.DropRight

/-!
# `EvalOps.Proofs.Redact`: redacting twice changes nothing

Each pass keeps the front of what it matches and masks the rest. The first two passes cannot match
a `*`, so a mask makes no match for them (`Regex.Rule.silent_sub`), and what they keep of a match is
shorter than every match (`Regex.Rule.silent_sub_self`). The third pass does match its own mask, in
the same place and with the same groups (`sub_namedSecrets_idem`).
-/

set_option autoImplicit false

namespace EvalOps.Obs

open Regex Regex.Rule

/-! ### What the patterns denote -/

/-- The letters of a pattern are matched once their case is ignored. -/
theorem denotes_letters {text : String} {t : List Char} :
    (letters text).Denotes t ↔ t.map foldCase = text.toList := by
  unfold letters
  generalize text.toList = cs
  induction cs generalizing t with
  | nil =>
      rw [List.foldr_nil, Denotes, List.map_eq_nil_iff]
  | cons c cs ih =>
      rw [List.foldr_cons, Denotes]
      constructor
      · rintro ⟨_, v, rfl, ⟨d, hd, rfl⟩, hv⟩
        rw [List.cons_append, List.nil_append, List.map_cons, ih.mp hv, beq_iff_eq.mp hd]
      · intro h
        cases t with
        | nil => cases h
        | cons d t =>
            obtain ⟨hd, ht⟩ := List.cons.inj (List.map_cons ▸ h)
            exact ⟨[d], t, rfl, ⟨d, beq_iff_eq.mpr hd, rfl⟩, ih.mpr ht⟩

/-- What the pattern matches is one of these texts, in any case. -/
def Spells (r : Regex) (texts : List (List Char)) : Prop :=
  ∀ t, r.Denotes t → t.map foldCase ∈ texts

theorem spells_letters (text : String) : Spells (letters text) [text.toList] :=
  fun _ ht => List.mem_singleton.mpr (denotes_letters.mp ht)

theorem Spells.alt {r r' : Regex} {us vs : List (List Char)} (hr : Spells r us)
    (hr' : Spells r' vs) : Spells (alt r r') (us ++ vs) :=
  fun t ht => List.mem_append.mpr (ht.imp (hr t) (hr' t))

theorem Spells.seq {r r' : Regex} {us vs : List (List Char)} (hr : Spells r us)
    (hr' : Spells r' vs) : Spells (seq r r') (us.flatMap fun u => vs.map (u ++ ·)) := by
  rintro _ ⟨u, v, rfl, hu, hv⟩
  rw [List.map_append, List.mem_flatMap]
  exact ⟨_, hr u hu, List.mem_map_of_mem (hr' v hv)⟩

theorem Spells.opt {r : Regex} {us : List (List Char)} (hr : Spells r us) :
    Spells (opt r) (us ++ [[]]) := by
  refine hr.alt fun t ht => ?_
  rw [show t = [] from ht]
  exact List.mem_singleton_self _

theorem spells_dash : Spells dash [['_'], ['-'], []] := by
  rintro _ (⟨c, hc, rfl⟩ | rfl)
  · rcases Bool.or_eq_true _ _ ▸ hc with hc | hc
    · rw [beq_iff_eq.mp hc]
      decide
    · rw [beq_iff_eq.mp hc]
      decide
  · decide

theorem Spells.mono {r : Regex} {us vs : List (List Char)} (hr : Spells r us)
    (h : ∀ u ∈ us, u ∈ vs) : Spells r vs :=
  fun t ht => h _ (hr t ht)

/-- The texts of `keyStart`, in lower case. -/
def keyStarts : List (List Char) :=
  ["sk-", "rk-", "pk-", "sk-ant-", "rk-ant-", "pk-ant-"].map String.toList

/-- The texts of `scheme`, in lower case. -/
def schemes : List (List Char) := ["bearer", "token", "basic"].map String.toList

/-- The texts of `secretName`, in lower case. -/
def secretNames : List (List Char) :=
  ["authorization", "apikey", "api_key", "api-key", "accesstoken", "access_token", "access-token",
    "secret", "password"].map String.toList

theorem spells_keyStart : Spells keyStart keyStarts := by
  refine Spells.mono (Spells.seq (Spells.alt (spells_letters "sk") (Spells.alt
    (spells_letters "rk") (spells_letters "pk"))) (Spells.seq (spells_letters "-")
      (spells_letters "ant-").opt)) ?_
  decide

theorem spells_scheme : Spells scheme schemes := by
  refine Spells.mono (Spells.alt (spells_letters "bearer") (Spells.alt (spells_letters "token")
    (spells_letters "basic"))) ?_
  decide

theorem spells_secretName : Spells secretName secretNames := by
  have hapi := Spells.seq (spells_letters "api") (spells_dash.seq (spells_letters "key"))
  have haccess := Spells.seq (spells_letters "access") (spells_dash.seq (spells_letters "token"))
  refine Spells.mono (Spells.alt (spells_letters "authorization") (hapi.alt (haccess.alt
    (Spells.alt (spells_letters "secret") (spells_letters "password"))))) ?_
  decide

/-! ### Classes of characters -/

theorem isAlphanum_toNat {c : Char} (h : c.isAlphanum = true) :
    (48 ≤ c.toNat ∧ c.toNat ≤ 57) ∨ (65 ≤ c.toNat ∧ c.toNat ≤ 90) ∨
      (97 ≤ c.toNat ∧ c.toNat ≤ 122) := by
  have hclasses : ((decide (65 ≤ c.val ∧ c.val ≤ 90) ||
      (decide (97 ≤ c.val) && decide (c.val ≤ 122))) ||
      (decide (48 ≤ c.val) && decide (c.val ≤ 57))) = true := h
  simp only [Bool.or_eq_true, Bool.and_eq_true, decide_eq_true_eq, UInt32.le_iff_toNat_le]
    at hclasses
  exact hclasses.symm

/-- The letters and digits of the patterns, by their code points. -/
theorem isAlnum_toNat {c : Char} (h : isAlnum c = true) :
    (48 ≤ c.toNat ∧ c.toNat ≤ 57) ∨ (65 ≤ c.toNat ∧ c.toNat ≤ 90) ∨
      (97 ≤ c.toNat ∧ c.toNat ≤ 122) ∨ c.toNat = 0x130 ∨ c.toNat = 0x131 ∨ c.toNat = 0x17F ∨
        c.toNat = 0x212A := by
  unfold isAlnum foldCase at h
  simp only at h
  split_ifs at h
  · omega
  · omega
  · omega
  · omega
  · have hrange := isAlphanum_toNat h
    omega

theorem isKeyChar_of_isAlnum {c : Char} (h : isAlnum c = true) : isKeyChar c = true := by
  simp [isKeyChar, h]

theorem isTokenChar_of_isAlnum {c : Char} (h : isAlnum c = true) : isTokenChar c = true := by
  simp [isTokenChar, h]

theorem isSpace_eq_false_of_isAlnum {c : Char} (h : isAlnum c = true) :
    PyText.isSpace c = false := by
  have hrange := isAlnum_toNat h
  simp only [PyText.isSpace, Bool.or_eq_false_iff, Bool.and_eq_false_iff, decide_eq_false_iff_not,
    beq_eq_false_iff_ne]
  omega

/-- A letter or digit is a part of a value. -/
theorem isValueChar_of_isAlnum {c : Char} (h : isAlnum c = true) : isValueChar c = true := by
  have hspace := isSpace_eq_false_of_isAlnum h
  have hother : ∀ d ∈ [PyText.doubleQuote, PyText.singleQuote, ',', Char.ofNat 125, ']'],
      (c == d) = false := by
    have hnone : ([PyText.doubleQuote, PyText.singleQuote, ',', Char.ofNat 125, ']'].all
        fun d => !isAlnum d) = true := by decide
    intro d hd
    rw [beq_eq_false_iff_ne]
    rintro rfl
    have hc := List.all_eq_true.mp hnone c hd
    rw [h] at hc
    cases hc
  simp only [List.forall_mem_cons] at hother
  obtain ⟨h₁, h₂, h₃, h₄, h₅, _⟩ := hother
  simp only [isValueChar, hspace, h₁, h₂, h₃, h₄, h₅, Bool.or_self, Bool.not_false]

/-- The separators have no case. -/
theorem foldCase_of_isSeparator {c : Char} (h : isSeparator c = true) : foldCase c = c := by
  have hrange : c.toNat ≤ 64 ∨ c.toNat = 0x85 ∨ c.toNat = 0xA0 ∨
      (0x1680 ≤ c.toNat ∧ c.toNat ≠ 0x212A) := by
    simp only [isSeparator, PyText.isSpace, Bool.or_eq_true, Bool.and_eq_true, beq_iff_eq,
      decide_eq_true_eq] at h
    rcases h with (((rfl | rfl) | h) | rfl) | rfl
    · decide
    · decide
    · omega
    · decide
    · decide
  unfold foldCase
  simp only
  split_ifs
  · omega
  · omega
  · omega
  · omega
  · rfl

/-- The name of a secret has no separator in it. -/
theorem notSeparator_of_secretName {name : List Char} (h : secretName.Denotes name) :
    ∀ c ∈ name, isSeparator c = false := by
  intro c hc
  by_contra hsep
  rw [Bool.not_eq_false] at hsep
  have hmem : c ∈ name.map foldCase := by
    rw [← foldCase_of_isSeparator hsep]
    exact List.mem_map_of_mem hc
  have hnames : (secretNames.all fun text => text.all fun d => !isSeparator d) = true := by
    decide
  have hall := List.all_eq_true.mp hnames _ (spells_secretName name h)
  have hc := List.all_eq_true.mp hall c hmem
  rw [hsep] at hc
  cases hc

/-! ### What the passes match -/

/-- A pattern whose matches begin with a letter, hold no `*` and end in something to mask. -/
structure Credential (rule : Rule) : Prop where
  proper : rule.Proper
  star : rule.body.Avoids '*'
  first : ∀ t, rule.body.Denotes t → ∀ c ∈ t.head?, isAlnum c = true
  last : ∀ t, rule.body.Denotes t → t.getLast? ≠ some ' '

theorem Spells.length {r : Regex} {texts : List (List Char)} (hr : Spells r texts) {n : ℕ}
    (hn : ∀ text ∈ texts, n ≤ text.length) {t : List Char} (ht : r.Denotes t) : n ≤ t.length := by
  rw [← List.length_map foldCase]
  exact hn _ (hr t ht)

/-- A text begins with a letter when its spellings do. -/
theorem Spells.first {r : Regex} {texts : List (List Char)} (hr : Spells r texts)
    (hfirst : (texts.all fun text => text.head?.any Char.isAlphanum) = true) {t : List Char}
    (ht : r.Denotes t) : ∃ c ∈ t.head?, isAlnum c = true := by
  have halnum := List.all_eq_true.mp hfirst _ (hr t ht)
  rw [List.head?_map] at halnum
  cases hhead : t.head? with
  | none =>
      rw [hhead] at halnum
      cases halnum
  | some d =>
      rw [hhead] at halnum
      exact ⟨d, rfl, halnum⟩

theorem first_of_append {u : List Char} (h : ∃ c ∈ u.head?, isAlnum c = true) (v : List Char) :
    ∀ c ∈ (u ++ v).head?, isAlnum c = true := by
  obtain ⟨c, hc, halnum⟩ := h
  intro d hd
  rw [List.head?_append, hc] at hd
  cases hd
  exact halnum

theorem last_of_run {u run : List Char} {n : ℕ} {p : Char → Bool} {a : Char}
    (hrun : (many (n + 1) p).Denotes run) (ha : p a = false) : (u ++ run).getLast? ≠ some a := by
  intro hlast
  have hne : run ≠ [] := by
    rintro rfl
    exact absurd hrun.1 (by simp)
  rw [List.getLast?_append_of_ne_nil _ hne] at hlast
  rw [hrun.2 a (List.mem_of_getLast? hlast)] at ha
  cases ha

theorem credential_apiKeys : Credential apiKeys where
  proper := by
    rintro ⟨u, v, h, _, hv⟩
    have hnil := (List.append_eq_nil_iff.mp h.symm).2
    exact absurd (hnil ▸ hv.1) (by simp)
  star := by decide
  first := by
    rintro _ ⟨u, v, rfl, hu, _⟩
    exact first_of_append (spells_keyStart.first (by decide) hu) v
  last := by
    rintro _ ⟨u, v, rfl, _, hv⟩
    exact last_of_run hv (by decide)

theorem credential_authSchemes : Credential authSchemes where
  proper := by
    rintro ⟨u, v, h, _, hv⟩
    have hnil := (List.append_eq_nil_iff.mp h.symm).2
    exact absurd (hnil ▸ hv.1) (by simp)
  star := by decide
  first := by
    rintro _ ⟨_, v, rfl, ⟨u, w, rfl, hu, _⟩, _⟩
    rw [List.append_assoc]
    exact first_of_append (spells_scheme.first (by decide) hu) _
  last := by
    rintro _ ⟨u, v, rfl, _, hv⟩
    exact last_of_run hv (by decide)

/-- The match of a repetition captures nothing. -/
theorem mem_hits_many {least : ℕ} {p : Char → Bool} {cs : List Char} {h : Hit}
    (hh : h ∈ hits (many least p) cs) :
    (many least p).Denotes h.text ∧ h = ⟨h.text, []⟩ := by
  have hgroups : h.groups = [] := groups_eq_nil (r := many least p) trivial hh
  obtain ⟨_, hdenotes⟩ := (exists_hit_iff _ cs h.text).mp ⟨h, hh, rfl⟩
  exact ⟨hdenotes, by rw [← hgroups]⟩

variable {unicodeAlnum : Char → Bool} {before : Option Char} {cs : List Char} {h : Hit}

/-- A match of an API key: its start is captured. -/
theorem hit_apiKeys (hh : apiKeys.hit (isWord unicodeAlnum) before cs = some h) :
    ∃ start key, h = ⟨start ++ key, [start]⟩ ∧ keyStart.Denotes start ∧
      (many 6 isKeyChar).Denotes key := by
  obtain ⟨ha, hmem, hb, hmem', rfl⟩ := mem_hits_seq.mp (List.mem_of_head? (head?_hits_of_hit hh))
  obtain ⟨start, _, hstart, rfl⟩ :=
    (mem_hits_group (r := keyStart) (by decide)).mp hmem
  obtain ⟨hkey, hgroups⟩ := mem_hits_many hmem'
  exact ⟨start, hb.text, by rw [hgroups]; rfl, hstart, hkey⟩

/-- A match of an HTTP auth scheme: the scheme is captured. -/
theorem hit_authSchemes (hh : authSchemes.hit (isWord unicodeAlnum) before cs = some h) :
    ∃ name spaces token, h = ⟨name ++ spaces ++ token, [name]⟩ ∧ scheme.Denotes name ∧
      (many 1 PyText.isSpace).Denotes spaces ∧ (many 6 isTokenChar).Denotes token := by
  obtain ⟨ha, hmem, hb, hmem', rfl⟩ := mem_hits_seq.mp (List.mem_of_head? (head?_hits_of_hit hh))
  obtain ⟨hc, hfirst, hd, hmem'', rfl⟩ := mem_hits_seq.mp hmem
  obtain ⟨name, _, hname, rfl⟩ :=
    (mem_hits_group (r := scheme) (by decide)).mp hfirst
  obtain ⟨htoken, hgroups⟩ := mem_hits_many hmem'
  obtain ⟨hspaces, hgroups'⟩ := mem_hits_many hmem''
  exact ⟨name, hd.text, hb.text, by rw [hgroups, hgroups']; rfl, hname, hspaces, htoken⟩

/-- A match of a named secret: the name and the separators are captured. -/
theorem hit_namedSecrets (hh : namedSecrets.hit (isWord unicodeAlnum) before cs = some h) :
    ∃ name seps value, h = ⟨name ++ seps ++ value, [name, seps]⟩ ∧ secretName.Denotes name ∧
      (many 1 isSeparator).Denotes seps ∧ (many 1 isValueChar).Denotes value := by
  obtain ⟨ha, hmem, hb, hmem', rfl⟩ := mem_hits_seq.mp (List.mem_of_head? (head?_hits_of_hit hh))
  obtain ⟨hc, hfirst, hd, hmem'', rfl⟩ := mem_hits_seq.mp hmem
  obtain ⟨name, _, hname, rfl⟩ :=
    (mem_hits_group (r := secretName) (by decide)).mp hfirst
  obtain ⟨seps, _, hseps, rfl⟩ := (mem_hits_group (r := many 1 isSeparator) trivial).mp hmem''
  obtain ⟨hvalue, hgroups⟩ := mem_hits_many hmem'
  exact ⟨name, seps, hb.text, by rw [hgroups]; rfl, hname, hseps, hvalue⟩

/-! ### The first two passes -/

theorem Credential.opaque_stars {other : Rule} (hother : Credential other) :
    other.Opaque "***".toList := by
  refine opaque_of_forall fun c hc => ?_
  have hstars : "***".toList = List.replicate 3 '*' := by decide
  rw [hstars] at hc
  rw [List.eq_of_mem_replicate hc]
  exact hother.star

/-- No match begins behind a match that goes on as far as its class allows. -/
theorem Credential.stop {rule other : Rule} (hother : Credential other) {front : Regex} {least : ℕ}
    {p : Char → Bool} (hbody : rule.body = seq front (many least p))
    (hp : ∀ c, isAlnum c = true → p c = true) {rest t : List Char}
    (hh : rule.hit (isWord unicodeAlnum) before (h.text ++ rest) = some h)
    (ht : other.body.Denotes t) : t.head? ≠ rest.head? := by
  intro hhead
  obtain ⟨c, t, rfl⟩ := List.exists_cons_of_ne_nil fun hnil => hother.proper (hnil ▸ ht)
  have hstop := stops_of_hit hbody hh c hhead.symm
  rw [hp c (hother.first _ ht c rfl)] at hstop
  cases hstop

theorem masks_apiKeys {other : Rule} (hother : Credential other) :
    Masks (isWord unicodeAlnum) apiKeys other "***".toList where
  cut hh := by
    obtain ⟨start, key, rfl, hstart, _⟩ := hit_apiKeys hh
    have hlength := spells_keyStart.length (n := 1) (by decide) hstart
    rw [List.flatten_singleton]
    exact ⟨rfl, List.ne_nil_of_length_pos hlength, List.prefix_append start key⟩
  stop hh ht := hother.stop rfl (fun _ => isKeyChar_of_isAlnum) hh ht
  hides := hother.opaque_stars
  shows := by decide

theorem masks_authSchemes {other : Rule} (hother : Credential other) :
    Masks (isWord unicodeAlnum) authSchemes other " ***".toList where
  cut hh := by
    obtain ⟨name, spaces, token, rfl, hname, _⟩ := hit_authSchemes hh
    have hlength := spells_scheme.length (n := 1) (by decide) hname
    rw [List.flatten_singleton, List.append_assoc]
    exact ⟨rfl, List.ne_nil_of_length_pos hlength, List.prefix_append name _⟩
  stop hh ht := hother.stop rfl (fun _ => isTokenChar_of_isAlnum) hh ht
  hides := by
    have hmask : " ***".toList = ' ' :: "***".toList := by decide
    rw [hmask]
    exact opaque_cons (by decide) hother.opaque_stars hother.last
  shows := by decide

theorem masks_namedSecrets {other : Rule} (hother : Credential other) :
    Masks (isWord unicodeAlnum) namedSecrets other "***".toList where
  cut hh := by
    obtain ⟨name, seps, value, rfl, hname, _⟩ := hit_namedSecrets hh
    have hlength := spells_secretName.length (n := 1) (by decide) hname
    have hflatten : [name, seps].flatten = name ++ seps := by simp
    rw [hflatten]
    exact ⟨rfl, List.append_ne_nil_of_left_ne_nil (List.ne_nil_of_length_pos hlength) seps,
      List.prefix_append (name ++ seps) value⟩
  stop hh ht := hother.stop rfl (fun _ => isValueChar_of_isAlnum) hh ht
  hides := hother.opaque_stars
  shows := by decide

variable (unicodeAlnum) in
/-- After the first pass there is no API key. -/
theorem silent_apiKeys (before : Option Char) (cs : List Char) :
    apiKeys.Silent (isWord unicodeAlnum) before
      (apiKeys.sub (isWord unicodeAlnum) before cs) := by
  refine silent_sub_self credential_apiKeys.proper (masks_apiKeys credential_apiKeys) ?_ before cs
  intro before cs h t hh ht
  -- What is kept has at most seven characters, and a key at least nine.
  obtain ⟨start, key, rfl, hstart, _⟩ := hit_apiKeys hh
  obtain ⟨u, v, rfl, hu, hv⟩ := ht
  have hkept : start.length ≤ 7 := by
    have hall : ∀ text ∈ keyStarts, text.length ≤ 7 := by decide
    simpa using hall _ (spells_keyStart start hstart)
  have hlength := spells_keyStart.length (n := 3) (by decide) hu
  have hlong := hv.1
  rw [List.flatten_singleton, List.length_append]
  omega

variable (unicodeAlnum) in
/-- After the second pass there is no HTTP auth scheme with its token. -/
theorem silent_authSchemes (before : Option Char) (cs : List Char) :
    authSchemes.Silent (isWord unicodeAlnum) before
      (authSchemes.sub (isWord unicodeAlnum) before cs) := by
  refine silent_sub_self credential_authSchemes.proper
    (masks_authSchemes credential_authSchemes) ?_ before cs
  intro before cs h t hh ht
  -- What is kept has at most six characters, and a scheme with its token at least twelve.
  obtain ⟨name, spaces, token, rfl, hname, _⟩ := hit_authSchemes hh
  obtain ⟨_, v, rfl, ⟨u, w, rfl, hu, hw⟩, hv⟩ := ht
  have hkept : name.length ≤ 6 := by
    have hall : ∀ text ∈ schemes, text.length ≤ 6 := by decide
    simpa using hall _ (spells_scheme name hname)
  have hlong := hv.1
  have hspace := hw.1
  rw [List.flatten_singleton, List.length_append, List.length_append]
  omega

/-! ### The third pass -/

theorem proper_namedSecrets : namedSecrets.Proper := by
  rintro ⟨u, v, h, _, hv⟩
  have hnil := (List.append_eq_nil_iff.mp h.symm).2
  exact absurd (hnil ▸ hv.1) (by simp)

/-- At one place there is at most one name. -/
theorem secretName_unique {u v cs : List Char} (hu : secretName.Denotes u)
    (hv : secretName.Denotes v) (hucs : u <+: cs) (hvcs : v <+: cs) : u = v := by
  have hnames : ∀ a ∈ secretNames, ∀ b ∈ secretNames, a <+: b → a = b := by decide
  wlog hle : u.length ≤ v.length generalizing u v
  · exact (this hv hu hvcs hucs (by omega)).symm
  have huv : u <+: v := List.prefix_of_prefix_length_le hucs hvcs hle
  have hfold := hnames _ (spells_secretName u hu) _ (spells_secretName v hv)
    (huv.map foldCase)
  have hlength := congrArg List.length hfold
  rw [List.length_map, List.length_map] at hlength
  exact huv.eq_of_length hlength

/-- No name ends in another one. -/
theorem secretName_ends {u v : List Char} (huv : secretName.Denotes (u ++ v))
    (hv : secretName.Denotes v) : u = [] := by
  have hnames : ∀ a ∈ secretNames, ∀ b ∈ secretNames, b <:+ a → b = a := by decide
  have hfold := hnames _ (spells_secretName _ huv) _ (spells_secretName v hv)
    ((List.suffix_append u v).map foldCase)
  have hlength := congrArg List.length hfold
  rw [List.length_map, List.length_map, List.length_append] at hlength
  exact List.length_eq_zero_iff.mp (by omega)

/-- What stands in front of the separators that end a text. -/
theorem rdropWhile_separators {u name seps : List Char} (hname : secretName.Denotes name)
    (hseps : ∀ c ∈ seps, isSeparator c = true) :
    (u ++ name ++ seps).rdropWhile isSeparator = u ++ name := by
  have hlength := spells_secretName.length (n := 1) (by decide) hname
  obtain ⟨front, c, hlast⟩ := List.eq_nil_or_concat name |>.resolve_left
    (List.ne_nil_of_length_pos hlength)
  rw [List.concat_eq_append] at hlast
  have hc : isSeparator c = false :=
    notSeparator_of_secretName hname c (hlast ▸ List.mem_append_right _ List.mem_cons_self)
  rw [List.rdropWhile, List.reverse_append,
    List.dropWhile_append_of_pos fun d hd => hseps d (List.mem_reverse.mp hd),
    hlast, ← List.append_assoc, List.reverse_append]
  show ((c :: (u ++ front).reverse).dropWhile isSeparator).reverse = _
  rw [List.dropWhile_cons_of_neg (by simp [hc]), List.reverse_cons, List.reverse_reverse]

/-- The front of a match, up to the first character of its value, that ends where a masked match
follows stands in the text itself: it does not reach into the mask, since no name ends in another
one. -/
theorem prefix_of_masked {xs ys : List Char} (hscan : namedSecrets.Scan (isWord unicodeAlnum)
    before xs ys) {u name seps : List Char} {d : Char} (hu : u ≠ [])
    (hname : secretName.Denotes name) (hseps : ∀ c ∈ seps, isSeparator c = true)
    (h : name ++ seps ++ [d] <+: u ++ ys) : name ++ seps ++ [d] <+: u ++ xs := by
  induction hscan generalizing u with
  | nil => exact h
  | keep _ _ ih =>
      rw [List.append_cons u] at h ⊢
      exact ih (List.append_ne_nil_of_left_ne_nil hu _) h
  | @mask before hit xs ys hh _ _ =>
      obtain ⟨name', seps', value, rfl, hname', hseps', _⟩ := hit_namedSecrets hh
      have hmask : namedSecrets.replacement [name', seps'] = name' ++ seps' ++ "***".toList := rfl
      have hkept :
          u ++ (name' ++ seps') <+: u ++ (namedSecrets.replacement [name', seps'] ++ ys) := by
        rw [hmask, List.append_assoc]
        exact (List.prefix_append_right_inj u).mpr (List.prefix_append _ _)
      have hfront : u ++ (name' ++ seps') <+: u ++ (name' ++ seps' ++ value ++ xs) := by
        rw [List.append_assoc (name' ++ seps')]
        exact (List.prefix_append_right_inj u).mpr (List.prefix_append _ _)
      rcases List.prefix_or_prefix_of_prefix h hkept with hshort | hlong
      · exact hshort.trans hfront
      rcases List.prefix_concat_iff.mp hlong with heq | ⟨more, hmore⟩
      · rw [← heq]
        exact hfront
      -- The match reaches the mask with its last character only, since the others are no `*`.
      rw [← hmore, hmask] at h
      simp only [List.append_assoc, List.prefix_append_right_inj] at h
      cases more with
      | nil =>
          rw [List.append_nil, ← List.append_assoc] at hmore
          have hleft := rdropWhile_separators (u := u) hname' hseps'.2
          rw [hmore] at hleft
          have hright := rdropWhile_separators (u := []) hname hseps
          rw [List.nil_append, hleft] at hright
          rw [← hright] at hname
          exact absurd (secretName_ends hname hname') hu
      | cons m more =>
          have hm : m = '*' := (List.cons_prefix_cons.mp h).1
          have hmem : '*' ∈ name ++ seps := by
            rw [← hmore, hm]
            exact List.mem_append_right _ List.mem_cons_self
          rcases List.mem_append.mp hmem with hmem | hmem
          · exact absurd hmem (notMem_of_denotes (by decide) hname)
          · exact absurd (hseps _ hmem) (by decide)

/-- A masked match is matched again, and nothing else with it. -/
theorem hit_masked {name seps rest : List Char} (hname : secretName.Denotes name)
    (hseps : (many 1 isSeparator).Denotes seps) (hrest : ∀ c ∈ rest.head?, isValueChar c = false) :
    namedSecrets.hit (isWord unicodeAlnum) before (name ++ seps ++ "***".toList ++ rest)
      = some ⟨name ++ seps ++ "***".toList, [name, seps]⟩ := by
  generalize hcs : name ++ seps ++ "***".toList ++ rest = cs
  have hstars : ∀ c ∈ "***".toList, isValueChar c = true ∧ isSeparator c = false := by
    have hstar : "***".toList = List.replicate 3 '*' := by decide
    intro c hc
    rw [hstar] at hc
    rw [List.eq_of_mem_replicate hc]
    decide
  have hname_front : name <+: cs := by
    rw [← hcs, List.append_assoc, List.append_assoc]
    exact List.prefix_append name _
  -- Every match of a name here is this name.
  have hfirst : (hits (group secretName) cs).head? = some ⟨name, [name]⟩ := by
    obtain ⟨h, hmem⟩ : ∃ h, (hits (group secretName) cs).head? = some h := by
      rw [← Option.ne_none_iff_exists', ne_eq, List.head?_eq_none_iff]
      exact List.ne_nil_of_mem ((mem_hits_group (by decide)).mpr
        ⟨name, hname_front, hname, rfl⟩)
    obtain ⟨t, ht, hdenotes, rfl⟩ := (mem_hits_group (r := secretName) (by decide)).mp
      (List.mem_of_head? hmem)
    rw [hmem, secretName_unique hdenotes hname ht hname_front]
  -- The separators end at the mask, and the mask is the value.
  have hsecond : (hits (group (many 1 isSeparator)) (cs.drop name.length)).head?
      = some ⟨seps, [seps]⟩ := by
    rw [← hcs, List.append_assoc, List.append_assoc, List.drop_left, hits, List.head?_map,
      head?_hits_run hseps]
    · rfl
    · intro c hc
      exact (hstars c (List.mem_of_mem_head? hc)).2
  have hthird : (hits (many 1 isValueChar) (cs.drop (name ++ seps).length)).head?
      = some ⟨"***".toList, []⟩ := by
    rw [← hcs, List.append_assoc, List.drop_left, head?_hits_run ⟨by decide, ?_⟩ hrest]
    exact fun c hc => (hstars c hc).1
  rw [hit, if_neg (by simp [namedSecrets])]
  exact head?_hits_seq_of_head (head?_hits_seq_of_head hfirst hsecond) hthird

/-- Masking the values of named secrets a second time changes nothing. -/
theorem Scan.sub_namedSecrets {xs ys : List Char}
    (hscan : namedSecrets.Scan (isWord unicodeAlnum) before xs ys) (after : Option Char) :
    namedSecrets.sub (isWord unicodeAlnum) after ys = ys := by
  induction hscan generalizing after with
  | nil => rfl
  | @keep before c xs ys hh hscan ih =>
      rw [sub_of_hit_eq_none, ih]
      -- A match here would already stand in the text, where there is none.
      refine (hit_eq_none_iff proper_namedSecrets).mpr fun t ht => ?_
      obtain ⟨_, value, rfl, ⟨name, seps, rfl, hname, hseps⟩, hvalue⟩ := ht.denotes
      obtain ⟨d, value, rfl⟩ := List.exists_cons_of_length_pos hvalue.1
      have hfront : name ++ seps ++ [d] <+: [c] ++ ys := by
        have hprefix := ht.front
        rw [List.append_cons] at hprefix
        exact (List.prefix_append _ _).trans hprefix
      have htext := prefix_of_masked hscan (List.cons_ne_nil c []) hname hseps.2 hfront
      refine (hit_eq_none_iff proper_namedSecrets).mp hh _ ⟨htext, ?_, fun h => by cases h⟩
      exact ⟨_, [d], rfl, ⟨name, seps, rfl, hname, hseps⟩, by simp,
        fun e he => hvalue.2 e (List.mem_singleton.mp he ▸ List.mem_cons_self)⟩
  | @mask before h xs ys hh hscan ih =>
      have hstop : ∀ c ∈ ys.head?, isValueChar c = false := by
        rw [hscan.head?_eq (masks_namedSecrets credential_apiKeys)]
        exact stops_of_head?_hits (head?_hits_of_hit hh)
      obtain ⟨name, seps, value, rfl, hname, hseps, _⟩ := hit_namedSecrets hh
      have hagain :
          namedSecrets.hit (isWord unicodeAlnum) after (name ++ seps ++ "***".toList ++ ys)
          = some ⟨name ++ seps ++ "***".toList, [name, seps]⟩ := hit_masked hname hseps hstop
      have hsub := sub_of_hit (h := ⟨name ++ seps ++ "***".toList, [name, seps]⟩)
        proper_namedSecrets hagain
      rw [ih] at hsub
      exact hsub

/-- A text is redacted in three passes. -/
theorem redact_ofList (unicodeAlnum : Char → Bool) (cs : List Char) :
    redact unicodeAlnum (String.ofList cs)
      = String.ofList (namedSecrets.sub (isWord unicodeAlnum) none
          (authSchemes.sub (isWord unicodeAlnum) none
            (apiKeys.sub (isWord unicodeAlnum) none cs))) := by
  simp only [redact, redactions, List.foldl_cons, List.foldl_nil, patternSub,
    String.toList_ofList]

/-- Masking credential-shaped parts of a text twice is masking them once. -/
theorem redact_idempotent (unicodeAlnum : Char → Bool) (text : String) :
    redact unicodeAlnum (redact unicodeAlnum text) = redact unicodeAlnum text := by
  obtain ⟨cs, rfl⟩ : ∃ cs, text = String.ofList cs := ⟨text.toList, String.ofList_toList.symm⟩
  rw [redact_ofList, redact_ofList]
  generalize hx : apiKeys.sub (isWord unicodeAlnum) none cs = x
  generalize hy : authSchemes.sub (isWord unicodeAlnum) none x = y
  generalize hz : namedSecrets.sub (isWord unicodeAlnum) none y = z
  have hauth := credential_authSchemes.proper
  have hkeys : apiKeys.Silent (isWord unicodeAlnum) none z := by
    have hkeysx := silent_apiKeys unicodeAlnum none cs
    have hkeysy := silent_sub hauth credential_apiKeys.proper
      (masks_authSchemes credential_apiKeys) hkeysx
    have hkeysz := silent_sub proper_namedSecrets credential_apiKeys.proper
      (masks_namedSecrets credential_apiKeys) hkeysy
    rwa [hx, hy, hz] at hkeysz
  have hschemes : authSchemes.Silent (isWord unicodeAlnum) none z := by
    have hschemesy := silent_authSchemes unicodeAlnum none x
    have hschemesz := silent_sub proper_namedSecrets hauth
      (masks_namedSecrets credential_authSchemes) hschemesy
    rwa [hy, hz] at hschemesz
  have hscan : namedSecrets.Scan (isWord unicodeAlnum) none y z := by
    rw [← hz]
    exact scan_sub proper_namedSecrets none y
  rw [sub_of_silent credential_apiKeys.proper hkeys, sub_of_silent hauth hschemes,
    Scan.sub_namedSecrets hscan none]

end EvalOps.Obs

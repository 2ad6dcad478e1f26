import Mathlib
import SereinGateway.Core.LogMatches

/-!
The rules on a line with a secret.

A line is a prefix, a keyword, separators, a value and a rest. Each rule is
followed through it from the left. A match that begins in the prefix and reaches
into the keyword swallows the keyword, and where it ends is decided by the
separators. If no match does, then the rule does to the prefix what it does to it
alone, and the search comes to the keyword.
-/

namespace SereinGateway.Core

open SereinGateway.Lib

/-- A keyword, separators behind it, and what may follow the value. -/
structure KeyValueLine (k s q : List Char) : Prop where
  key : k ∈ keyword.language
  separated : s ≠ []
  separators : ∀ c ∈ s, separatorChar c = true
  rest : ∀ c t, q = c :: t → valueChar c = false

/-- What the rules see of an alphanumeric value of at least eight characters. -/
structure SecretText (v : List Char) : Prop where
  long : 8 ≤ v.length
  query : ∀ c ∈ v, queryChar c = true
  value : ∀ c ∈ v, valueChar c = true
  plain : ∀ c ∈ v, separatorChar c = false ∧ c ≠ '?'

/-- A match of the rule that begins in `p` reaches into what follows. -/
def Swallows (rule : SanitizationRule) (p z : List Char) : Prop :=
  ∃ ps m, rule.finder.Crosses p z ps m

/-- The text with the matches replaced. -/
def SanitizationRule.render (rule : SanitizationRule)
    (ps : List (Chunk Char (List Char × List Char))) : List Char :=
  ps.flatMap (Chunk.replaced fun m => rule.replacement m.1)

theorem SanitizationRule.replaceAll_eq (rule : SanitizationRule) (x : List Char) :
    rule.replaceAll x = rule.render (rule.finder.scan [] x) := rfl

@[simp] theorem SanitizationRule.render_append (rule : SanitizationRule)
    (ps ps' : List (Chunk Char (List Char × List Char))) :
    rule.render (ps ++ ps') = rule.render ps ++ rule.render ps' := List.flatMap_append

@[simp] theorem SanitizationRule.render_hit (rule : SanitizationRule) (m : List Char × List Char)
    (ps : List (Chunk Char (List Char × List Char))) :
    rule.render (.hit m :: ps) = rule.replacement m.1 ++ rule.render ps := List.flatMap_cons

@[simp] theorem SanitizationRule.render_plains (rule : SanitizationRule) (x : List Char) :
    rule.render (x.map .plain) = x := by
  rw [render, List.flatMap_map]
  exact List.flatMap_singleton' x

@[simp] theorem SanitizationRule.text_finder (rule : SanitizationRule)
    (m : List Char × List Char) : rule.finder.text m = m.1 ++ m.2 := rfl

/-- A rule on a line. If what crosses into the keyword does not depend on what is behind
the keyword, the rule swallows the keyword, or passes it. -/
theorem SanitizationRule.line_cases {rule : SanitizationRule} {k new : List Char}
    {behind : List Char → List Char} (hlocal : rule.finder.Local)
    (hlong : ∀ y, y ≠ [] → ∀ e e', rule.finder.Long y (k ++ e) → rule.finder.Long y (k ++ e'))
    (hmatch : ∀ y e m rest, y ≠ [] → rule.finder.find [] (y ++ (k ++ e)) = some m →
      y.length < (rule.finder.text m).length → y ++ (k ++ e) = rule.finder.text m ++ rest →
      rule.replacement m.1 = new ∧ rest = behind e) (p : List Char) :
    (Swallows rule p k ∧ ∃ a, ∀ e, rule.replaceAll (p ++ (k ++ e)) =
      a ++ (new ++ rule.replaceAll (behind e))) ∨
    ¬Swallows rule p k ∧ ∀ e, rule.replaceAll (p ++ (k ++ e)) =
      rule.replaceAll p ++ rule.replaceAll (k ++ e) := by
  rcases hlocal.crosses_or (z := fun e => k ++ e) hlong p with ⟨ps, hps⟩ | hnot
  · left
    refine ⟨?_, rule.render ps, fun e => ?_⟩
    · obtain ⟨m, hm⟩ := hps []
      exact ⟨ps, m, by simpa using hm⟩
    · obtain ⟨m, hm⟩ := hps e
      obtain ⟨y, rest, rfl, hy, hfind, hlen, hrest, hscan⟩ := hlocal.crosses_find hm
      obtain ⟨hnew, rfl⟩ := hmatch y e m rest hy hfind hlen hrest
      rw [SanitizationRule.replaceAll_eq, hscan, SanitizationRule.render_append,
        SanitizationRule.render_hit, hnew]
      rfl
  · refine .inr ⟨by simpa [Swallows] using (hnot []).1, fun e => ?_⟩
    rw [SanitizationRule.replaceAll_eq, (hnot e).2, SanitizationRule.render_append]
    rfl

section Line

variable {k s v q p y : List Char} {c : Char}

theorem keyword_first (hk : k ∈ keyword.language) :
    ∃ c t, k = c :: t ∧ KeywordChar c ∧ foldCase c ∈ ['a', 't', 's', 'p'] := by
  have hall :
      sensitiveWords.all (fun w => w.head?.any (['a', 't', 's', 'p'].contains ·)) = true := by
    decide +kernel
  have hfirst := List.all_eq_true.mp hall _ (mem_sensitiveWords hk)
  cases k with
  | nil => cases hfirst
  | cons c t =>
      refine ⟨c, t, rfl, keywordChar_of_mem hk List.mem_cons_self, ?_⟩
      simpa using hfirst

theorem separatorChar_of_keywordChar (h : KeywordChar c) : separatorChar c = false := by
  simp [separatorChar, h.not_space, h.ne (d := '"'), h.ne (d := ':'), h.ne (d := '=')]

theorem valueChar_of_keywordChar (h : KeywordChar c) : valueChar c = true := by
  simp [valueChar, h.not_space,
    h.ne (d := '"'), h.ne (d := '\x7b'), h.ne (d := '\x7d'), h.ne (d := ',')]

theorem queryChar_of_keywordChar (h : KeywordChar c) : queryChar c = true := by
  simp [queryChar, h.not_space, h.ne (d := '&')]

theorem tokenChar_of_keywordChar (h : KeywordChar c) : tokenChar c = true := by
  rcases h with h | rfl | rfl
  · simp [tokenChar, h]
  · rfl
  · rfl

theorem local_finder {rule : SanitizationRule} (hgroup : rule.group.Free) (hrest : rule.rest.Free) :
    rule.finder.Local :=
  Regex.local_groupFinder hgroup hrest rule.nonempty

theorem free_atLeast (f : Char → Bool) (n : ℕ) : (Regex.atLeast f n).Free :=
  ⟨Regex.Free.times (r := .one f) trivial n, trivial⟩

theorem local_apiKeyQuery : apiKeyQuery.finder.Local :=
  local_finder trivial ⟨free_spelled _, free_atLeast _ 1⟩

theorem local_bearerToken : bearerToken.finder.Local :=
  local_finder trivial ⟨free_folded _, free_atLeast _ 1, free_atLeast _ 1, trivial⟩

theorem local_sensitiveKeyValue : sensitiveKeyValue.finder.Local :=
  local_finder free_keyword ⟨free_atLeast _ 1, free_atLeast _ 8⟩

theorem local_emailAddress : emailAddress.finder.Local :=
  local_finder trivial ⟨free_atLeast _ 1, trivial, free_atLeast _ 1, trivial, free_atLeast _ 2⟩

theorem length_keyword (hk : k ∈ keyword.language) : 5 ≤ k.length := by
  have hall : ∀ w ∈ sensitiveWords, 5 ≤ w.length := by decide +kernel
  simpa using hall _ (mem_sensitiveWords hk)

/-- No keyword begins with an end of the text. -/
def meetsNoKeyword (l : List Char) : Bool :=
  l.tail.tails.all fun a => a.isEmpty || sensitiveWords.all fun w => !a.isPrefixOf w

/-- A text that begins before a keyword ends before it, if no keyword begins with
its end. -/
theorem append_keyword_cases {u x e l : List Char} (hk : k ∈ keyword.language) (hy : y ≠ [])
    (hu : u.map foldCase = l) (hlen : l.length ≤ 6) (hl : meetsNoKeyword l = true)
    (h : y ++ (k ++ e) = u ++ x) : ∃ y', y = u ++ y' ∧ x = y' ++ (k ++ e) := by
  rcases List.append_eq_append_iff.mp h with ⟨a, rfl, hrest⟩ | ⟨y', rfl, rfl⟩
  · cases a with
    | nil => exact ⟨[], by simp, by simpa using hrest.symm⟩
    | cons d a =>
        have hlong := length_keyword hk
        obtain ⟨b, y, rfl⟩ := List.exists_cons_of_ne_nil hy
        have hulen : (b :: y ++ d :: a).length ≤ 6 := by simpa [← hu] using hlen
        rw [List.length_append, List.length_cons] at hulen
        have hpre : (d :: a).map foldCase <+: k.map foldCase :=
          (List.prefix_of_prefix_length_le ⟨x, hrest.symm⟩ (List.prefix_append k e)
            (by omega)).map foldCase
        have hmem : (d :: a).map foldCase ∈ l.tail.tails := by
          rw [← hu, List.mem_tails]
          exact ⟨y.map foldCase, by simp⟩
        have hno := List.all_eq_true.mp hl _ hmem
        rw [List.map_cons, List.isEmpty_cons, Bool.false_or, ← List.map_cons] at hno
        have hword := List.all_eq_true.mp hno _ (mem_sensitiveWords hk)
        rw [List.isPrefixOf_iff_prefix.mpr hpre] at hword
        cases hword
  · exact ⟨y', rfl, rfl⟩

/-! ### The rule for queries -/

/-- Before a keyword, a match goes on from the prefix if nothing in the prefix
stops it. -/
theorem long_apiKeyQuery (hk : k ∈ keyword.language) (hy : y ≠ []) (e : List Char) :
    apiKeyQuery.finder.Long y (k ++ e) ↔
      ∃ y', y = "?key=".toList ++ y' ∧ ∀ c ∈ y', queryChar c = true := by
  constructor
  · rintro ⟨m, hm, hlen⟩
    obtain ⟨x, hx, -, rfl⟩ := find_apiKeyQuery.mp hm
    obtain ⟨y', rfl, rfl⟩ := append_keyword_cases hk hy rfl (by decide) (by decide +kernel) hx
    refine ⟨y', rfl, ?_⟩
    rcases takeWhile_append_cases queryChar y' (k ++ e) with ⟨hall, -⟩ | ⟨-, htake⟩
    · exact hall
    · have hle : (y'.takeWhile queryChar).length ≤ y'.length :=
        (List.takeWhile_prefix queryChar).length_le
      rw [htake] at hlen
      change _ < ([] ++ ("?key=".toList ++ _)).length at hlen
      simp only [List.length_append, List.nil_append] at hlen
      omega
  · obtain ⟨d, t, rfl, hd, -⟩ := keyword_first hk
    rintro ⟨y', rfl, hall⟩
    refine ⟨_, find_apiKeyQuery.mpr ⟨y' ++ (d :: t ++ e), List.append_assoc .., ?_, rfl⟩, ?_⟩
    · rw [List.takeWhile_append_of_pos hall, List.cons_append,
        List.takeWhile_cons_of_pos (queryChar_of_keywordChar hd)]
      simp
    · show _ < ([] ++ ("?key=".toList ++ _)).length
      rw [List.takeWhile_append_of_pos hall, List.cons_append,
        List.takeWhile_cons_of_pos (queryChar_of_keywordChar hd)]
      simp

/-- The search passes a text without a question mark. -/
theorem scan_apiKeyQuery_plains (h : '?' ∉ y) (z : List Char) :
    apiKeyQuery.finder.scan [] (y ++ z) = y.map .plain ++ apiKeyQuery.finder.scan [] z := by
  refine local_apiKeyQuery.scan_plains fun x hx hne => ?_
  obtain ⟨c, x, rfl⟩ := List.exists_cons_of_ne_nil hne
  rw [Option.eq_none_iff_forall_ne_some]
  intro m hm
  obtain ⟨x', hx', -⟩ := find_apiKeyQuery.mp hm
  obtain ⟨rfl, -⟩ := List.cons.inj hx'
  exact h (hx.subset List.mem_cons_self)

theorem apiKeyQuery_line (hk : k ∈ keyword.language) (p : List Char) :
    (Swallows apiKeyQuery p k ∧ ∃ a, ∀ e, apiKeyQuery.replaceAll (p ++ (k ++ e)) =
      a ++ ("?key=[REDACTED]".toList ++ apiKeyQuery.replaceAll (e.dropWhile queryChar))) ∨
    ¬Swallows apiKeyQuery p k ∧ ∀ e, apiKeyQuery.replaceAll (p ++ (k ++ e)) =
      apiKeyQuery.replaceAll p ++ apiKeyQuery.replaceAll (k ++ e) := by
  refine SanitizationRule.line_cases local_apiKeyQuery
    (fun y hy e e' h => (long_apiKeyQuery hk hy e').mpr ((long_apiKeyQuery hk hy e).mp h)) ?_ p
  intro y e m rest hy hfind hlen hrest
  obtain ⟨y', rfl, hall⟩ := (long_apiKeyQuery hk hy e).mp ⟨m, hfind, hlen⟩
  obtain ⟨x, hx, -, rfl⟩ := find_apiKeyQuery.mp hfind
  rw [List.append_assoc, List.append_cancel_left_eq] at hx
  refine ⟨rfl, ?_⟩
  change _ = [] ++ ("?key=".toList ++ _) ++ rest at hrest
  rw [← hx, List.takeWhile_append_of_pos hall, List.takeWhile_append_of_pos fun c hc =>
    queryChar_of_keywordChar (keywordChar_of_mem hk hc)] at hrest
  simp only [List.nil_append, List.append_assoc, List.append_cancel_left_eq] at hrest
  exact List.append_cancel_left (hrest.symm.trans List.takeWhile_append_dropWhile.symm)

/-! ### The rule for bearer tokens -/

theorem bearerTail_append {w z : List Char} (hw : w ≠ []) (hspace : ∀ c ∈ w, isWhitespace c = true)
    (hz : ∀ c t, z = c :: t → isWhitespace c = false) :
    bearerTail (w ++ z) = if z.takeWhile tokenChar = [] then none
      else some (w ++ (z.takeWhile tokenChar ++ (z.dropWhile tokenChar).takeWhile (· == '='))) := by
  have htake : z.takeWhile isWhitespace = [] ∧ z.dropWhile isWhitespace = z := by
    cases z with
    | nil => exact ⟨rfl, rfl⟩
    | cons c t =>
        have hc := hz c t rfl
        exact ⟨List.takeWhile_cons_of_neg (by simp [hc]), List.dropWhile_cons_of_neg (by simp [hc])⟩
  simp only [bearerTail, List.takeWhile_append_of_pos hspace, List.dropWhile_append_of_pos hspace,
    htake, List.append_nil, hw, false_or]

theorem find_bearerToken_line {u w t : List Char} (hk : k ∈ keyword.language)
    (hu : u.map foldCase = "bearer".toList) (hw : w ≠ []) (hspace : ∀ c ∈ w, isWhitespace c = true)
    (htoken : ∀ c ∈ t, tokenChar c = true) (e : List Char) :
    bearerToken.finder.find [] ((u ++ (w ++ t)) ++ (k ++ e)) = some ([], (u ++ (w ++ t)) ++
      (k ++ (e.takeWhile tokenChar ++ (e.dropWhile tokenChar).takeWhile (· == '=')))) := by
  have hkey : ∀ c ∈ k, tokenChar c = true := fun c hc =>
    tokenChar_of_keywordChar (keywordChar_of_mem hk hc)
  obtain ⟨d, k', hk', hd, -⟩ := keyword_first hk
  have htail := bearerTail_append (z := t ++ (k ++ e)) hw hspace (by
    intro c z hz
    cases t with
    | nil =>
        rw [hk'] at hz
        obtain ⟨rfl, -⟩ := List.cons.inj hz
        exact hd.not_space
    | cons c' t =>
        obtain ⟨rfl, -⟩ := List.cons.inj hz
        exact not_space_of_tokenChar (htoken _ List.mem_cons_self))
  rw [List.takeWhile_append_of_pos htoken, List.takeWhile_append_of_pos hkey,
    List.dropWhile_append_of_pos htoken, List.dropWhile_append_of_pos hkey,
    if_neg (by simp [hk'])] at htail
  exact find_bearerToken.mpr ⟨u, w ++ (t ++ (k ++ e)), _, by simp, hu, htail, by simp⟩

/-- Before a keyword, a match goes on from the prefix if the name of the scheme
and white space stand there, and nothing but a part of a token behind them. -/
theorem long_bearerToken (hk : k ∈ keyword.language) (hy : y ≠ []) (e : List Char) :
    bearerToken.finder.Long y (k ++ e) ↔ ∃ u w t, y = u ++ (w ++ t) ∧
      u.map foldCase = "bearer".toList ∧ w ≠ [] ∧ (∀ c ∈ w, isWhitespace c = true) ∧
      ∀ c ∈ t, tokenChar c = true := by
  obtain ⟨d, k, rfl, hd, -⟩ := keyword_first hk
  constructor
  · rintro ⟨m, hm, hlen⟩
    obtain ⟨u, x, tail, hx, hu, htail, rfl⟩ := find_bearerToken.mp hm
    obtain ⟨y, rfl, rfl⟩ := append_keyword_cases hk hy hu (by decide) (by decide +kernel) hx
    rw [List.cons_append] at htail
    simp only [bearerTail, takeWhile_append_cons hd.not_space, dropWhile_append_cons hd.not_space]
      at htail
    split at htail
    · cases htail
    · rename_i hsome
      rw [not_or] at hsome
      cases htail
      refine ⟨u, y.takeWhile isWhitespace, y.dropWhile isWhitespace,
        by rw [List.takeWhile_append_dropWhile], hu, hsome.1,
        fun c hc => List.mem_takeWhile_imp hc, ?_⟩
      rcases takeWhile_append_cases tokenChar (y.dropWhile isWhitespace) (d :: (k ++ e)) with
        ⟨hall, -⟩ | ⟨hnot, htake⟩
      · exact hall
      · -- The token ends in the prefix, and so do the equals signs behind it.
        exfalso
        have hdrop : (y.dropWhile isWhitespace ++ d :: (k ++ e)).dropWhile tokenChar =
            (y.dropWhile isWhitespace).dropWhile tokenChar ++ d :: (k ++ e) := by
          rw [List.dropWhile_append, if_neg]
          rw [List.isEmpty_iff, List.dropWhile_eq_nil_iff]
          exact hnot
        rw [htake, hdrop, takeWhile_append_cons (p := (· == '='))
          (beq_eq_false_iff_ne.mpr (hd.ne (by decide)))] at hlen
        change _ < ([] ++ (u ++ _)).length at hlen
        have hspaces := congrArg List.length
          (List.takeWhile_append_dropWhile (p := isWhitespace) (l := y))
        have htokens := congrArg List.length
          (List.takeWhile_append_dropWhile (p := tokenChar) (l := y.dropWhile isWhitespace))
        have hle : (((y.dropWhile isWhitespace).dropWhile tokenChar).takeWhile (· == '=')).length ≤
            ((y.dropWhile isWhitespace).dropWhile tokenChar).length :=
          (List.takeWhile_prefix _).length_le
        simp only [List.length_append, List.nil_append] at hlen hspaces htokens
        omega
  · rintro ⟨u, w, t, rfl, hu, hw, hspace, htoken⟩
    refine ⟨_, find_bearerToken_line hk hu hw hspace htoken e, ?_⟩
    show _ < ([] ++ _).length
    simp only [List.length_append, List.nil_append, List.length_cons]
    omega

theorem bearerToken_line (hk : k ∈ keyword.language) (p : List Char) :
    (Swallows bearerToken p k ∧ ∃ a, ∀ e, bearerToken.replaceAll (p ++ (k ++ e)) =
      a ++ ("Bearer [REDACTED]".toList ++
        bearerToken.replaceAll ((e.dropWhile tokenChar).dropWhile (· == '=')))) ∨
    ¬Swallows bearerToken p k ∧ ∀ e, bearerToken.replaceAll (p ++ (k ++ e)) =
      bearerToken.replaceAll p ++ bearerToken.replaceAll (k ++ e) := by
  refine SanitizationRule.line_cases local_bearerToken
    (fun y hy e e' h => (long_bearerToken hk hy e').mpr ((long_bearerToken hk hy e).mp h)) ?_ p
  intro y e m rest hy hfind hlen hrest
  obtain ⟨u, w, t, rfl, hu, hw, hspace, htoken⟩ := (long_bearerToken hk hy e).mp ⟨m, hfind, hlen⟩
  rw [find_bearerToken_line hk hu hw hspace htoken e] at hfind
  cases hfind
  refine ⟨rfl, ?_⟩
  change _ = [] ++ ((u ++ (w ++ t)) ++ _) ++ rest at hrest
  simp only [List.nil_append, List.append_assoc, List.append_cancel_left_eq] at hrest
  have htoken := List.takeWhile_append_dropWhile (p := tokenChar) (l := e)
  have hequals := List.takeWhile_append_dropWhile (p := (· == '='))
    (l := e.dropWhile tokenChar)
  rw [← hequals] at htoken
  exact List.append_cancel_left (List.append_cancel_left (hrest.symm.trans htoken.symm))

theorem keywordChar_of_bearer {u : List Char} (hu : u.map foldCase = "bearer".toList) (hc : c ∈ u) :
    KeywordChar c := by
  have hmem : foldCase c ∈ "bearer".toList := hu ▸ List.mem_map.mpr ⟨c, hc, rfl⟩
  have hall : "bearer".toList.all Char.isAlpha = true := by
    rw [toList_of_eq_ofList (s := "bearer") rfl]
    decide
  exact keywordChar_of_foldCase (.inl (List.all_eq_true.mp hall _ hmem))

/-- A match before a text that no keyword begins with has the name of the scheme
before it. -/
theorem find_bearerToken_before {x z : List Char} {m : List Char × List Char}
    (hz : ∀ c t, z = c :: t → ¬KeywordChar c) (h : bearerToken.finder.find [] (x ++ z) = some m) :
    ∃ u y, x = u ++ y ∧ u.map foldCase = "bearer".toList ∧ bearerTail (y ++ z) ≠ none := by
  obtain ⟨u, y, tail, hx, hu, htail, -⟩ := find_bearerToken.mp h
  have hsome : bearerTail y ≠ none := by simp [htail]
  rcases List.append_eq_append_iff.mp hx with ⟨a, rfl, rfl⟩ | ⟨y', rfl, rfl⟩
  · cases a with
    | nil => exact ⟨x, [], by simp, by simpa using hu, by simpa using hsome⟩
    | cons c a =>
        exact absurd (keywordChar_of_bearer hu (by simp)) (hz c _ rfl)
  · exact ⟨u, y', rfl, hu, hsome⟩

theorem bearerTail_cons_of_not_space (h : isWhitespace c = false) (y : List Char) :
    bearerTail (c :: y) = none := by
  rw [bearerTail, List.takeWhile_cons_of_neg (by simp [h])]
  exact if_pos (.inl rfl)

theorem not_keywordChar_of_separatorChar (h : separatorChar c = true) : ¬KeywordChar c := by
  intro hc
  rw [separatorChar_of_keywordChar hc] at h
  cases h

theorem not_keywordChar_of_valueChar (h : valueChar c = false) : ¬KeywordChar c := by
  intro hc
  rw [valueChar_of_keywordChar hc] at h
  cases h

theorem not_space_of_not_separatorChar (h : separatorChar c = false) : isWhitespace c = false := by
  simp only [separatorChar, Bool.or_eq_false_iff] at h
  exact h.1.1.2

theorem scan_bearerToken_separators (hs : ∀ c ∈ s, separatorChar c = true) (z : List Char) :
    bearerToken.finder.scan [] (s ++ z) = s.map .plain ++ bearerToken.finder.scan [] z := by
  refine local_bearerToken.scan_plains fun x hx hne => ?_
  obtain ⟨d, x, rfl⟩ := List.exists_cons_of_ne_nil hne
  rw [Option.eq_none_iff_forall_ne_some]
  intro m hm
  obtain ⟨u, y, huy, hu, -⟩ := find_bearerToken_before (x := []) (z := d :: x ++ z) (by
    intro c t hc
    obtain ⟨rfl, -⟩ := List.cons.inj hc
    exact not_keywordChar_of_separatorChar (hs _ (hx.subset List.mem_cons_self))) hm
  obtain ⟨rfl, -⟩ := List.append_eq_nil_iff.mp huy.symm
  cases hu

/-- The search passes a value, unless the value ends with the name of the scheme and
a token follows. -/
theorem scan_bearerToken_value (hv : SecretText v) (hrest : ∀ c t, q = c :: t → valueChar c = false)
    (hq : bearerTail q = none ∨ ∀ x, x <:+ v → x.map foldCase ≠ "bearer".toList) :
    bearerToken.finder.scan [] (v ++ q) = v.map .plain ++ bearerToken.finder.scan [] q := by
  refine local_bearerToken.scan_plains fun x hx hne => ?_
  rw [Option.eq_none_iff_forall_ne_some]
  intro m hm
  obtain ⟨u, y, rfl, hu, htail⟩ := find_bearerToken_before
    (fun c t hc => not_keywordChar_of_valueChar (hrest c t hc)) hm
  cases y with
  | nil =>
      rcases hq with hq | hq
      · exact htail hq
      · exact hq u (by simpa using hx) hu
  | cons c y =>
      have hc := (hv.plain c (hx.subset (by simp))).1
      exact htail (bearerTail_cons_of_not_space (not_space_of_not_separatorChar hc) _)

theorem scan_bearerToken_keyword (line : KeyValueLine k s q) (z : List Char) :
    bearerToken.finder.scan [] (k ++ (s ++ z)) =
      k.map .plain ++ bearerToken.finder.scan [] (s ++ z) := by
  refine local_bearerToken.scan_plains fun x hx hne => ?_
  rw [Option.eq_none_iff_forall_ne_some]
  intro m hm
  obtain ⟨u, y, rfl, hu, -⟩ := find_bearerToken_before (by
    intro c t hc
    obtain ⟨d, s, rfl⟩ := List.exists_cons_of_ne_nil line.separated
    obtain ⟨rfl, -⟩ := List.cons.inj hc
    exact not_keywordChar_of_separatorChar (line.separators _ List.mem_cons_self)) hm
  have hall : sensitiveWords.all (·.tails.all fun x => !"bearer".toList.isPrefixOf x) = true := by
    decide +kernel
  have hno := List.all_eq_true.mp (List.all_eq_true.mp hall _ (mem_sensitiveWords line.key)) _
    ((List.mem_tails _ _).mpr (hx.map foldCase))
  rw [List.map_append, hu, List.isPrefixOf_iff_prefix.mpr (List.prefix_append _ _)] at hno
  cases hno

/-! ### The rule for keys and values -/

theorem head?_value_of_not_separatorChar (h : separatorChar c = false) (y : List Char) :
    (sensitiveKeyValue.rest.run [] (c :: y)).head? = none := by
  have hnone : ((Regex.atLeast separatorChar 1).run [] (c :: y)).head? = none := by
    rw [Regex.head?_run_atLeast_one, List.takeWhile_cons_of_neg (by simp [h])]
    exact if_pos rfl
  show ((Regex.seq (.atLeast separatorChar 1) (.atLeast valueChar 8)).run [] (c :: y)).head? = none
  rw [Regex.head?_run_seq, List.head?_eq_none_iff.mp hnone]
  rfl

/-- Separators and a value that begin before a keyword: the separators end before
it. -/
theorem head?_value (hk : k ∈ keyword.language) (y e : List Char) :
    (sensitiveKeyValue.rest.run [] (y ++ (k ++ e))).head? =
      ((Regex.atLeast separatorChar 1).run [] y).findSome? fun w =>
        if 8 ≤ ((y.drop w.length ++ (k ++ e)).takeWhile valueChar).length then
          some (w ++ (y.drop w.length ++ (k ++ e)).takeWhile valueChar) else none := by
  obtain ⟨d, k, rfl, hd, -⟩ := keyword_first hk
  have hreject : (Regex.atLeast separatorChar 1).Rejects d := by
    have hsep := separatorChar_of_keywordChar hd
    exact ⟨⟨hsep, trivial⟩, hsep⟩
  show ((Regex.seq (.atLeast separatorChar 1) (.atLeast valueChar 8)).run [] _).head? = _
  rw [Regex.head?_run_seq, List.cons_append, Regex.run_append_cons hreject]
  refine findSome?_congr fun w hw => ?_
  obtain ⟨x, rfl⟩ := Regex.prefix_of_mem_run hw
  rw [Regex.head?_run_atLeast, List.append_assoc, List.drop_left, List.drop_left]
  split <;> rfl

/-- How far a value reaches that begins in the prefix is decided in the prefix, or
it reaches over the keyword as far as it can. -/
theorem head?_value_cases (hk : k ∈ keyword.language) (y : List Char) {e e' : List Char}
    (hreach : e.takeWhile valueChar = e'.takeWhile valueChar ∨
      8 ≤ (e.takeWhile valueChar).length ∧ 8 ≤ (e'.takeWhile valueChar).length) :
    ((sensitiveKeyValue.rest.run [] (y ++ (k ++ e))).head? =
        (sensitiveKeyValue.rest.run [] (y ++ (k ++ e'))).head? ∧
      ∀ r, (sensitiveKeyValue.rest.run [] (y ++ (k ++ e))).head? = some r → r.length ≤ y.length) ∨
    (sensitiveKeyValue.rest.run [] (y ++ (k ++ e))).head? =
        some (y ++ (k ++ e.takeWhile valueChar)) ∧
      (sensitiveKeyValue.rest.run [] (y ++ (k ++ e'))).head? =
        some (y ++ (k ++ e'.takeWhile valueChar)) := by
  have hkey : ∀ c ∈ k, valueChar c = true := fun c hc =>
    valueChar_of_keywordChar (keywordChar_of_mem hk hc)
  have hprefix : ∀ w ∈ (Regex.atLeast separatorChar 1).run [] y, w <+: y := fun w hw =>
    Regex.prefix_of_mem_run hw
  rw [head?_value hk, head?_value hk]
  generalize (Regex.atLeast separatorChar 1).run [] y = l at hprefix
  induction l with
  | nil =>
      left
      refine ⟨rfl, fun r hr => ?_⟩
      cases hr
  | cons w l ih =>
      have hrest := ih fun w' hw' => hprefix w' (List.mem_cons_of_mem w hw')
      obtain ⟨x, rfl⟩ := hprefix w List.mem_cons_self
      rw [List.findSome?_cons, List.findSome?_cons, List.drop_left]
      by_cases hall : ∀ c ∈ x, valueChar c = true
      · have hsame : 8 ≤ (x ++ (k ++ e.takeWhile valueChar)).length ↔
            8 ≤ (x ++ (k ++ e'.takeWhile valueChar)).length := by
          rcases hreach with heq | ⟨hlong, hlong'⟩
          · rw [heq]
          · simp only [List.length_append]
            omega
        rw [List.takeWhile_append_of_pos hall, List.takeWhile_append_of_pos hkey,
          List.takeWhile_append_of_pos hall, List.takeWhile_append_of_pos hkey]
        by_cases hlong : 8 ≤ (x ++ (k ++ e.takeWhile valueChar)).length
        · right
          rw [if_pos hlong, if_pos (hsame.mp hlong)]
          simp
        · rw [if_neg hlong, if_neg (mt hsame.mpr hlong)]
          exact hrest
      · have htake : ∀ z, (x ++ z).takeWhile valueChar = x.takeWhile valueChar := fun z =>
          ((takeWhile_append_cases valueChar x z).resolve_left fun h => hall h.1).2
        rw [htake, htake]
        by_cases hlong : 8 ≤ (x.takeWhile valueChar).length
        · left
          rw [if_pos hlong]
          refine ⟨rfl, fun r hr => ?_⟩
          cases hr
          have hle : (x.takeWhile valueChar).length ≤ x.length :=
            (List.takeWhile_prefix valueChar).length_le
          simp only [List.length_append]
          omega
        · rw [if_neg hlong]
          exact hrest

/-- What is found before a keyword: the keyword is a part of the group, or the
group ends before it. -/
theorem find_sensitiveKeyValue_cases {e : List Char} {m : List Char × List Char}
    (hk : k ∈ keyword.language) (he : ∀ c t, e = c :: t → ¬KeywordChar c)
    (h : sensitiveKeyValue.finder.find [] (y ++ (k ++ e)) = some m) :
    m.1 ∈ keyword.language ∧
      (m.1 = y ++ k ∧ (sensitiveKeyValue.rest.run [] e).head? = some m.2 ∨
        ∃ y', y' ≠ [] ∧ y = m.1 ++ y' ∧
          (sensitiveKeyValue.rest.run [] (y' ++ (k ++ e))).head? = some m.2) := by
  obtain ⟨hkey, x, hx, hrest⟩ := find_sensitiveKeyValue.mp h
  refine ⟨hkey, ?_⟩
  rw [← List.append_assoc] at hx
  rcases List.append_eq_append_iff.mp hx with ⟨a, ha, rfl⟩ | ⟨b, hb, rfl⟩
  · cases a with
    | nil => exact .inl ⟨by simpa using ha, by simpa using hrest⟩
    | cons c a => exact absurd (keywordChar_of_mem hkey (by simp [ha])) (he c _ rfl)
  · have hblocked : ∀ c t, b = c :: t → separatorChar c = true := by
      rintro c t rfl
      by_contra hc
      rw [List.cons_append, head?_value_of_not_separatorChar (by simpa using hc)] at hrest
      cases hrest
    rcases List.append_eq_append_iff.mp hb with ⟨a, ha, hka⟩ | ⟨y', rfl, rfl⟩
    · cases b with
      | nil =>
          left
          rw [List.append_nil] at hka
          exact ⟨by rw [ha, hka], by simpa using hrest⟩
      | cons c b =>
          refine absurd (keywordChar_of_mem (c := c) hk (by simp [hka])) ?_
          exact not_keywordChar_of_separatorChar (hblocked c b rfl)
    · right
      refine ⟨y', ?_, rfl, by simpa using hrest⟩
      rintro rfl
      obtain ⟨d, k, rfl, hd, -⟩ := keyword_first hk
      exact not_keywordChar_of_separatorChar (hblocked d k rfl) hd

/-- A keyword that ends with a keyword has at most five characters more. -/
theorem length_le_of_append_keyword (hk : k ∈ keyword.language) (h : y ++ k ∈ keyword.language) :
    y.length ≤ 5 := by
  have hall : sensitiveWords.all (fun w => sensitiveWords.all fun w' =>
      !w'.isSuffixOf w || decide (w.length ≤ w'.length + 5)) = true := by decide +kernel
  have hpair := List.all_eq_true.mp (List.all_eq_true.mp hall _ (mem_sensitiveWords h)) _
    (mem_sensitiveWords hk)
  rw [List.map_append, List.isSuffixOf_iff_suffix.mpr (List.suffix_append _ _)] at hpair
  simp only [Bool.not_true, Bool.false_or, decide_eq_true_eq, List.length_append,
    List.length_map] at hpair
  omega

section Rest

variable {e e' : List Char}

/-- What follows the keyword in a line decides alike how far a value reaches. -/
theorem takeWhile_value (line : KeyValueLine k s q) (hv : SecretText v) :
    (v ++ q).takeWhile valueChar = v := by
  rw [List.takeWhile_append_of_pos hv.value]
  cases q with
  | nil => simp
  | cons c q => rw [List.takeWhile_cons_of_neg (by simp [line.rest c q rfl]), List.append_nil]

theorem takeWhile_line (line : KeyValueLine k s q) (hv : SecretText v) :
    (∀ c ∈ s, valueChar c = true) ∧ (s ++ (v ++ q)).takeWhile valueChar = s ++ v ∨
      (¬∀ c ∈ s, valueChar c = true) ∧
        (s ++ (v ++ q)).takeWhile valueChar = s.takeWhile valueChar := by
  rcases takeWhile_append_cases valueChar s (v ++ q) with ⟨hall, heq⟩ | hnot
  · rw [takeWhile_value line hv] at heq
    exact .inl ⟨hall, heq⟩
  · exact .inr hnot

theorem head?_value_line (line : KeyValueLine k s q) (hv : SecretText v) :
    (sensitiveKeyValue.rest.run [] (s ++ (v ++ q))).head? = some (s ++ v) := by
  have hne : v ≠ [] := List.length_pos_iff.mp (by have := hv.long; omega)
  obtain ⟨c, v', hv'⟩ := List.exists_cons_of_ne_nil hne
  have hc := (hv.plain c (by simp [hv'])).1
  have hseps : (s ++ (v ++ q)).takeWhile separatorChar = s := by
    rw [List.takeWhile_append_of_pos line.separators, hv', List.cons_append,
      List.takeWhile_cons_of_neg (by simp [hc]), List.append_nil]
  refine Regex.head?_run_seq_of_head ?_ ?_
  · rw [Regex.head?_run_atLeast_one, hseps, if_neg line.separated]
  · rw [List.drop_left, Regex.head?_run_atLeast, takeWhile_value line hv, if_pos hv.long]

theorem not_keywordChar_line (line : KeyValueLine k s q) (e : List Char) :
    ∀ c t, s ++ e = c :: t → ¬KeywordChar c := by
  intro c t hc
  obtain ⟨d, s', hs⟩ := List.exists_cons_of_ne_nil line.separated
  rw [hs] at hc
  obtain ⟨rfl, -⟩ := List.cons.inj hc
  exact not_keywordChar_of_separatorChar (line.separators _ (by simp [hs]))

/-- Whether a match goes beyond the prefix does not depend on the value and on what
follows. -/
theorem long_sensitiveKeyValue {v' q' : List Char} (hv : SecretText v) (hv' : SecretText v')
    (line : KeyValueLine k s q) (line' : KeyValueLine k s q')
    (h : sensitiveKeyValue.finder.Long y (k ++ (s ++ (v ++ q)))) :
    sensitiveKeyValue.finder.Long y (k ++ (s ++ (v' ++ q'))) := by
  obtain ⟨m, hm, hlen⟩ := h
  obtain ⟨hkey, ⟨hgroup, -⟩ | ⟨y', -, rfl, hvalue⟩⟩ :=
    find_sensitiveKeyValue_cases line.key (not_keywordChar_line line _) hm
  · refine ⟨(y ++ k, s ++ v'), find_sensitiveKeyValue.mpr ⟨hgroup ▸ hkey, s ++ (v' ++ q'), by simp,
      head?_value_line line' hv'⟩, ?_⟩
    have hpos := length_keyword line.key
    show _ < ((y ++ k) ++ (s ++ v')).length
    simp only [List.length_append]
    omega
  · have hreach : (s ++ (v ++ q)).takeWhile valueChar = (s ++ (v' ++ q')).takeWhile valueChar ∨
        8 ≤ ((s ++ (v ++ q)).takeWhile valueChar).length ∧
          8 ≤ ((s ++ (v' ++ q')).takeWhile valueChar).length := by
      rcases takeWhile_line line hv with ⟨hall, heq⟩ | ⟨hnot, heq⟩
      · have heq' := ((takeWhile_line line' hv').resolve_right fun hn => hn.1 hall).2
        have hlong := hv.long
        have hlong' := hv'.long
        rw [heq, heq', List.length_append, List.length_append]
        omega
      · have heq' := ((takeWhile_line line' hv').resolve_left fun ha => hnot ha.1).2
        exact .inl (heq.trans heq'.symm)
    rcases head?_value_cases line.key y' hreach with ⟨-, hshort⟩ | ⟨-, hvalue'⟩
    · have hle := hshort _ hvalue
      change _ < (m.1 ++ m.2).length at hlen
      rw [List.length_append, List.length_append] at hlen
      omega
    · refine ⟨(m.1, y' ++ (k ++ (s ++ (v' ++ q')).takeWhile valueChar)),
        find_sensitiveKeyValue.mpr ⟨hkey, y' ++ (k ++ (s ++ (v' ++ q'))), by simp, hvalue'⟩, ?_⟩
      have hpos := length_keyword line.key
      show _ < (m.1 ++ (y' ++ (k ++ _))).length
      simp only [List.length_append]
      omega

/-- A match that begins in the prefix and goes beyond it covers the value, or it
ends where a value ends that has not come to it yet. -/
theorem find_crossing {m : List Char × List Char} (line : KeyValueLine k s q) (hv : SecretText v)
    (hm : sensitiveKeyValue.finder.find [] (y ++ (k ++ (s ++ (v ++ q)))) = some m)
    (hlen : y.length < (m.1 ++ m.2).length) :
    m.1 ++ m.2 = y ++ (k ++ (s ++ v)) ∨
      (¬∀ c ∈ s, valueChar c = true) ∧ (∃ y', y' ≠ [] ∧ y = m.1 ++ y') ∧
        m.1 ++ m.2 = y ++ (k ++ s.takeWhile valueChar) := by
  obtain ⟨hkey, ⟨hgroup, hvalue⟩ | ⟨y', hy', rfl, hvalue⟩⟩ :=
    find_sensitiveKeyValue_cases line.key (not_keywordChar_line line _) hm
  · left
    rw [head?_value_line line hv] at hvalue
    rw [hgroup, ← Option.some.inj hvalue]
    simp
  · rcases head?_value_cases line.key y' (.inl (rfl : _ = (s ++ (v ++ q)).takeWhile valueChar)) with
      ⟨-, hshort⟩ | ⟨hlong, -⟩
    · have hle := hshort _ hvalue
      rw [List.length_append, List.length_append] at hlen
      omega
    · rw [hvalue] at hlong
      rw [Option.some.inj hlong]
      rcases takeWhile_line line hv with ⟨-, heq⟩ | ⟨hnot, heq⟩
      · left
        rw [heq]
        simp
      · right
        rw [heq]
        exact ⟨hnot, ⟨y', hy', rfl⟩, by simp⟩

/-- A match of the rule for keys and values takes the keyword of a line for a part
of its value, and ends in the separators. -/
def SwallowsValue (p k s : List Char) : Prop :=
  (¬∀ c ∈ s, valueChar c = true) ∧ ∃ ps m, sensitiveKeyValue.finder.Crosses p (k ++ s) ps m ∧
    (sensitiveKeyValue.finder.textOf ps ++ m.1).length ≤ p.length

/-- Two keywords that are found before the same position of a line are one. -/
theorem group_unique {m m' : List Char × List Char} {z z' : List Char} (hk : k ∈ keyword.language)
    (hz : ∀ c t, z = c :: t → ¬KeywordChar c) (hz' : ∀ c t, z' = c :: t → ¬KeywordChar c)
    (hm : sensitiveKeyValue.finder.find [] (y ++ (k ++ z)) = some m)
    (hm' : sensitiveKeyValue.finder.find [] (y ++ (k ++ z')) = some m') : m.1 = m'.1 := by
  have hrun : ∀ {z m}, (∀ c t, z = c :: t → ¬KeywordChar c) →
      sensitiveKeyValue.finder.find [] (y ++ (k ++ z)) = some m →
        m.1 ∈ keyword.run [] (y ++ k) := by
    intro z m hz hm
    obtain ⟨hkey, ⟨hgroup, -⟩ | ⟨y', -, hy, -⟩⟩ := find_sensitiveKeyValue_cases hk hz hm
    · exact (Regex.mem_run_iff free_keyword).mpr ⟨hgroup ▸ List.prefix_rfl, hkey⟩
    · refine (Regex.mem_run_iff free_keyword).mpr ⟨?_, hkey⟩
      rw [hy, List.append_assoc]
      exact List.prefix_append _ _
  exact keyword_unique (hrun hz hm) (hrun hz' hm')

theorem sensitiveKeyValue_line (hnot : ¬SwallowsValue p k s) : ∃ a, ∀ v q, SecretText v →
    KeyValueLine k s q → sensitiveKeyValue.replaceAll (p ++ (k ++ (s ++ (v ++ q)))) =
      a ++ ("=[REDACTED]".toList ++ sensitiveKeyValue.replaceAll q) := by
  rcases local_sensitiveKeyValue.crosses_or
    (z := fun e : {e : List Char × List Char // SecretText e.1 ∧ KeyValueLine k s e.2} =>
      k ++ (s ++ (e.1.1 ++ e.1.2)))
    (fun y _ e e' => long_sensitiveKeyValue e.2.1 e'.2.1 e.2.2 e'.2.2) p with ⟨ps, hps⟩ | hnone
  · by_cases hany : ∃ v q, SecretText v ∧ KeyValueLine k s q
    · obtain ⟨v₀, q₀, hv₀, line₀⟩ := hany
      obtain ⟨m₀, hm₀⟩ := hps ⟨(v₀, q₀), hv₀, line₀⟩
      obtain ⟨y₀, -, hp₀, -, hfind₀, -⟩ := local_sensitiveKeyValue.crosses_find hm₀
      refine ⟨sensitiveKeyValue.render ps ++ m₀.1, fun v q hv line => ?_⟩
      obtain ⟨m, hm⟩ := hps ⟨(v, q), hv, line⟩
      obtain ⟨y, rest, hp, hy, hfind, hlen, hrest, hscan⟩ := local_sensitiveKeyValue.crosses_find hm
      obtain rfl : y₀ = y := List.append_cancel_left (hp₀.symm.trans hp)
      have hgroup := group_unique line.key (not_keywordChar_line line₀ _)
        (not_keywordChar_line line _)
        hfind₀ hfind
      rcases find_crossing line hv hfind hlen with htext | ⟨hsep, ⟨y', -, hy'⟩, htext⟩
      · obtain rfl : rest = q := by
          change _ = m.1 ++ m.2 ++ rest at hrest
          rw [htext] at hrest
          simpa using hrest.symm
        rw [SanitizationRule.replaceAll_eq, hscan, SanitizationRule.render_append,
          SanitizationRule.render_hit, ← SanitizationRule.replaceAll_eq, List.append_assoc, hgroup]
        show _ ++ (m.1 ++ "=[REDACTED]".toList ++ _) = _
        rw [List.append_assoc]
      · -- The match ends within the separators, so it is found without the value too.
        refine absurd ⟨hsep, ps, m, ⟨?_, hm.2⟩, ?_⟩ hnot
        · have hshort : (sensitiveKeyValue.finder.textOf (ps ++ [.hit m])).length ≤
              (p ++ (k ++ s)).length := by
            have hle : (s.takeWhile valueChar).length ≤ s.length :=
              (List.takeWhile_prefix valueChar).length_le
            rw [Finder.textOf_append, Finder.textOf_singleton_hit,
              SanitizationRule.text_finder, htext,
              hp]
            simp only [List.length_append]
            omega
          have hsplit : sensitiveKeyValue.finder.scan [] ((p ++ (k ++ s)) ++ (v ++ q)) =
              (ps ++ [.hit m]) ++ sensitiveKeyValue.finder.scan [] rest := by
            simpa using hscan
          obtain ⟨ps', hps'⟩ := local_sensitiveKeyValue.scan_take hsplit hshort
          exact ⟨ps', by simpa using hps'⟩
        · rw [hp, hy']
          simp
    · exact ⟨[], fun v q hv line => absurd ⟨v, q, hv, line⟩ hany⟩
  · refine ⟨sensitiveKeyValue.replaceAll p ++ k, fun v q hv line => ?_⟩
    have hscan := (hnone ⟨(v, q), hv, line⟩).2
    have hfind : sensitiveKeyValue.finder.find [] ((k ++ (s ++ v)) ++ q) = some (k, s ++ v) :=
      find_sensitiveKeyValue.mpr ⟨line.key, s ++ (v ++ q), by simp, head?_value_line line hv⟩
    rw [← SanitizationRule.text_finder sensitiveKeyValue (k, s ++ v)] at hfind
    have hhit := local_sensitiveKeyValue.scan_hit hfind
    rw [SanitizationRule.text_finder, List.append_assoc, List.append_assoc] at hhit
    rw [SanitizationRule.replaceAll_eq, hscan, hhit, SanitizationRule.render_append,
      SanitizationRule.render_hit, ← SanitizationRule.replaceAll_eq,
      ← SanitizationRule.replaceAll_eq,
      List.append_assoc]
    show _ ++ (k ++ "=[REDACTED]".toList ++ _) = _
    rw [List.append_assoc]

/-- A match whose group ends before the keyword of a line reaches as far as the
separators let it. -/
theorem find_within {m : List Char × List Char} {e : List Char} (hk : k ∈ keyword.language)
    (he : ∀ c t, e = c :: t → ¬KeywordChar c) (hlong : 6 ≤ y.length)
    (hm : sensitiveKeyValue.finder.find [] (y ++ (k ++ e)) = some m)
    (hlen : y.length < (m.1 ++ m.2).length) :
    m.1 ++ m.2 = y ++ (k ++ e.takeWhile valueChar) ∧ ∀ e', (∀ c t, e' = c :: t → ¬KeywordChar c) →
      e'.takeWhile valueChar = e.takeWhile valueChar →
      sensitiveKeyValue.finder.find [] (y ++ (k ++ e')) = some m := by
  obtain ⟨hkey, ⟨hgroup, -⟩ | ⟨y', -, rfl, hvalue⟩⟩ := find_sensitiveKeyValue_cases hk he hm
  · have hle := length_le_of_append_keyword hk (hgroup ▸ hkey)
    omega
  · have hcases : ∀ e', e'.takeWhile valueChar = e.takeWhile valueChar →
        m.2 = y' ++ (k ++ e.takeWhile valueChar) ∧
          (sensitiveKeyValue.rest.run [] (y' ++ (k ++ e'))).head? = some m.2 := by
      intro e' heq
      rcases head?_value_cases hk y' (.inl heq.symm) with ⟨-, hshort⟩ | ⟨h, h'⟩
      · have hle := hshort _ hvalue
        rw [List.length_append, List.length_append] at hlen
        omega
      · rw [hvalue] at h
        have hm := Option.some.inj h
        rw [heq, ← hm] at h'
        exact ⟨hm, h'⟩
    refine ⟨by rw [(hcases e rfl).1]; simp, fun e' he' heq => ?_⟩
    exact find_sensitiveKeyValue.mpr ⟨hkey, y' ++ (k ++ e'), by simp, (hcases e' heq).2⟩

theorem sensitiveKeyValue_swallows (h : SwallowsValue p k s) : ∃ a, ∀ v q, SecretText v →
    KeyValueLine k s q → sensitiveKeyValue.replaceAll (p ++ (k ++ (s ++ (v ++ q)))) =
      a ++ ("=[REDACTED]".toList ++
        sensitiveKeyValue.replaceAll (s.dropWhile valueChar ++ (v ++ q))) := by
  obtain ⟨hsep, ps, m, hcross, hgroup⟩ := h
  obtain ⟨y, -, hp, -, hfind, hlen, -⟩ := local_sensitiveKeyValue.crosses_find hcross
  refine ⟨sensitiveKeyValue.render ps ++ m.1, fun v q hv line => ?_⟩
  have hreach : (s ++ (v ++ q)).takeWhile valueChar = s.takeWhile valueChar :=
    ((takeWhile_line line hv).resolve_left fun ha => hsep ha.1).2
  have hs : ∀ c t, s = c :: t → ¬KeywordChar c := by
    simpa using not_keywordChar_line line []
  -- The group and something behind it stand in the prefix.
  have hlong : 6 ≤ y.length := by
    obtain ⟨hkey, ⟨hm, -⟩ | ⟨y', hy', rfl, -⟩⟩ := find_sensitiveKeyValue_cases line.key hs hfind
    · have hk := length_keyword line.key
      rw [hp, hm] at hgroup
      simp only [List.length_append] at hgroup
      omega
    · have hm := length_keyword hkey
      have hpos := List.length_pos_iff.mpr hy'
      rw [List.length_append]
      omega
  have hsame : ∀ x y', p = x ++ y' →
      x.length ≤ (sensitiveKeyValue.finder.textOf ps).length → y' ≠ [] →
      (sensitiveKeyValue.finder.Long y' (k ++ s) ↔
        sensitiveKeyValue.finder.Long y' (k ++ (s ++ (v ++ q)))) := by
    intro x y' hx hle _
    have hy' : 6 ≤ y'.length := by
      have h1 := congrArg List.length hp
      have h2 := congrArg List.length hx
      simp only [List.length_append] at h1 h2
      omega
    constructor
    · rintro ⟨b, hb, hbl⟩
      exact ⟨b, (find_within line.key hs hy' hb hbl).2 _ (not_keywordChar_line line _) hreach, hbl⟩
    · rintro ⟨b, hb, hbl⟩
      exact ⟨b, (find_within line.key (not_keywordChar_line line _) hy' hb hbl).2 _ hs hreach.symm,
        hbl⟩
  obtain ⟨m', hcross'⟩ := local_sensitiveKeyValue.crosses_congr hsame hcross
  obtain ⟨y', rest, hp', -, hfind', hlen', hrest, hscan⟩ :=
    local_sensitiveKeyValue.crosses_find hcross'
  obtain rfl : y = y' := List.append_cancel_left (hp.symm.trans hp')
  obtain ⟨htext, htransfer⟩ := find_within line.key hs hlong hfind hlen
  rw [htransfer _ (not_keywordChar_line line _) hreach] at hfind'
  cases hfind'
  obtain rfl : rest = s.dropWhile valueChar ++ (v ++ q) := by
    change _ = m.1 ++ m.2 ++ rest at hrest
    rw [htext] at hrest
    simp only [List.append_assoc, List.append_cancel_left_eq] at hrest
    refine List.append_cancel_left (hrest.symm.trans ?_)
    rw [← List.append_assoc (s.takeWhile valueChar), List.takeWhile_append_dropWhile]
  rw [SanitizationRule.replaceAll_eq, hscan, SanitizationRule.render_append,
    SanitizationRule.render_hit, ← SanitizationRule.replaceAll_eq, List.append_assoc]
  show _ ++ (m.1 ++ "=[REDACTED]".toList ++ _) = _
  rw [List.append_assoc]

end Rest

end Line

end SereinGateway.Core

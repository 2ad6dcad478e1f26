import Mathlib
import SereinGateway.Core.LogLine

/-!
Whether what is logged depends on a secret.

The value of a line is hidden if the rule for keys and values comes to it. The
other rules may keep it from that: a query or a bearer token that swallows the
keyword and leaves the value, an earlier keyword whose value is the keyword of
the line, and a token behind a value that ends with the name of the scheme.
-/

namespace SereinGateway.Core

open SereinGateway.Lib

/-- `char::is_alphanumeric`, by what is used of its Unicode tables. -/
structure AlphanumericClass where
  alphanumeric : Char → Bool
  ascii : ∀ c, c.toNat < 128 → alphanumeric c = c.isAlphanum
  not_space : ∀ c, alphanumeric c = true → isWhitespace c = false

/-- The class on ASCII. -/
def asciiAlphanumeric : AlphanumericClass where
  alphanumeric c := c.isAlphanum
  ascii _ _ := rfl
  not_space c hc := by
    rcases Bool.or_eq_true _ _ |>.mp hc with h | h
    · have hrange := range_of_isAlpha h
      exact not_space_of_range (by omega)
    · exact not_space_of_isDigit h

/-- An alphanumeric value of at least eight characters. -/
def AlphanumericClass.Secret (letters : AlphanumericClass) (v : List Char) : Prop :=
  8 ≤ v.length ∧ ∀ c ∈ v, letters.alphanumeric c = true

/-- Where the rules hide the value of a line. -/
def ValueHidden (p k s q : List Char) : Prop :=
  (Swallows apiKeyQuery p k ∧ ∀ c ∈ s, isWhitespace c = false) ∨
    ¬Swallows apiKeyQuery p k ∧ ¬Swallows bearerToken (apiKeyQuery.replaceAll p) k ∧
      ¬SwallowsValue (bearerToken.replaceAll (apiKeyQuery.replaceAll p)) k s ∧
      bearerTail q = none

section Secrecy

variable {p k s q v y z : List Char} {c : Char}

theorem AlphanumericClass.ne_of_alphanumeric (letters : AlphanumericClass)
    (h : letters.alphanumeric c = true) {d : Char}
    (hd : d ∈ ['&', '"', '\x7b', '\x7d', ',', ':', '=', '?']) : c ≠ d := by
  have hall : ∀ d ∈ ['&', '"', '\x7b', '\x7d', ',', ':', '=', '?'],
      d.toNat < 128 ∧ d.isAlphanum = false := by simp
  rintro rfl
  obtain ⟨hlt, hnot⟩ := hall c hd
  rw [letters.ascii c hlt, hnot] at h
  cases h

theorem AlphanumericClass.Secret.text {letters : AlphanumericClass} (h : letters.Secret v) :
    SecretText v where
  long := h.1
  query c hc := by
    have hne := letters.ne_of_alphanumeric (h.2 c hc) (d := '&') (by decide)
    simp [queryChar, letters.not_space c (h.2 c hc), hne]
  value c hc := by
    have hspace := letters.not_space c (h.2 c hc)
    have hne := @AlphanumericClass.ne_of_alphanumeric c letters (h.2 c hc)
    simp [valueChar, hspace, @hne '"' (by decide), @hne '\x7b' (by decide),
      @hne '\x7d' (by decide), @hne ',' (by decide)]
  plain c hc := by
    have hspace := letters.not_space c (h.2 c hc)
    have hne := @AlphanumericClass.ne_of_alphanumeric c letters (h.2 c hc)
    exact ⟨by simp [separatorChar, hspace, @hne '"' (by decide), @hne ':' (by decide),
      @hne '=' (by decide)], @hne '?' (by decide)⟩

/-! ### The line before the rule for keys and values -/

theorem replaceAll_apiKeyQuery_append (h : '?' ∉ y) (z : List Char) :
    apiKeyQuery.replaceAll (y ++ z) = y ++ apiKeyQuery.replaceAll z := by
  rw [SanitizationRule.replaceAll_eq, scan_apiKeyQuery_plains h, SanitizationRule.render_append,
    SanitizationRule.render_plains, ← SanitizationRule.replaceAll_eq]

/-- A match begins with the question mark that it is replaced by. -/
theorem head?_replaceAll_apiKeyQuery (y : List Char) :
    (apiKeyQuery.replaceAll y).head? = y.head? := by
  cases y with
  | nil => rfl
  | cons c t =>
      cases hfind : apiKeyQuery.finder.find [] (c :: t) with
      | none =>
          rw [SanitizationRule.replaceAll_eq, local_apiKeyQuery.scan_plain hfind]
          rfl
      | some m =>
          obtain ⟨x, hx, -⟩ := find_apiKeyQuery.mp hfind
          obtain ⟨rest, hrest⟩ := apiKeyQuery.finder.begins hfind
          rw [← hrest] at hfind
          rw [SanitizationRule.replaceAll_eq, ← hrest, local_apiKeyQuery.scan_hit hfind,
            SanitizationRule.render_hit, hrest, hx]
          rfl

theorem replaceAll_bearerToken_cons (h : ¬KeywordChar c) (y : List Char) :
    bearerToken.replaceAll (c :: y) = c :: bearerToken.replaceAll y := by
  have hfind : bearerToken.finder.find [] (c :: y) = none := by
    rw [Option.eq_none_iff_forall_ne_some]
    intro m hm
    obtain ⟨u, y, huy, hu, -⟩ := find_bearerToken_before (x := []) (by
      intro d t hd
      obtain ⟨rfl, -⟩ := List.cons.inj hd
      exact h) hm
    obtain ⟨rfl, -⟩ := List.append_eq_nil_iff.mp huy.symm
    cases hu
  rw [SanitizationRule.replaceAll_eq, local_bearerToken.scan_plain hfind]
  rfl

theorem takeWhile_eq_nil_iff_head? {f : Char → Bool} :
    y.takeWhile f = [] ↔ ∀ c, y.head? = some c → f c = false := by
  cases y with
  | nil => simp
  | cons c y => simp [List.takeWhile_cons]

/-- The rule for queries keeps white space and the beginning of a token. -/
theorem bearerTail_apiKeyQuery (q : List Char) :
    bearerTail (apiKeyQuery.replaceAll q) = none ↔ bearerTail q = none := by
  have hspaces : '?' ∉ q.takeWhile isWhitespace := fun h =>
    absurd (List.mem_takeWhile_imp h) (by decide)
  have hspace : ∀ c ∈ q.takeWhile isWhitespace, isWhitespace c = true := fun c hc =>
    List.mem_takeWhile_imp hc
  have hhead : ∀ c, (q.dropWhile isWhitespace).head? = some c → isWhitespace c = false := by
    intro c hc
    have hnot := List.head?_dropWhile_not isWhitespace q
    rwa [hc] at hnot
  have hq := replaceAll_apiKeyQuery_append hspaces (q.dropWhile isWhitespace)
  rw [List.takeWhile_append_dropWhile] at hq
  have hkeep := head?_replaceAll_apiKeyQuery (q.dropWhile isWhitespace)
  by_cases hw : q.takeWhile isWhitespace = []
  · refine iff_of_true ?_ (if_pos (.inl hw))
    rw [bearerTail, hq, hw, List.nil_append]
    exact if_pos (.inl (takeWhile_eq_nil_iff_head?.mpr fun c hc => hhead c (hkeep ▸ hc)))
  · have htail : ∀ x, x.head? = (q.dropWhile isWhitespace).head? →
        (bearerTail (q.takeWhile isWhitespace ++ x) = none ↔
          ∀ c, (q.dropWhile isWhitespace).head? = some c → tokenChar c = false) := by
      intro x hx
      rw [bearerTail_append hw hspace fun c t hc => hhead c (by rw [← hx, hc]; rfl), ← hx,
        ← takeWhile_eq_nil_iff_head?]
      split
      · rename_i hnil
        simp [hnil]
      · rename_i hne
        simp [hne]
    have hsame := (htail _ hkeep).trans (htail _ rfl).symm
    rwa [← hq, List.takeWhile_append_dropWhile] at hsame

theorem KeyValueLine.head_not_valueChar (line : KeyValueLine k s q) (h : q.head? = some c) :
    valueChar c = false := by
  obtain ⟨t, rfl⟩ := List.head?_eq_some_iff.mp h
  exact line.rest c t rfl

theorem KeyValueLine.of_head? {q' : List Char} (line : KeyValueLine k s q)
    (h : q'.head? = q.head?) : KeyValueLine k s q' where
  key := line.key
  separated := line.separated
  separators := line.separators
  rest c t hc := line.head_not_valueChar (by rw [← h, hc]; rfl)

theorem KeyValueLine.of_query (line : KeyValueLine k s q) :
    KeyValueLine k s (apiKeyQuery.replaceAll q) :=
  line.of_head? (head?_replaceAll_apiKeyQuery q)

theorem KeyValueLine.of_token (line : KeyValueLine k s q) :
    KeyValueLine k s (bearerToken.replaceAll q) := by
  refine line.of_head? ?_
  cases q with
  | nil => rfl
  | cons c q =>
      rw [replaceAll_bearerToken_cons (not_keywordChar_of_valueChar (line.rest c q rfl))]
      rfl

theorem KeyValueLine.query_passes (line : KeyValueLine k s q) (hv : SecretText v) :
    apiKeyQuery.replaceAll (k ++ (s ++ (v ++ q))) =
      k ++ (s ++ (v ++ apiKeyQuery.replaceAll q)) := by
  have hk : '?' ∉ k := fun h => (keywordChar_of_mem line.key h).ne (by decide) rfl
  have hs : '?' ∉ s := fun h => absurd (line.separators _ h) (by decide)
  have hv : '?' ∉ v := fun h => (hv.plain _ h).2 rfl
  rw [replaceAll_apiKeyQuery_append hk, replaceAll_apiKeyQuery_append hs,
    replaceAll_apiKeyQuery_append hv]

/-- So does the rule for bearer tokens, if no token follows a value that may be
taken for the name of the scheme. -/
theorem KeyValueLine.token_passes (line : KeyValueLine k s q) (hv : SecretText v)
    (hq : bearerTail q = none ∨ ∀ x, x <:+ v → x.map foldCase ≠ "bearer".toList) :
    bearerToken.replaceAll (k ++ (s ++ (v ++ q))) =
      k ++ (s ++ (v ++ bearerToken.replaceAll q)) := by
  rw [SanitizationRule.replaceAll_eq, scan_bearerToken_keyword line,
    scan_bearerToken_separators line.separators, scan_bearerToken_value hv line.rest hq]
  simp only [SanitizationRule.render_append, SanitizationRule.render_plains]
  rfl

theorem dropWhile_queryChar_line (line : KeyValueLine k s q) (hv : SecretText v)
    (hs : ∀ c ∈ s, isWhitespace c = false) :
    (s ++ (v ++ q)).dropWhile queryChar = q.dropWhile queryChar := by
  have hquery : ∀ c ∈ s, queryChar c = true := by
    intro c hc
    have hne : c ≠ '&' := by
      rintro rfl
      exact absurd (line.separators _ hc) (by decide)
    simp [queryChar, hs c hc, hne]
  rw [List.dropWhile_append_of_pos hquery, List.dropWhile_append_of_pos hv.query]

/-- The rules up to the one for keys and values. -/
def replaceKeyed (input : List Char) : List Char :=
  sensitiveKeyValue.replaceAll (bearerToken.replaceAll (apiKeyQuery.replaceAll input))

theorem LogSanitizer.sanitizeChars_congr (sanitizer : LogSanitizer) (cls : CharClasses)
    {x y : List Char} (h : replaceKeyed x = replaceKeyed y) :
    sanitizer.sanitizeChars cls x = sanitizer.sanitizeChars cls y := by
  have hfold : ∀ x, sanitizationRules.foldl (fun result rule => rule.replaceAll result) x =
      emailAddress.replaceAll (replaceKeyed x) := fun x => rfl
  rw [sanitizeChars, sanitizeChars, hfold, hfold, h]

theorem replaceKeyed_of_hidden (line : KeyValueLine k s q) (h : ValueHidden p k s q) :
    ∃ a, ∀ v, SecretText v → replaceKeyed (p ++ (k ++ (s ++ (v ++ q)))) = a := by
  rcases h with ⟨hswallows, hs⟩ | ⟨hquery, hbearer, hvalue, hq⟩
  · obtain ⟨-, a, ha⟩ := (apiKeyQuery_line line.key p).resolve_right fun hn => hn.1 hswallows
    refine ⟨sensitiveKeyValue.replaceAll (bearerToken.replaceAll (a ++ ("?key=[REDACTED]".toList ++
      apiKeyQuery.replaceAll (q.dropWhile queryChar)))), fun v hv => ?_⟩
    rw [replaceKeyed, ha, dropWhile_queryChar_line line hv hs]
  · obtain ⟨-, hquery⟩ := (apiKeyQuery_line line.key p).resolve_left fun hn => hquery hn.1
    obtain ⟨-, hbearer⟩ := (bearerToken_line line.key (apiKeyQuery.replaceAll p)).resolve_left
      fun hn => hbearer hn.1
    obtain ⟨a, ha⟩ := sensitiveKeyValue_line hvalue
    refine ⟨a ++ ("=[REDACTED]".toList ++ sensitiveKeyValue.replaceAll (bearerToken.replaceAll
      (apiKeyQuery.replaceAll q))), fun v hv => ?_⟩
    rw [replaceKeyed, hquery, line.query_passes hv, hbearer,
      line.of_query.token_passes hv (.inl ((bearerTail_apiKeyQuery q).mpr hq)),
      ha v _ hv line.of_query.of_token]

end Secrecy

end SereinGateway.Core

import Mathlib
import SereinGateway.Core.LogSecrecy

/-!
Where a secret is logged.

Values of the letters `q` and `z` are nothing to any rule. If the value of a line is
not hidden, then such a value comes out of the rules behind a bracket or a separator,
and the two sides of it do not depend on it. Where only a token behind the line
matters, a value that ends with the name of the scheme is told from one that does not.
-/

namespace SereinGateway.Core

open SereinGateway.Lib

/-- A secret in which no rule finds anything. -/
def Inert (v : List Char) : Prop := 8 ≤ v.length ∧ ∀ c ∈ v, c = 'q' ∨ c = 'z'

/-- The character before a value that is logged. -/
def Barrier (d : Char) : Prop := d = ']' ∨ separatorChar d = true

section Leaks

variable {p k s q v x y z : List Char} {c d : Char}

theorem Inert.forall_mem (hv : Inert v) {f : Char → Bool} (hq : f 'q' = true) (hz : f 'z' = true) :
    ∀ c ∈ v, f c = true := by
  intro c hc
  rcases hv.2 c hc with rfl | rfl
  · exact hq
  · exact hz

theorem Inert.text (hv : Inert v) : SecretText v where
  long := hv.1
  query := hv.forall_mem (by decide) (by decide)
  value := hv.forall_mem (by decide) (by decide)
  plain c hc := by
    have hall := hv.forall_mem (f := fun c => !separatorChar c && c != '?') (by decide)
      (by decide) c hc
    simpa using hall

theorem AlphanumericClass.secret_of_ascii (letters : AlphanumericClass) (hlen : 8 ≤ v.length)
    (hv : v.all (fun c => decide (c.toNat < 128) && c.isAlphanum) = true) : letters.Secret v := by
  refine ⟨hlen, fun c hc => ?_⟩
  have hall := List.all_eq_true.mp hv c hc
  rw [Bool.and_eq_true, decide_eq_true_iff] at hall
  rw [letters.ascii c hall.1, hall.2]

theorem Inert.not_bearer (hv : Inert v) : ∀ x, x <:+ v → x.map foldCase ≠ "bearer".toList := by
  intro x hx heq
  have hb : 'b' ∈ x.map foldCase := by
    rw [heq]
    decide
  obtain ⟨c, hc, hfold⟩ := List.mem_map.mp hb
  rcases hv.2 c (hx.subset hc) with rfl | rfl
  · exact absurd hfold (by decide)
  · exact absurd hfold (by decide)

/-! ### The rule for keys and values -/

theorem prefix_of_not_mem (h : x <+: y ++ d :: z) (hd : d ∉ x) : x <+: y := by
  obtain ⟨t, ht⟩ := h
  rcases List.append_eq_append_iff.mp ht with ⟨a, rfl, -⟩ | ⟨a, rfl, ha⟩
  · exact List.prefix_append x a
  · cases a with
    | nil => simp
    | cons c a =>
        obtain ⟨rfl, -⟩ := List.cons.inj ha
        simp at hd

theorem find_sensitiveKeyValue_of_head (h : foldCase c ∉ ['a', 't', 's', 'p']) (y : List Char) :
    sensitiveKeyValue.finder.find [] (c :: y) = none := by
  rw [Option.eq_none_iff_forall_ne_some]
  intro m hm
  obtain ⟨hkey, x, hx, -⟩ := find_sensitiveKeyValue.mp hm
  obtain ⟨d, t, hd, -, hfirst⟩ := keyword_first hkey
  rw [hd] at hx
  obtain ⟨rfl, -⟩ := List.cons.inj hx
  exact h hfirst

/-- The search passes a text that no keyword begins in. -/
theorem replaceAll_sensitiveKeyValue_append (h : ∀ c ∈ y, foldCase c ∉ ['a', 't', 's', 'p'])
    (z : List Char) :
    sensitiveKeyValue.replaceAll (y ++ z) = y ++ sensitiveKeyValue.replaceAll z := by
  rw [SanitizationRule.replaceAll_eq, local_sensitiveKeyValue.scan_plains,
    SanitizationRule.render_append, SanitizationRule.render_plains,
    ← SanitizationRule.replaceAll_eq]
  intro x hx hne
  obtain ⟨c, x, rfl⟩ := List.exists_cons_of_ne_nil hne
  exact find_sensitiveKeyValue_of_head (h c (hx.subset List.mem_cons_self)) _

theorem not_first_of_not_keywordChar (h : ¬KeywordChar c) : foldCase c ∉ ['a', 't', 's', 'p'] := by
  intro hmem
  have hall : ['a', 't', 's', 'p'].all Char.isAlpha = true := by decide
  exact h (keywordChar_of_foldCase (.inl (List.all_eq_true.mp hall _ hmem)))

theorem replaceAll_sensitiveKeyValue_separators (hs : ∀ c ∈ s, separatorChar c = true)
    (z : List Char) :
    sensitiveKeyValue.replaceAll (s ++ z) = s ++ sensitiveKeyValue.replaceAll z :=
  replaceAll_sensitiveKeyValue_append (fun c hc =>
    not_first_of_not_keywordChar (not_keywordChar_of_separatorChar (hs c hc))) z

theorem Inert.replaceAll_sensitiveKeyValue (hv : Inert v) (z : List Char) :
    sensitiveKeyValue.replaceAll (v ++ z) = v ++ sensitiveKeyValue.replaceAll z := by
  refine replaceAll_sensitiveKeyValue_append (fun c hc => ?_) z
  rcases hv.2 c hc with rfl | rfl <;> decide

/-- The search passes what a bearer token is replaced by. -/
theorem replaceAll_sensitiveKeyValue_redacted (z : List Char) :
    sensitiveKeyValue.replaceAll (" [REDACTED]".toList ++ z) =
      " [REDACTED]".toList ++ sensitiveKeyValue.replaceAll z := by
  rw [SanitizationRule.replaceAll_eq, local_sensitiveKeyValue.scan_plains,
    SanitizationRule.render_append, SanitizationRule.render_plains,
    ← SanitizationRule.replaceAll_eq]
  intro x hx hne
  rw [Option.eq_none_iff_forall_ne_some]
  intro m hm
  obtain ⟨hkey, t, ht, -⟩ := find_sensitiveKeyValue.mp hm
  obtain ⟨y, rfl, hy⟩ : ∃ y, x = y ++ [']'] ∧ y <:+ " [REDACTED".toList :=
    (List.suffix_concat_iff.mp hx).resolve_left hne
  rw [List.append_assoc] at ht
  have hpre := prefix_of_not_mem ⟨t, ht.symm⟩ fun h =>
    (keywordChar_of_mem hkey h).ne (d := ']') (by decide) rfl
  have hall : " [REDACTED".toList.tails.all (fun y => sensitiveWords.all fun w =>
      !w.isPrefixOf (y.map foldCase)) = true := by decide +kernel
  have hno := List.all_eq_true.mp (List.all_eq_true.mp hall y ((List.mem_tails _ _).mpr hy)) _
    (mem_sensitiveWords hkey)
  rw [List.isPrefixOf_iff_prefix.mpr (hpre.map foldCase)] at hno
  cases hno

/-- Two neighbours in a text that is cut. -/
theorem append_eq_append_pair {a b t : List Char} (h : a ++ b = y ++ d :: c :: t) :
    (d ∈ a ∧ c ∈ a) ∨ a = y ++ [d] ∨ ∃ b', b = b' ++ d :: c :: t := by
  rcases List.append_eq_append_iff.mp h with ⟨b', -, hb⟩ | ⟨a', rfl, hb⟩
  · exact .inr (.inr ⟨b', hb⟩)
  · match a', hb with
    | [], hb => exact .inr (.inr ⟨[], hb.symm⟩)
    | [e], hb =>
        obtain ⟨rfl, -⟩ := List.cons.inj hb
        exact .inr (.inl rfl)
    | e :: e' :: a', hb =>
        obtain ⟨rfl, htail⟩ := List.cons.inj hb
        obtain ⟨rfl, -⟩ := List.cons.inj htail
        exact .inl (by simp)

/-- No match goes beyond a character that is neither the end of a keyword nor a
separator, if no value goes on behind it. -/
theorem not_long_sensitiveKeyValue (hd : separatorChar d = false)
    (hlast : ∀ u, u ++ [d] ∉ keyword.language) (hc : valueChar c = false) :
    ¬sensitiveKeyValue.finder.Long (y ++ [d]) (c :: z) := by
  rintro ⟨m, hm, hlen⟩
  obtain ⟨t, ht⟩ := sensitiveKeyValue.finder.begins hm
  obtain ⟨hkey, x, -, hrest⟩ := find_sensitiveKeyValue.mp hm
  obtain ⟨w, hw, u, hu, heq⟩ := Regex.mem_run_seq.mp (List.mem_of_mem_head? hrest)
  have htext : ∃ t', m.1 ++ (w ++ u) = y ++ d :: c :: t' := by
    rw [SanitizationRule.text_finder, heq] at ht hlen
    have hpre : y ++ [d, c] <+: m.1 ++ (w ++ u) := by
      have hbefore : y ++ [d, c] <+: y ++ [d] ++ c :: z := ⟨z, by simp⟩
      refine List.prefix_of_prefix_length_le hbefore ⟨t, ht⟩ ?_
      simp only [List.length_append, List.length_cons, List.length_nil] at hlen ⊢
      omega
    obtain ⟨t', ht'⟩ := hpre
    exact ⟨t', by rw [← ht']; simp⟩
  obtain ⟨t', ht'⟩ := htext
  rcases append_eq_append_pair ht' with h | h | ⟨b, hb⟩
  · exact not_keywordChar_of_valueChar hc (keywordChar_of_mem hkey h.2)
  · exact hlast y (h ▸ hkey)
  · have hsep : d ∉ w := by
      intro hmem
      rw [Regex.forall_of_mem_run_atLeast hw d hmem] at hd
      cases hd
    rcases append_eq_append_pair hb with h | h | ⟨b', hb'⟩
    · exact hsep h.1
    · exact hsep (by simp [h])
    · have hmem := Regex.forall_of_mem_run_atLeast hu c (by simp [hb'])
      rw [hc] at hmem
      cases hmem

/-- The two sides of such a place are searched apart. -/
theorem replaceAll_sensitiveKeyValue_apart (hd : separatorChar d = false)
    (hlast : ∀ u, u ++ [d] ∉ keyword.language) (hc : valueChar c = false) (y z : List Char) :
    sensitiveKeyValue.replaceAll (y ++ [d] ++ c :: z) =
      sensitiveKeyValue.replaceAll (y ++ [d]) ++ sensitiveKeyValue.replaceAll (c :: z) := by
  have hscan := (local_sensitiveKeyValue.scan_append_or (y ++ [d]) (c :: z)).resolve_right (by
    rintro ⟨ps, m, hm⟩
    obtain ⟨x, rest, hx, hne, hfind, hlen, -⟩ := local_sensitiveKeyValue.crosses_find hm
    obtain ⟨x', rfl, -⟩ : ∃ x', x = x' ++ [d] ∧ x' <:+ y :=
      (List.suffix_concat_iff.mp ⟨_, hx.symm⟩).resolve_left hne
    exact not_long_sensitiveKeyValue hd hlast hc ⟨m, hfind, hlen⟩)
  rw [SanitizationRule.replaceAll_eq, hscan, SanitizationRule.render_append]
  rfl

/-! ### What is left of a line by the rules up to the one for keys and values -/

theorem exists_replaceAll_append_cons {rule : SanitizationRule} (hgroup : rule.group = .epsilon)
    (hlocal : rule.finder.Local) (hd : rule.rest.Avoids d) (x : List Char) :
    ∃ a, ∀ y, rule.replaceAll (x ++ d :: y) = a ++ d :: rule.replaceAll y := by
  obtain ⟨ps, hps⟩ : ∃ ps, ∀ y, rule.finder.scan [] (x ++ d :: y) =
      ps ++ .plain d :: rule.finder.scan (d :: x.reverse) y := by
    obtain ⟨group, rest, replacement, nonempty⟩ := rule
    obtain rfl : group = .epsilon := hgroup
    obtain ⟨ps, hps⟩ := Regex.exists_scan_append_cons nonempty hd [] x
    exact ⟨ps, fun y => (hps y).trans (by rw [List.append_nil]; rfl)⟩
  refine ⟨rule.render ps, fun y => ?_⟩
  rw [SanitizationRule.replaceAll_eq, hps, SanitizationRule.render_append,
    hlocal.scan_left _ []]
  rfl

theorem bearerToken_avoids_bracket : bearerToken.rest.Avoids ']' := by
  have hfolded : ("bearer".toList.all fun c => !(foldCase ']' == c)) = true := by
    rw [toList_of_eq_ofList (s := "bearer") rfl]
    decide
  refine ⟨.spelled fun f hf => ?_, .atLeast (by decide) 1, .atLeast (by decide) 1, ?_⟩
  · obtain ⟨c, hc, rfl⟩ := List.mem_map.mp hf
    exact (Bool.not_eq_true' _).mp (List.all_eq_true.mp hfolded c hc)
  · show (']' == '=') = false
    decide

theorem exists_barrier {e : List Char} (he : e ≠ []) (hall : ∀ d ∈ e, Barrier d) (x : List Char) :
    ∃ a d, Barrier d ∧ ∀ y, x ++ (e ++ y) = a ++ d :: y := by
  refine ⟨x ++ e.dropLast, e.getLast he, hall _ (List.getLast_mem he), fun y => ?_⟩
  conv_lhs => rw [← List.dropLast_append_getLast he]
  simp

/-- The value of a line is shown if the line is left as this, for all inert values
alike. -/
def Shown (p k s q : List Char) : Prop :=
  ∃ a d b, Barrier d ∧ (∀ c t, b = c :: t → valueChar c = false) ∧
    ∀ v, Inert v → replaceKeyed (p ++ (k ++ (s ++ (v ++ q)))) = a ++ d :: (v ++ b)

theorem keyword_not_end (hd : d ∈ [']', 'r']) (u : List Char) : u ++ [d] ∉ keyword.language := by
  intro hkey
  have hall : (sensitiveWords.all fun w =>
      [']', 'r'].all fun d => w.getLast? != some (foldCase d)) =
      true := by decide +kernel
  have hno := List.all_eq_true.mp (List.all_eq_true.mp hall _ (mem_sensitiveWords hkey)) d hd
  simp at hno

theorem KeyValueLine.token_passes_inert (line : KeyValueLine k s q) (hv : Inert v)
    (hs : ∀ c ∈ y, separatorChar c = true) :
    bearerToken.replaceAll (y ++ (v ++ q)) = y ++ (v ++ bearerToken.replaceAll q) := by
  rw [SanitizationRule.replaceAll_eq, scan_bearerToken_separators hs,
    scan_bearerToken_value hv.text line.rest (.inr hv.not_bearer)]
  simp only [SanitizationRule.render_append, SanitizationRule.render_plains]
  rfl

theorem Inert.value_passes (hv : Inert v) (hs : ∀ c ∈ y, separatorChar c = true) (z : List Char) :
    sensitiveKeyValue.replaceAll (y ++ (v ++ z)) = y ++ (v ++ sensitiveKeyValue.replaceAll z) := by
  rw [replaceAll_sensitiveKeyValue_separators hs, hv.replaceAll_sensitiveKeyValue]

theorem KeyValueLine.of_value (line : KeyValueLine k s q) :
    KeyValueLine k s (sensitiveKeyValue.replaceAll q) := by
  refine line.of_head? ?_
  cases q with
  | nil => rfl
  | cons c q =>
      have hc := not_first_of_not_keywordChar (not_keywordChar_of_valueChar (line.rest c q rfl))
      have hcons := replaceAll_sensitiveKeyValue_append (y := [c]) (by simpa using hc) q
      rw [List.singleton_append] at hcons
      rw [hcons]
      rfl

theorem shown_of_query (line : KeyValueLine k s q) (h : Swallows apiKeyQuery p k)
    (hspace : ∃ c ∈ s, isWhitespace c = true) : Shown p k s q := by
  obtain ⟨-, a, ha⟩ := (apiKeyQuery_line line.key p).resolve_right fun hn => hn.1 h
  -- The separators from the first white space on.
  obtain ⟨w, hw, hw'⟩ := hspace
  have hne : s.dropWhile queryChar ≠ [] := by
    rw [Ne, List.dropWhile_eq_nil_iff]
    intro hall
    have hquery := hall w hw
    simp [queryChar, hw'] at hquery
  have hsep : ∀ c ∈ s.dropWhile queryChar, separatorChar c = true := fun c hc =>
    line.separators c ((List.dropWhile_suffix queryChar).subset hc)
  have hdrop : ∀ e, (s ++ e).dropWhile queryChar = s.dropWhile queryChar ++ e := by
    intro e
    rw [List.dropWhile_append, if_neg (by simpa using hne)]
  have hhead := List.head?_dropWhile_not queryChar s
  cases hs : s.dropWhile queryChar with
  | nil => exact absurd hs hne
  | cons c s' =>
      rw [hs] at hsep hdrop hhead
      have hc : valueChar c = false := by
        have hcs := hsep c List.mem_cons_self
        have hne : c ≠ '&' := by
          rintro rfl
          exact absurd hcs (by decide)
        have hspace : isWhitespace c = true := by simpa [queryChar, hne] using hhead
        simp [valueChar, hspace]
      obtain ⟨a', ha'⟩ := exists_replaceAll_append_cons rfl local_bearerToken
        bearerToken_avoids_bracket (a ++ "?key=[REDACTED".toList)
      obtain ⟨x, d, hd, hx⟩ := exists_barrier (List.cons_ne_nil c s')
        (fun d hd => .inr (hsep d hd)) (sensitiveKeyValue.replaceAll (a' ++ [']']))
      refine ⟨x, d, sensitiveKeyValue.replaceAll (bearerToken.replaceAll
        (apiKeyQuery.replaceAll q)), hd, line.of_query.of_token.of_value.rest, fun v hv => ?_⟩
      have hquery : '?' ∉ c :: s' := fun h => absurd (hsep _ h) (by decide)
      have hv' : '?' ∉ v := fun h => (hv.text.plain _ h).2 rfl
      have hsplit : a ++ ("?key=[REDACTED]".toList ++
          (c :: s' ++ (v ++ apiKeyQuery.replaceAll q))) =
          a ++ "?key=[REDACTED".toList ++ ']' :: (c :: s' ++ (v ++ apiKeyQuery.replaceAll q)) := by
        simp
      have hsplit' : ∀ e, a' ++ ']' :: (c :: s' ++ e) = a' ++ [']'] ++ c :: (s' ++ e) := by simp
      rw [replaceKeyed, ha, hdrop, replaceAll_apiKeyQuery_append hquery,
        replaceAll_apiKeyQuery_append hv', hsplit, ha', line.of_query.token_passes_inert hv hsep,
        hsplit', replaceAll_sensitiveKeyValue_apart (by decide)
          (fun u => keyword_not_end (by decide) u) hc, ← hx]
      exact congrArg _ (hv.value_passes hsep _)

theorem tokenChar_of_separatorChar (h : separatorChar c = true) : tokenChar c = false := by
  rw [Bool.eq_false_iff]
  intro ht
  have hspace := not_space_of_tokenChar ht
  simp only [separatorChar, hspace, Bool.or_false, Bool.or_eq_true, beq_iff_eq] at h
  rcases h with (rfl | rfl) | rfl <;> exact absurd ht (by decide)

theorem barrier_of_mem_bracket (hs : ∀ c ∈ s, separatorChar c = true) :
    ∀ d ∈ ']' :: s, Barrier d := by
  intro d hd
  rcases List.mem_cons.mp hd with rfl | hd
  · exact .inl rfl
  · exact .inr (hs d hd)

theorem shown_of_token (line : KeyValueLine k s q) (hquery : ¬Swallows apiKeyQuery p k)
    (h : Swallows bearerToken (apiKeyQuery.replaceAll p) k) : Shown p k s q := by
  obtain ⟨-, hquery⟩ := (apiKeyQuery_line line.key p).resolve_left fun hn => hquery hn.1
  obtain ⟨-, a, ha⟩ := (bearerToken_line line.key (apiKeyQuery.replaceAll p)).resolve_right
    fun hn => hn.1 h
  have hsep : ∀ c ∈ s.dropWhile (· == '='), separatorChar c = true := fun c hc =>
    line.separators c ((List.dropWhile_suffix _).subset hc)
  obtain ⟨x, d, hd, hx⟩ := exists_barrier (List.cons_ne_nil _ _) (barrier_of_mem_bracket hsep)
    (sensitiveKeyValue.replaceAll (a ++ "Beare".toList ++ ['r']) ++ " [REDACTED".toList)
  refine ⟨x, d, sensitiveKeyValue.replaceAll (bearerToken.replaceAll (apiKeyQuery.replaceAll q)),
    hd, line.of_query.of_token.of_value.rest, fun v hv => ?_⟩
  have hdrop : ∀ e, ((s ++ (v ++ e)).dropWhile tokenChar).dropWhile (· == '=') =
      s.dropWhile (· == '=') ++ (v ++ e) := by
    intro e
    obtain ⟨c, s', hs⟩ := List.exists_cons_of_ne_nil line.separated
    have hc := tokenChar_of_separatorChar (line.separators c (by simp [hs]))
    have htoken : (s ++ (v ++ e)).dropWhile tokenChar = s ++ (v ++ e) := by
      rw [hs, List.cons_append, List.dropWhile_cons_of_neg (by simp [hc])]
    rw [htoken, List.dropWhile_append]
    split
    · rename_i hnil
      rw [List.isEmpty_iff.mp hnil]
      obtain ⟨c, v', rfl⟩ : ∃ c v', v = c :: v' :=
        List.exists_cons_of_ne_nil (List.length_pos_iff.mp (by have := hv.1; omega))
      have hne := hv.forall_mem (f := fun c => !(c == '=')) (by decide) (by decide) c (by simp)
      rw [List.cons_append, List.dropWhile_cons_of_neg (by simpa using hne)]
      rfl
    · rfl
  have hsplit : ∀ e, a ++ ("Bearer [REDACTED]".toList ++ e) =
      a ++ "Beare".toList ++ ['r'] ++ ' ' :: ("[REDACTED]".toList ++ e) := by simp
  have hredacted : ∀ e, sensitiveKeyValue.replaceAll (' ' :: ("[REDACTED]".toList ++ e)) =
      " [REDACTED".toList ++ ']' :: sensitiveKeyValue.replaceAll e := by
    intro e
    refine (replaceAll_sensitiveKeyValue_redacted e).trans ?_
    simp
  rw [replaceKeyed, hquery, line.query_passes hv.text, ha, hdrop,
    line.of_query.token_passes_inert hv hsep, hsplit,
    replaceAll_sensitiveKeyValue_apart (by decide) (fun u => keyword_not_end (by decide) u)
      (by decide),
    hredacted, hv.value_passes hsep, ← hx]
  simp

theorem shown_of_value (line : KeyValueLine k s q) (hquery : ¬Swallows apiKeyQuery p k)
    (hbearer : ¬Swallows bearerToken (apiKeyQuery.replaceAll p) k)
    (h : SwallowsValue (bearerToken.replaceAll (apiKeyQuery.replaceAll p)) k s) :
    Shown p k s q := by
  obtain ⟨-, hquery⟩ := (apiKeyQuery_line line.key p).resolve_left fun hn => hquery hn.1
  obtain ⟨-, hbearer⟩ := (bearerToken_line line.key (apiKeyQuery.replaceAll p)).resolve_left
    fun hn => hbearer hn.1
  obtain ⟨a, ha⟩ := sensitiveKeyValue_swallows h
  have hsep : ∀ c ∈ s.dropWhile valueChar, separatorChar c = true := fun c hc =>
    line.separators c ((List.dropWhile_suffix valueChar).subset hc)
  obtain ⟨x, d, hd, hx⟩ := exists_barrier (List.cons_ne_nil _ _) (barrier_of_mem_bracket hsep)
    (a ++ "=[REDACTED".toList)
  refine ⟨x, d, sensitiveKeyValue.replaceAll (bearerToken.replaceAll (apiKeyQuery.replaceAll q)),
    hd, line.of_query.of_token.of_value.rest, fun v hv => ?_⟩
  rw [replaceKeyed, hquery, line.query_passes hv.text, hbearer,
    line.of_query.token_passes hv.text (.inr hv.not_bearer), ha v _ hv.text line.of_query.of_token,
    hv.value_passes hsep, ← hx]
  simp

/-! ### The rules for addresses -/

/-- The characters before the at sign of an address. -/
def emailUser (c : Char) : Bool :=
  c.isAlphanum || c == '.' || c == '_' || c == '%' || c == '+' || c == '-'

theorem find_emailAddress (h : (y.dropWhile emailUser).head? ≠ some '@') :
    emailAddress.finder.find [] y = none := by
  have hnone : ∀ tail left z, z.head? ≠ some '@' →
      (Regex.seq (.one (· == '@')) tail).run left z = [] := by
    intro tail left z hz
    rw [List.eq_nil_iff_forall_not_mem]
    intro w hw
    obtain ⟨u, hu, -⟩ := Regex.mem_run_seq.mp hw
    obtain ⟨c, t, rfl, hc, -⟩ := Regex.mem_run_one.mp hu
    exact hz (by rw [List.head?_cons, eq_of_beq hc])
  obtain ⟨tail, htail⟩ : ∃ tail, emailAddress.rest =
      .seq (.atLeast emailUser 1) (.seq (.one (· == '@')) tail) := ⟨_, rfl⟩
  have hrun : (emailAddress.rest.run [] y).head? = none := by
    rw [htail, Regex.head?_run_atLeast_seq, hnone _ _ _ h]
    · split <;> rfl
    · intro c t left hc
      refine hnone _ _ _ ?_
      rw [List.head?_cons, Ne, Option.some.injEq]
      rintro rfl
      exact absurd hc (by decide)
  refine Regex.find_groupFinder_epsilon.trans ?_
  rw [hrun]
  rfl

theorem replaceAll_emailAddress_cons (h : ((c :: y).dropWhile emailUser).head? ≠ some '@') :
    emailAddress.replaceAll (c :: y) = c :: emailAddress.replaceAll y := by
  rw [SanitizationRule.replaceAll_eq, local_emailAddress.scan_plain (find_emailAddress h)]
  rfl

/-- The characters that no address has in it. -/
def Foreign (c : Char) : Prop :=
  isWhitespace c = true ∨ c ∈ ['"', '\x7b', '\x7d', ',', ':', '=', ']']

theorem foreign_of_valueChar (h : valueChar c = false) : Foreign c := by
  simp only [valueChar, Bool.not_eq_false', Bool.or_eq_true, beq_iff_eq] at h
  rcases h with (((h | rfl) | rfl) | rfl) | rfl
  · exact .inl h
  all_goals exact .inr (by simp)

theorem Barrier.foreign (h : Barrier d) : Foreign d := by
  rcases h with rfl | h
  · exact .inr (by simp)
  · simp only [separatorChar, Bool.or_eq_true, beq_iff_eq] at h
    rcases h with ((rfl | h) | rfl) | rfl
    · exact .inr (by simp)
    · exact .inl h
    all_goals exact .inr (by simp)

theorem Foreign.emailUser (h : Foreign c) : emailUser c = false ∧ c ≠ '@' := by
  rcases h with h | h
  · constructor
    · rw [Bool.eq_false_iff]
      intro hu
      simp only [SereinGateway.Core.emailUser, Bool.or_eq_true, beq_iff_eq] at hu
      rcases hu with ((((hu | rfl) | rfl) | rfl) | rfl) | rfl
      · rw [asciiAlphanumeric.not_space c hu] at h
        cases h
      all_goals exact absurd h (by decide)
    · rintro rfl
      exact absurd h (by decide)
  · have hall : (['"', '\x7b', '\x7d', ',', ':', '=', ']'].all fun c =>
        !SereinGateway.Core.emailUser c && c != '@') = true := by decide
    simpa using List.all_eq_true.mp hall c h

theorem Foreign.digit (h : Foreign c) (cls : CharClasses) : cls.digit c = false := by
  rw [Bool.eq_false_iff]
  intro hd
  rcases h with h | h
  · rw [cls.digit_not_space c hd] at h
    cases h
  · have hall : (['"', '\x7b', '\x7d', ',', ':', '=', ']'].all fun c =>
        decide (c.toNat < 128) && !c.isDigit) = true := by decide
    have hc := List.all_eq_true.mp hall c h
    rw [Bool.and_eq_true, decide_eq_true_iff] at hc
    rw [cls.ascii_digit c hc.1] at hd
    simp [hd] at hc

theorem Foreign.avoids_emailAddress (h : Foreign c) : emailAddress.rest.Avoids c := by
  obtain ⟨hu, hat⟩ := h.emailUser
  have hclasses := hu
  simp only [SereinGateway.Core.emailUser, Bool.or_eq_false_iff] at hclasses
  obtain ⟨⟨⟨⟨⟨halpha, hdot⟩, -⟩, -⟩, -⟩, hminus⟩ := hclasses
  refine ⟨.atLeast hu 1, beq_eq_false_iff_ne.mpr hat, .atLeast ?_ 1, hdot, .atLeast ?_ 2⟩
  · simp [halpha, hdot, hminus]
  · exact (Bool.or_eq_false_iff.mp halpha).1

theorem Foreign.avoids_ipv4Address (h : Foreign c) (cls : CharClasses) :
    (ipv4Address cls).rest.Avoids c := by
  have hd := h.digit cls
  have hdot : (c == '.') = false := by
    rw [beq_eq_false_iff_ne]
    rintro rfl
    exact absurd h.emailUser.1 (by decide)
  have hoctet : ∀ n, (Regex.times (.one cls.digit) n).Avoids c :=
    fun n => (Regex.Avoids.atLeast hd n).1
  have halt := And.intro (hoctet 3) (And.intro (hoctet 2) (hoctet 1))
  exact ⟨trivial, halt, hdot, halt, hdot, halt, hdot, halt, trivial⟩

theorem Inert.replaceAll_emailAddress (hv : Inert v)
    (hz : ∀ c t, z = c :: t → valueChar c = false) :
    emailAddress.replaceAll (v ++ z) = v ++ emailAddress.replaceAll z := by
  rw [SanitizationRule.replaceAll_eq, local_emailAddress.scan_plains,
    SanitizationRule.render_append, SanitizationRule.render_plains,
    ← SanitizationRule.replaceAll_eq]
  intro x hx hne
  refine find_emailAddress ?_
  have huser := hv.forall_mem (f := emailUser) (by decide) (by decide)
  rw [List.dropWhile_append_of_pos fun c hc => huser c (hx.subset hc)]
  cases z with
  | nil => simp
  | cons c z =>
      obtain ⟨hc, hne⟩ := (foreign_of_valueChar (hz c z rfl)).emailUser
      rw [List.dropWhile_cons_of_neg (by simp [hc]), List.head?_cons, Ne, Option.some.injEq]
      exact hne

theorem find_ipv4Address {cls : CharClasses} (h : cls.digit c = false) (left y : List Char) :
    (ipv4Address cls).finder.find left (c :: y) = none := by
  have hdigits : ∀ n, 0 < n → ∀ left, (Regex.times (.one cls.digit) n).run left (c :: y) = [] := by
    intro n hn left
    rw [Regex.run_times_one, List.takeWhile_cons_of_neg (by simp [h]), if_neg (by simp; omega)]
  have hrun : (ipv4Address cls).rest.run left (c :: y) = [] := by
    rw [List.eq_nil_iff_forall_not_mem]
    intro w hw
    obtain ⟨u, hu, v, hv, -⟩ := Regex.mem_run_seq.mp hw
    rw [(Regex.mem_run_boundary.mp hu).2] at hv
    obtain ⟨o, ho, -⟩ := Regex.mem_run_seq.mp hv
    rcases Regex.mem_run_alt.mp ho with ho | ho
    · rw [List.length_nil, List.drop_zero, hdigits 3 (by decide)] at ho
      cases ho
    · rcases Regex.mem_run_alt.mp ho with ho | ho
      · rw [List.length_nil, List.drop_zero, hdigits 2 (by decide)] at ho
        cases ho
      · rw [List.length_nil, List.drop_zero, hdigits 1 (by decide)] at ho
        cases ho
  refine Regex.find_groupFinder_epsilon.trans ?_
  rw [hrun]
  rfl

/-- The search for IP addresses behind a character that no address has in it. -/
theorem ipv4Address_split (cls : CharClasses) (hd : Foreign d) (x : List Char) :
    ∃ a, ∀ y, (ipv4Address cls).replaceAll (x ++ d :: y) =
      a ++ d :: (ipv4Address cls).render ((ipv4Address cls).finder.scan [d] y) := by
  obtain ⟨ps, hps⟩ := Regex.exists_scan_append_cons (ipv4Address cls).nonempty
    (hd.avoids_ipv4Address cls) [] x
  refine ⟨(ipv4Address cls).render ps, fun y => ?_⟩
  have hleft : (ipv4Address cls).finder.scan (d :: (x.reverse ++ [])) y =
      (ipv4Address cls).finder.scan [d] y := by
    refine Finder.scan_congr_head Regex.find_congr_head ?_ y
    rfl
  rw [SanitizationRule.replaceAll_eq, ← hleft]
  refine (congrArg _ (hps y)).trans ?_
  rw [SanitizationRule.render_append]
  rfl

theorem ipv4Address_cons {cls : CharClasses} (h : cls.digit c = false) (left y : List Char) :
    (ipv4Address cls).render ((ipv4Address cls).finder.scan left (c :: y)) =
      c :: (ipv4Address cls).render ((ipv4Address cls).finder.scan (c :: left) y) := by
  rw [Finder.scan_plain (find_ipv4Address h left y)]
  rfl

/-- A value between fixed texts, with `z` at its end, is kept by the rule. -/
theorem ipv4Address_shown (cls : CharClasses) (hd : Foreign d) (x y : List Char) :
    ∃ a b, ∀ v, Inert v → v.getLast? = some 'z' →
      (ipv4Address cls).replaceAll (x ++ d :: (v ++ y)) = a ++ (v ++ b) := by
  obtain ⟨a, ha⟩ := ipv4Address_split cls hd x
  refine ⟨a ++ [d], (ipv4Address cls).render ((ipv4Address cls).finder.scan ['z'] y),
    fun v hv hlast => ?_⟩
  have hdigit : ∀ c ∈ v, cls.digit c = false := by
    intro c hc
    rcases hv.2 c hc with rfl | rfl
    · exact cls.ascii_digit 'q' (by decide)
    · exact cls.ascii_digit 'z' (by decide)
  have hplains : (ipv4Address cls).finder.scan [d] (v ++ y) =
      v.map .plain ++ (ipv4Address cls).finder.scan ['z'] y := by
    rw [Finder.scan_plains]
    · refine congrArg _ (Finder.scan_congr_head Regex.find_congr_head ?_ y)
      rw [List.head?_append, List.head?_reverse, hlast]
      rfl
    · intro left u hu hne
      obtain ⟨c, u, rfl⟩ := List.exists_cons_of_ne_nil hne
      exact find_ipv4Address (hdigit c (hu.subset List.mem_cons_self)) left _
  rw [ha, hplains, SanitizationRule.render_append, SanitizationRule.render_plains]
  simp

/-- What the rules for addresses do. -/
def LogSanitizer.replaceAddresses (sanitizer : LogSanitizer) (cls : CharClasses)
    (input : List Char) : List Char :=
  if sanitizer.maskIpv4 then (ipv4Address cls).replaceAll (emailAddress.replaceAll input)
  else emailAddress.replaceAll input

theorem LogSanitizer.sanitizeChars_eq (sanitizer : LogSanitizer) (cls : CharClasses)
    (input : List Char) :
    sanitizer.sanitizeChars cls input = sanitizer.replaceAddresses cls (replaceKeyed input) := by
  simp only [LogSanitizer.sanitizeChars, sanitizationRules, List.foldl_cons, List.foldl_nil,
    LogSanitizer.replaceAddresses, replaceKeyed]

theorem Shown.sanitizeChars (h : Shown p k s q) (sanitizer : LogSanitizer) (cls : CharClasses) :
    ∃ a b, ∀ v, Inert v → v.getLast? = some 'z' →
      sanitizer.sanitizeChars cls (p ++ (k ++ (s ++ (v ++ q)))) = a ++ (v ++ b) := by
  obtain ⟨x, d, y, hd, hy, hkeyed⟩ := h
  obtain ⟨x', hx'⟩ := exists_replaceAll_append_cons rfl local_emailAddress
    hd.foreign.avoids_emailAddress x
  have hemail : ∀ v, Inert v → emailAddress.replaceAll (x ++ d :: (v ++ y)) =
      x' ++ d :: (v ++ emailAddress.replaceAll y) := by
    intro v hv
    rw [hx', hv.replaceAll_emailAddress hy]
  by_cases hmask : sanitizer.maskIpv4 = true
  · obtain ⟨a, b, hab⟩ := ipv4Address_shown cls hd.foreign x' (emailAddress.replaceAll y)
    refine ⟨a, b, fun v hv hlast => ?_⟩
    rw [LogSanitizer.sanitizeChars_eq, hkeyed v hv, LogSanitizer.replaceAddresses, if_pos hmask,
      hemail v hv, hab v hv hlast]
  · refine ⟨x' ++ [d], emailAddress.replaceAll y, fun v hv _ => ?_⟩
    rw [LogSanitizer.sanitizeChars_eq, hkeyed v hv, LogSanitizer.replaceAddresses, if_neg hmask,
      hemail v hv]
    simp

/-! ### A token behind the line -/

/-- What the rules for addresses do to what stands behind `left`. -/
def LogSanitizer.addressesFrom (sanitizer : LogSanitizer) (cls : CharClasses)
    (left y : List Char) : List Char :=
  if sanitizer.maskIpv4 then
    (ipv4Address cls).render ((ipv4Address cls).finder.scan left (emailAddress.replaceAll y))
  else emailAddress.replaceAll y

theorem LogSanitizer.exists_replaceAddresses (sanitizer : LogSanitizer) (cls : CharClasses)
    (hd : Foreign d) (x : List Char) : ∃ a, ∀ y,
      sanitizer.replaceAddresses cls (x ++ d :: y) =
        a ++ d :: sanitizer.addressesFrom cls [d] y := by
  obtain ⟨x', hx'⟩ := exists_replaceAll_append_cons rfl local_emailAddress hd.avoids_emailAddress x
  by_cases hmask : sanitizer.maskIpv4 = true
  · obtain ⟨a, ha⟩ := ipv4Address_split cls hd x'
    refine ⟨a, fun y => ?_⟩
    rw [replaceAddresses, addressesFrom, if_pos hmask, if_pos hmask, hx', ha]
  · refine ⟨x', fun y => ?_⟩
    rw [replaceAddresses, addressesFrom, if_neg hmask, if_neg hmask, hx']

/-- A character that begins no address. -/
theorem LogSanitizer.addressesFrom_cons (sanitizer : LogSanitizer) {cls : CharClasses}
    (hdigit : cls.digit c = false) (h : ((c :: y).dropWhile emailUser).head? ≠ some '@')
    (left : List Char) :
    sanitizer.addressesFrom cls left (c :: y) = c :: sanitizer.addressesFrom cls (c :: left) y := by
  rw [addressesFrom, addressesFrom, replaceAll_emailAddress_cons h]
  split
  · exact ipv4Address_cons hdigit left _
  · rfl

theorem LogSanitizer.addressesFrom_spaces (sanitizer : LogSanitizer) (cls : CharClasses)
    (hs : ∀ c ∈ s, isWhitespace c = true) (left y : List Char) :
    sanitizer.addressesFrom cls left (s ++ y) =
      s ++ sanitizer.addressesFrom cls (s.reverse ++ left) y := by
  induction s generalizing left with
  | nil => rfl
  | cons c s ih =>
      have hc : Foreign c := .inl (hs c List.mem_cons_self)
      have hhead : ((c :: (s ++ y)).dropWhile emailUser).head? ≠ some '@' := by
        rw [List.dropWhile_cons_of_neg (by simp [hc.emailUser.1]), List.head?_cons, Ne,
          Option.some.injEq]
        exact hc.emailUser.2
      rw [List.cons_append, sanitizer.addressesFrom_cons (hc.digit cls) hhead,
        ih fun c' hc' => hs c' (List.mem_cons_of_mem c hc')]
      simp

/-- The text that a token is replaced by is kept. -/
theorem LogSanitizer.addressesFrom_redacted (sanitizer : LogSanitizer) (cls : CharClasses)
    (left y : List Char) : ∃ z, sanitizer.addressesFrom cls left (" [REDACTED]".toList ++ y) =
      ' ' :: '[' :: 'R' :: z := by
  have hdigit : ∀ c : Char, c.toNat < 128 → c.isDigit = false → cls.digit c = false :=
    fun c hc hd => (cls.ascii_digit c hc).trans hd
  have hsplit : " [REDACTED]".toList ++ y =
      ' ' :: '[' :: 'R' :: ("EDACTED".toList ++ ']' :: y) := by
    simp
  rw [hsplit, sanitizer.addressesFrom_cons (hdigit _ (by decide) (by decide)),
    sanitizer.addressesFrom_cons (hdigit _ (by decide) (by decide)),
    sanitizer.addressesFrom_cons (hdigit _ (by decide) (by decide))]
  · exact ⟨_, rfl⟩
  · simp [emailUser]
  · simp [emailUser]
  · simp [emailUser]

/-- The first character is kept, or a match is replaced. -/
theorem SanitizationRule.render_scan_cases (rule : SanitizationRule) (left y : List Char)
    (c : Char) :
    rule.render (rule.finder.scan left (c :: y)) =
        c :: rule.render (rule.finder.scan (c :: left) y) ∨
      ∃ group z, rule.render (rule.finder.scan left (c :: y)) = rule.replacement group ++ z := by
  cases hfind : rule.finder.find left (c :: y) with
  | none =>
      rw [Finder.scan_plain hfind]
      exact .inl rfl
  | some m =>
      obtain ⟨t, ht⟩ := rule.finder.begins hfind
      rw [← ht] at hfind ⊢
      rw [Finder.scan_hit hfind, render_hit]
      exact .inr ⟨m.1, _, rfl⟩

theorem ne_of_tokenChar (hc : tokenChar c = true) : c ≠ '[' := by
  rintro rfl
  exact absurd hc (by decide)

/-- A token is never replaced by it: what takes the place of an address begins in
another way. -/
theorem LogSanitizer.addressesFrom_token (sanitizer : LogSanitizer) (cls : CharClasses)
    (hc : tokenChar c = true) (left y z : List Char) :
    sanitizer.addressesFrom cls left (c :: y) ≠ '[' :: 'R' :: z := by
  have hemail := emailAddress.render_scan_cases [] y c
  rw [← SanitizationRule.replaceAll_eq] at hemail
  rw [addressesFrom]
  split
  · rcases hemail with heq | ⟨group, t, heq⟩
    · rw [heq]
      rcases (ipv4Address cls).render_scan_cases left _ c with h | ⟨group, t, h⟩
      · rw [h]
        intro hz
        exact ne_of_tokenChar hc (List.cons.inj hz).1
      · rw [h]
        intro hz
        exact absurd (List.cons.inj (List.cons.inj hz).2).1 (by decide)
    · have hdigit : ∀ c : Char, c.toNat < 128 → c.isDigit = false → cls.digit c = false :=
        fun c hc hd => (cls.ascii_digit c hc).trans hd
      rw [heq]
      show (ipv4Address cls).render ((ipv4Address cls).finder.scan left ('[' :: 'E' :: _)) ≠ _
      rw [ipv4Address_cons (hdigit '[' (by decide) (by decide)),
        ipv4Address_cons (hdigit 'E' (by decide) (by decide))]
      intro hz
      exact absurd (List.cons.inj (List.cons.inj hz).2).1 (by decide)
  · rcases hemail with heq | ⟨group, t, heq⟩
    · rw [heq]
      intro hz
      exact ne_of_tokenChar hc (List.cons.inj hz).1
    · rw [heq]
      intro hz
      exact absurd (List.cons.inj (List.cons.inj hz).2).1 (by decide)

/-- The rule for bearer tokens on a line with a token behind a value that ends with
the name of the scheme. -/
theorem token_taken (line : KeyValueLine k s q) {tail : List Char} (h : bearerTail y = some tail) :
    ∃ z, bearerToken.replaceAll (k ++ (s ++ ("zzbearer".toList ++ y))) =
      k ++ (s ++ ("zzBearer".toList ++ (" [REDACTED]".toList ++ z))) := by
  have hfind : bearerToken.finder.find [] ("bearer".toList ++ y) =
      some ([], "bearer".toList ++ tail) :=
    find_bearerToken.mpr ⟨_, y, tail, rfl, by decide, h, rfl⟩
  obtain ⟨rest, hrest⟩ := bearerToken.finder.begins hfind
  have hhit := local_bearerToken.scan_hit (hrest ▸ hfind)
  rw [hrest] at hhit
  have hsplit : ∀ y, "zzbearer".toList ++ y = "zz".toList ++ ("bearer".toList ++ y) := by simp
  have hplains : bearerToken.finder.scan [] ("zz".toList ++ ("bearer".toList ++ y)) =
      "zz".toList.map .plain ++ bearerToken.finder.scan [] ("bearer".toList ++ y) := by
    refine local_bearerToken.scan_plains fun x hx hne => ?_
    obtain ⟨c, x, rfl⟩ := List.exists_cons_of_ne_nil hne
    obtain rfl : c = 'z' := by simpa using hx.subset List.mem_cons_self
    rw [Option.eq_none_iff_forall_ne_some]
    intro m hm
    obtain ⟨u, y, w, hu, hfold, -⟩ := find_bearerToken.mp hm
    cases u with
    | nil => cases hfold
    | cons c u =>
        obtain ⟨rfl, -⟩ := List.cons.inj hu
        exact absurd (List.cons.inj hfold).1 (by decide)
  refine ⟨bearerToken.replaceAll rest, ?_⟩
  rw [SanitizationRule.replaceAll_eq, scan_bearerToken_keyword line,
    scan_bearerToken_separators line.separators, hsplit, hplains, hhit]
  simp only [SanitizationRule.render_append, SanitizationRule.render_plains,
    SanitizationRule.render_hit]
  have hreplaced : ∀ z, "zz".toList ++ ("Bearer [REDACTED]".toList ++ z) =
      "zzBearer".toList ++ (" [REDACTED]".toList ++ z) := by simp
  exact congrArg (k ++ ·) (congrArg (s ++ ·) (hreplaced _))

/-- The rules up to the one for keys and values keep the beginning of a token. -/
theorem token_kept (hc : tokenChar c = true) (y : List Char) : ∃ d z, tokenChar d = true ∧
    sensitiveKeyValue.replaceAll (bearerToken.replaceAll (c :: y)) = d :: z := by
  obtain ⟨d, z, hd, hz⟩ : ∃ d z, tokenChar d = true ∧ bearerToken.replaceAll (c :: y) = d :: z := by
    rw [SanitizationRule.replaceAll_eq]
    rcases bearerToken.render_scan_cases [] y c with h | ⟨group, z, h⟩
    · exact ⟨c, _, hc, h⟩
    · exact ⟨'B', _, by decide, h⟩
  rw [hz]
  cases hfind : sensitiveKeyValue.finder.find [] (d :: z) with
  | none =>
      rw [SanitizationRule.replaceAll_eq, Finder.scan_plain hfind]
      exact ⟨d, _, hd, rfl⟩
  | some m =>
      obtain ⟨hkey, x, hx, -⟩ := find_sensitiveKeyValue.mp hfind
      obtain ⟨e, t, hm, -⟩ := keyword_first hkey
      obtain ⟨rest, hrest⟩ := sensitiveKeyValue.finder.begins hfind
      rw [← hrest] at hfind
      rw [SanitizationRule.replaceAll_eq, ← hrest, Finder.scan_hit hfind,
        SanitizationRule.render_hit]
      rw [hm] at hx
      obtain ⟨rfl, -⟩ := List.cons.inj hx
      have hnew : sensitiveKeyValue.replacement m.1 = d :: (t ++ "=[REDACTED]".toList) := by
        rw [hm]
        rfl
      rw [hnew]
      exact ⟨d, _, hd, rfl⟩

/-- A line with a token behind a value that ends with the name of the scheme, and one
with an inert value. -/
theorem replaceKeyed_bearer (line : KeyValueLine k s q) (hquery : ¬Swallows apiKeyQuery p k)
    (hbearer : ¬Swallows bearerToken (apiKeyQuery.replaceAll p) k)
    (hvalue : ¬SwallowsValue (bearerToken.replaceAll (apiKeyQuery.replaceAll p)) k s)
    (hq : bearerTail q ≠ none) : ∃ a,
      (∃ z, replaceKeyed (p ++ (k ++ (s ++ ("zzbearer".toList ++ q)))) =
        a ++ ']' :: (" [REDACTED]".toList ++ z)) ∧
      ∃ w c z, w ≠ [] ∧ (∀ c ∈ w, isWhitespace c = true) ∧ tokenChar c = true ∧
        replaceKeyed (p ++ (k ++ (s ++ ("zzzzzzzz".toList ++ q)))) = a ++ ']' :: (w ++ c :: z) := by
  obtain ⟨-, hquery⟩ := (apiKeyQuery_line line.key p).resolve_left fun hn => hquery hn.1
  obtain ⟨-, hbearer⟩ := (bearerToken_line line.key (apiKeyQuery.replaceAll p)).resolve_left
    fun hn => hbearer hn.1
  obtain ⟨a, ha⟩ := sensitiveKeyValue_line hvalue
  obtain ⟨tail, htail⟩ := Option.ne_none_iff_exists'.mp (mt (bearerTail_apiKeyQuery q).mp hq)
  have hsecret : ∀ v, 8 ≤ v.length →
      v.all (fun c => decide (c.toNat < 128) && c.isAlphanum) = true → SecretText v :=
    fun v hlen hall => (asciiAlphanumeric.secret_of_ascii hlen hall).text
  refine ⟨a ++ "=[REDACTED".toList, ?_, ?_⟩
  · obtain ⟨z, hz⟩ := token_taken line htail
    have hline : KeyValueLine k s (" [REDACTED]".toList ++ z) :=
      ⟨line.key, line.separated, line.separators, fun c t hc => by
        obtain ⟨rfl, -⟩ := List.cons.inj hc
        decide⟩
    refine ⟨sensitiveKeyValue.replaceAll z, ?_⟩
    rw [replaceKeyed, hquery, line.query_passes (hsecret _ (by decide) (by decide)), hbearer, hz,
      ha _ _ (hsecret _ (by decide) (by decide)) hline, replaceAll_sensitiveKeyValue_redacted]
    simp
  · have hinert : Inert "zzzzzzzz".toList := by
      refine ⟨by decide, fun c hc => .inr ?_⟩
      simpa using hc
    rw [bearerTail] at htail
    split at htail
    · cases htail
    · rename_i hsome
      rw [not_or] at hsome
      have hq1 := List.takeWhile_append_dropWhile (p := isWhitespace)
        (l := apiKeyQuery.replaceAll q)
      obtain ⟨c, y, hy⟩ := List.exists_cons_of_ne_nil (l :=
        (apiKeyQuery.replaceAll q).dropWhile isWhitespace) fun hnil => hsome.2 (by rw [hnil]; rfl)
      rw [hy] at hsome hq1
      have hc : tokenChar c = true := by
        by_contra hc
        exact hsome.2 (List.takeWhile_cons_of_neg hc)
      have hspace : ∀ c ∈ (apiKeyQuery.replaceAll q).takeWhile isWhitespace,
          isWhitespace c = true := fun c hc => List.mem_takeWhile_imp hc
      have hsep : ∀ c ∈ (apiKeyQuery.replaceAll q).takeWhile isWhitespace,
          separatorChar c = true := fun c hc => by simp [separatorChar, hspace c hc]
      obtain ⟨d, z, hd, hz⟩ := token_kept hc y
      refine ⟨_, d, z, hsome.1, hspace, hd, ?_⟩
      have hpasses : bearerToken.replaceAll (apiKeyQuery.replaceAll q) =
          (apiKeyQuery.replaceAll q).takeWhile isWhitespace ++ bearerToken.replaceAll (c :: y) := by
        conv_lhs => rw [← hq1]
        rw [SanitizationRule.replaceAll_eq, scan_bearerToken_separators hsep,
          SanitizationRule.render_append, SanitizationRule.render_plains]
        rfl
      rw [replaceKeyed, hquery, line.query_passes hinert.text, hbearer,
        line.of_query.token_passes hinert.text (.inr hinert.not_bearer),
        ha _ _ hinert.text line.of_query.of_token, hpasses,
        replaceAll_sensitiveKeyValue_separators hsep, hz]
      simp

/-- A value that comes out behind a barrier is not hidden. -/
theorem Shown.not_hidden (h : Shown p k s q) (sanitizer : LogSanitizer) (cls : CharClasses)
    (letters : AlphanumericClass) : ∃ v v', letters.Secret v ∧ letters.Secret v' ∧
      sanitizer.sanitizeChars cls (p ++ (k ++ (s ++ (v ++ q)))) ≠
        sanitizer.sanitizeChars cls (p ++ (k ++ (s ++ (v' ++ q)))) := by
  obtain ⟨a, b, hab⟩ := h.sanitizeChars sanitizer cls
  refine ⟨"zzzzzzzz".toList, "qzzzzzzz".toList, letters.secret_of_ascii (by decide) (by decide),
    letters.secret_of_ascii (by decide) (by decide), fun heq => ?_⟩
  rw [hab _ ⟨by decide, by simp⟩ (by decide), hab _ ⟨by decide, by simp⟩ (by decide)] at heq
  exact absurd (List.append_cancel_right (List.append_cancel_left heq)) (by decide)

theorem shown_by_token (line : KeyValueLine k s q) (hquery : ¬Swallows apiKeyQuery p k)
    (hbearer : ¬Swallows bearerToken (apiKeyQuery.replaceAll p) k)
    (hvalue : ¬SwallowsValue (bearerToken.replaceAll (apiKeyQuery.replaceAll p)) k s)
    (hq : bearerTail q ≠ none) (sanitizer : LogSanitizer) (cls : CharClasses)
    (letters : AlphanumericClass) : ∃ v v', letters.Secret v ∧ letters.Secret v' ∧
      sanitizer.sanitizeChars cls (p ++ (k ++ (s ++ (v ++ q)))) ≠
        sanitizer.sanitizeChars cls (p ++ (k ++ (s ++ (v' ++ q)))) := by
  obtain ⟨x, ⟨y, hy⟩, w, c, z, hw, hspace, hc, hz⟩ :=
    replaceKeyed_bearer line hquery hbearer hvalue hq
  refine ⟨"zzbearer".toList, "zzzzzzzz".toList, letters.secret_of_ascii (by decide) (by decide),
    letters.secret_of_ascii (by decide) (by decide), fun heq => ?_⟩
  obtain ⟨a, ha⟩ := sanitizer.exists_replaceAddresses cls (d := ']') (.inr (by simp)) x
  obtain ⟨t, ht⟩ := sanitizer.addressesFrom_redacted cls [']'] y
  rw [LogSanitizer.sanitizeChars_eq, LogSanitizer.sanitizeChars_eq, hy, hz, ha, ha, ht,
    sanitizer.addressesFrom_spaces cls hspace] at heq
  have htail := (List.cons.inj (List.append_cancel_left heq)).2
  obtain ⟨d, w, rfl⟩ := List.exists_cons_of_ne_nil hw
  obtain ⟨-, htail⟩ := List.cons.inj htail
  cases w with
  | nil => exact sanitizer.addressesFrom_token cls hc _ _ _ htail.symm
  | cons e w =>
      obtain ⟨rfl, -⟩ := List.cons.inj htail
      exact absurd (hspace '[' (by simp)) (by decide)

theorem exists_shown (line : KeyValueLine k s q) (h : ¬ValueHidden p k s q)
    (sanitizer : LogSanitizer) (cls : CharClasses) (letters : AlphanumericClass) :
    ∃ v v', letters.Secret v ∧ letters.Secret v' ∧
      sanitizer.sanitizeChars cls (p ++ (k ++ (s ++ (v ++ q)))) ≠
        sanitizer.sanitizeChars cls (p ++ (k ++ (s ++ (v' ++ q)))) := by
  by_cases hquery : Swallows apiKeyQuery p k
  · refine (shown_of_query line hquery ?_).not_hidden sanitizer cls letters
    by_contra hspace
    exact h (.inl ⟨hquery, fun c hc => (Bool.not_eq_true _).mp fun hw => hspace ⟨c, hc, hw⟩⟩)
  by_cases hbearer : Swallows bearerToken (apiKeyQuery.replaceAll p) k
  · exact (shown_of_token line hquery hbearer).not_hidden sanitizer cls letters
  by_cases hvalue : SwallowsValue (bearerToken.replaceAll (apiKeyQuery.replaceAll p)) k s
  · exact (shown_of_value line hquery hbearer hvalue).not_hidden sanitizer cls letters
  · exact shown_by_token line hquery hbearer hvalue
      (fun hq => h (.inr ⟨hquery, hbearer, hvalue, hq⟩)) sanitizer cls letters

end Leaks

/-- What is logged of a line does not depend on the value exactly if the value is
hidden. -/
theorem sanitize_hides_value_iff (sanitizer : LogSanitizer) (cls : CharClasses)
    (letters : AlphanumericClass) {p k s q : String}
    (line : KeyValueLine k.toList s.toList q.toList) :
    (∀ v₁ v₂ : String, letters.Secret v₁.toList → letters.Secret v₂.toList →
      sanitizer.sanitize cls (p ++ k ++ s ++ v₁ ++ q) =
        sanitizer.sanitize cls (p ++ k ++ s ++ v₂ ++ q)) ↔
      ValueHidden p.toList k.toList s.toList q.toList := by
  have htext : ∀ v : String, sanitizer.sanitize cls (p ++ k ++ s ++ v ++ q) =
      .ofList (sanitizer.sanitizeChars cls
        (p.toList ++ (k.toList ++ (s.toList ++ (v.toList ++ q.toList))))) := by
    intro v
    simp only [LogSanitizer.sanitize, String.toList_append, List.append_assoc]
  constructor
  · intro h
    by_contra hnot
    obtain ⟨v, v', hv, hv', hne⟩ := exists_shown line hnot sanitizer cls letters
    have heq := h (.ofList v) (.ofList v') (by simpa using hv) (by simpa using hv')
    rw [htext, htext, String.toList_ofList, String.toList_ofList, String.ofList_inj] at heq
    exact hne heq
  · intro h v₁ v₂ hv₁ hv₂
    obtain ⟨a, ha⟩ := replaceKeyed_of_hidden line h
    rw [htext, htext, sanitizer.sanitizeChars_congr cls
      ((ha _ hv₁.text).trans (ha _ hv₂.text).symm)]

theorem password_line : KeyValueLine "password".toList ": ".toList "".toList where
  key := ((Regex.mem_run_iff (s := "password".toList) free_keyword).mp
    (show _ ∈ keyword.run [] _ by decide +kernel)).2
  separated := by decide
  separators := by simp; decide
  rest c t h := by cases h

/-- The condition for a line with one keyword. -/
theorem sanitize_hides_value_iff_password :
    (∀ v₁ v₂ : String, asciiAlphanumeric.Secret v₁.toList → asciiAlphanumeric.Secret v₂.toList →
      (LogSanitizer.mk true).sanitize asciiClasses ("user " ++ "password" ++ ": " ++ v₁ ++ "") =
        (LogSanitizer.mk true).sanitize asciiClasses ("user " ++ "password" ++ ": " ++ v₂ ++ "")) ↔
      ValueHidden "user ".toList "password".toList ": ".toList "".toList :=
  sanitize_hides_value_iff ⟨true⟩ asciiClasses asciiAlphanumeric password_line

/-- An earlier keyword takes the keyword of a line for its value. -/
theorem sanitize_shows_value : ¬∀ (sanitizer : LogSanitizer) (cls : CharClasses)
    (letters : AlphanumericClass) (p k s q v₁ v₂ : String),
    KeyValueLine k.toList s.toList q.toList → letters.Secret v₁.toList → letters.Secret v₂.toList →
    sanitizer.sanitize cls (p ++ k ++ s ++ v₁ ++ q) =
      sanitizer.sanitize cls (p ++ k ++ s ++ v₂ ++ q) := by
  intro h
  have heq := h ⟨false⟩ asciiClasses asciiAlphanumeric "token: " "password" ": " "" "abcdefgh1"
    "abcdefgh2" password_line (asciiAlphanumeric.secret_of_ascii (by decide) (by decide))
    (asciiAlphanumeric.secret_of_ascii (by decide) (by decide))
  have htoken := toList_of_eq_ofList (s := "token: ") rfl
  have hkeyword := toList_of_eq_ofList (s := "password") rfl
  have hsep := toList_of_eq_ofList (s := ": ") rfl
  have hnone := toList_of_eq_ofList (s := "") rfl
  have hone := toList_of_eq_ofList (s := "abcdefgh1") rfl
  have htwo := toList_of_eq_ofList (s := "abcdefgh2") rfl
  simp only [LogSanitizer.sanitize, String.ofList_inj, String.toList_append, htoken, hkeyword,
    hsep, hnone, hone, htwo] at heq
  exact absurd heq (by decide +kernel)

end SereinGateway.Core

import Mathlib
import SereinGateway.Core.LogSanitizer

/-!
What the rules of the sanitizer find.

The keywords are fifteen words, up to the case of letters, and none of them
begins another one. So a keyword can be matched at a position in one way at
most, and of the other parts of the expressions only the separators behind a
keyword are ever given back by the search.
-/

namespace SereinGateway.Core

open SereinGateway.Lib

/-! ### Keywords -/

/-- The keywords in small letters. -/
def sensitiveWords : List (List Char) :=
  ["apikey", "api_key", "api-key", "token", "secret", "password", "authtoken", "auth_token",
    "auth-token", "accesskey", "access_key", "access-key", "privatekey", "private_key",
    "private-key"].map String.toList

def KeywordChar (c : Char) : Prop := foldedLetter c = true ∨ c = '_' ∨ c = '-'

section Keywords

variable {u u' k left s : List Char} {c : Char}

theorem free_folded (text : String) : (Regex.folded text).Free := free_spelled _

theorem free_keyword : keyword.Free := by
  have hjoined : ∀ a b : String, (Regex.seq (.folded a) (.seq (.optional (.one fun c =>
      c == '_' || c == '-')) (.folded b))).Free := fun a b =>
    ⟨free_folded a, ⟨trivial, trivial⟩, free_folded b⟩
  exact ⟨hjoined _ _, free_folded _, free_folded _, free_folded _, hjoined _ _, hjoined _ _,
    hjoined _ _⟩

theorem mem_language_folded {text : String} (h : u ∈ (Regex.folded text).language) :
    u.map foldCase = text.toList := by
  have hrun : u ∈ (Regex.folded text).run [] u :=
    (Regex.mem_run_iff (free_folded text)).mpr ⟨List.prefix_rfl, h⟩
  exact (mem_run_folded.mp hrun).2

theorem mem_sensitiveWords (h : u ∈ keyword.language) : u.map foldCase ∈ sensitiveWords := by
  have hjoined : ∀ a b : String, u ∈ (Regex.seq (.folded a) (.seq (.optional (.one fun c =>
      c == '_' || c == '-')) (.folded b))).language →
      u.map foldCase = a.toList ++ b.toList ∨ u.map foldCase = a.toList ++ '_' :: b.toList ∨
        u.map foldCase = a.toList ++ '-' :: b.toList := by
    rintro a b ⟨x, hx, y, ⟨z, hz, y, hy, rfl⟩, rfl⟩
    have hx := mem_language_folded hx
    have hy := mem_language_folded hy
    rcases hz with ⟨c, hc, rfl⟩ | hz
    · simp only [Bool.or_eq_true, beq_iff_eq] at hc
      rcases hc with rfl | rfl
      · right; left
        simp [hx, hy]
        rfl
      · right; right
        simp [hx, hy]
        rfl
    · obtain rfl := (Language.mem_one z).mp hz
      left
      simp [hx, hy]
  have hword : ∀ (a b : String), u ∈ (Regex.seq (.folded a) (.seq (.optional (.one fun c =>
      c == '_' || c == '-')) (.folded b))).language → a.toList ++ b.toList ∈ sensitiveWords →
      a.toList ++ '_' :: b.toList ∈ sensitiveWords → a.toList ++ '-' :: b.toList ∈ sensitiveWords →
      u.map foldCase ∈ sensitiveWords := by
    intro a b hu h1 h2 h3
    rcases hjoined a b hu with heq | heq | heq
    · rwa [heq]
    · rwa [heq]
    · rwa [heq]
  rcases h with h | h | h | h | h | h | h
  · exact hword _ _ h (by decide) (by decide) (by decide)
  · exact mem_language_folded h ▸ (by decide)
  · exact mem_language_folded h ▸ (by decide)
  · exact mem_language_folded h ▸ (by decide)
  · exact hword _ _ h (by decide) (by decide) (by decide)
  · exact hword _ _ h (by decide) (by decide) (by decide)
  · exact hword _ _ h (by decide) (by decide) (by decide)

theorem keyword_unique (hu : u ∈ keyword.run left s) (hu' : u' ∈ keyword.run left s) : u = u' := by
  have hfree : ∀ w ∈ sensitiveWords, ∀ w' ∈ sensitiveWords, w <+: w' → w = w' := by decide +kernel
  rw [Regex.mem_run_iff free_keyword] at hu hu'
  have hlen : u.length = u'.length := by
    rcases List.prefix_or_prefix_of_prefix hu.1 hu'.1 with hpre | hpre
    · have heq := hfree _ (mem_sensitiveWords hu.2) _ (mem_sensitiveWords hu'.2) (hpre.map foldCase)
      simpa using congrArg List.length heq
    · have heq := hfree _ (mem_sensitiveWords hu'.2) _ (mem_sensitiveWords hu.2) (hpre.map foldCase)
      simpa using (congrArg List.length heq).symm
  exact (List.prefix_of_prefix_length_le hu.1 hu'.1 hlen.le).eq_of_length hlen

theorem keywordChar_of_foldCase
    (h : (foldCase c).isAlpha = true ∨ foldCase c = '_' ∨ foldCase c = '-') : KeywordChar c := by
  rw [foldCase] at h
  split at h
  · rename_i hc
    exact .inl (by simp [foldedLetter, hc])
  · split at h
    · rename_i hc
      exact .inl (by simp [foldedLetter, hc])
    · by_cases hc : c.isAlpha = true
      · exact .inl (by simp [foldedLetter, hc])
      · have hlower : c.toLower = c :=
          Char.toLower_eq_of_not_isUpper fun hu => hc (by simp [Char.isAlpha, hu])
        rw [hlower] at h
        rcases h with h | h
        · exact absurd h hc
        · exact .inr h

theorem keywordChar_of_mem (h : u ∈ keyword.language) (hc : c ∈ u) : KeywordChar c := by
  have hall : sensitiveWords.all (·.all fun d => d.isAlpha || d == '_' || d == '-') = true := by
    decide +kernel
  have hchar := List.all_eq_true.mp (List.all_eq_true.mp hall _ (mem_sensitiveWords h)) _
    (List.mem_map.mpr ⟨c, hc, rfl⟩)
  exact keywordChar_of_foldCase (by simpa [or_assoc] using hchar)

theorem KeywordChar.range (h : KeywordChar c) : c.toNat = 45 ∨ 65 ≤ c.toNat ∧ c.toNat ≤ 90 ∨
    c.toNat = 95 ∨ 97 ≤ c.toNat ∧ c.toNat ≤ 122 ∨ c.toNat = 0x17F ∨ c.toNat = 0x212A := by
  rcases h with h | rfl | rfl
  · have hrange := range_of_foldedLetter h
    omega
  · decide
  · decide

theorem KeywordChar.not_space (h : KeywordChar c) : isWhitespace c = false := by
  have hrange := h.range
  exact not_space_of_range (by omega)

theorem KeywordChar.ne (h : KeywordChar c) {d : Char}
    (hd : d ∈ ['"', ':', '=', '&', '?', '{', '}', ',', '[', ']']) : c ≠ d := by
  simp only [List.mem_cons, List.not_mem_nil, or_false] at hd
  rintro rfl
  rcases hd with rfl | rfl | rfl | rfl | rfl | rfl | rfl | rfl | rfl | rfl <;>
    exact absurd h.range (by decide)

end Keywords

/-! ### What the rules find -/

/-- What follows the name of the scheme: white space and a token. -/
def bearerTail (y : List Char) : Option (List Char) :=
  let z := y.dropWhile isWhitespace
  if y.takeWhile isWhitespace = [] ∨ z.takeWhile tokenChar = [] then none
  else some (y.takeWhile isWhitespace ++
    (z.takeWhile tokenChar ++ (z.dropWhile tokenChar).takeWhile (· == '=')))

section Find

variable {x : List Char} {m : List Char × List Char}

theorem find_apiKeyQuery : apiKeyQuery.finder.find [] x = some m ↔
    ∃ y, x = "?key=".toList ++ y ∧ y.takeWhile queryChar ≠ [] ∧
      m = ([], "?key=".toList ++ y.takeWhile queryChar) := by
  have hunique : ∀ u ∈ (Regex.literal "?key=").run [] x, ∀ u' ∈ (Regex.literal "?key=").run [] x,
      u = u' := by
    intro u hu u' hu'
    rw [(mem_run_literal.mp hu).2, (mem_run_literal.mp hu').2]
  have hfind : apiKeyQuery.finder.find [] x = some m ↔
      ∃ w, ((Regex.seq (.literal "?key=") (.atLeast queryChar 1)).run [] x).head? = some w ∧
        ([], w) = m := by
    rw [SanitizationRule.finder]
    exact Regex.find_groupFinder_epsilon ▸ Option.map_eq_some_iff
  rw [hfind]
  constructor
  · rintro ⟨w, hw, rfl⟩
    obtain ⟨u, hu, v, hv, rfl⟩ := (Regex.head?_run_seq_iff hunique).mp hw
    obtain ⟨⟨y, rfl⟩, rfl⟩ := mem_run_literal.mp hu
    rw [List.drop_left, Regex.head?_run_atLeast_one] at hv
    split at hv
    · cases hv
    · rename_i hne
      cases hv
      exact ⟨y, rfl, hne, rfl⟩
  · rintro ⟨y, rfl, hne, rfl⟩
    refine ⟨_, (Regex.head?_run_seq_iff hunique).mpr ⟨"?key=".toList,
      mem_run_literal.mpr ⟨List.prefix_append _ y, rfl⟩, y.takeWhile queryChar, ?_, rfl⟩, rfl⟩
    rw [List.drop_left, Regex.head?_run_atLeast_one, if_neg hne]

theorem not_space_of_tokenChar {c : Char} (h : tokenChar c = true) : isWhitespace c = false := by
  simp only [tokenChar, Bool.or_eq_true, beq_iff_eq] at h
  rcases h with ((((((h | h) | rfl) | rfl) | rfl) | rfl) | rfl) | rfl
  · have hrange := range_of_foldedLetter h
    exact not_space_of_range (by omega)
  · exact not_space_of_isDigit h
  all_goals decide

theorem head?_bearerTail (left y : List Char) : ((Regex.seq (.atLeast isWhitespace 1)
    (.seq (.atLeast tokenChar 1) (.many (· == '=')))).run left y).head? = bearerTail y := by
  have htoken : ∀ left z, ((Regex.seq (.atLeast tokenChar 1) (.many (· == '='))).run left z).head? =
      if z.takeWhile tokenChar = [] then none
      else some (z.takeWhile tokenChar ++ (z.dropWhile tokenChar).takeWhile (· == '=')) := by
    intro left z
    split
    · rename_i hnil
      have hnone : ((Regex.atLeast tokenChar 1).run left z).head? = none := by
        rw [Regex.head?_run_atLeast_one, if_pos hnil]
      rw [Regex.head?_run_seq, List.head?_eq_none_iff.mp hnone]
      rfl
    · rename_i hne
      have hdrop : (z.takeWhile tokenChar ++ z.dropWhile tokenChar).drop
          (z.takeWhile tokenChar).length = z.dropWhile tokenChar := List.drop_left
      rw [List.takeWhile_append_dropWhile] at hdrop
      refine Regex.head?_run_seq_of_head ?_ ?_
      · rw [Regex.head?_run_atLeast_one, if_neg hne]
      · rw [hdrop]
        exact head?_greedy _ _
  rw [Regex.head?_run_atLeast_seq, htoken, bearerTail]
  · by_cases hspace : y.takeWhile isWhitespace = []
    · rw [if_neg (by simp [hspace]), if_pos (.inl hspace)]
    · rw [if_pos (Nat.succ_le_of_lt (List.length_pos_iff.mpr hspace))]
      by_cases hz : (y.dropWhile isWhitespace).takeWhile tokenChar = []
      · rw [if_pos hz, if_pos (.inr hz)]
        rfl
      · rw [if_neg hz, if_neg (by simp [hspace, hz])]
        rfl
  · intro c t left hc
    rw [← List.head?_eq_none_iff, htoken,
      List.takeWhile_cons_of_neg (fun ht => by simp [not_space_of_tokenChar ht] at hc), if_pos rfl]

theorem find_bearerToken : bearerToken.finder.find [] x = some m ↔
    ∃ u y w, x = u ++ y ∧ u.map foldCase = "bearer".toList ∧ bearerTail y = some w ∧
      m = ([], u ++ w) := by
  have hunique : ∀ u ∈ (Regex.folded "bearer").run [] x, ∀ u' ∈ (Regex.folded "bearer").run [] x,
      u = u' := by
    intro u hu u' hu'
    obtain ⟨hpre, hu⟩ := mem_run_folded.mp hu
    obtain ⟨hpre', hu'⟩ := mem_run_folded.mp hu'
    have hlen : u.length = u'.length := by
      simpa using congrArg List.length (hu.trans hu'.symm)
    exact (List.prefix_of_prefix_length_le hpre hpre' hlen.le).eq_of_length hlen
  have hfind : bearerToken.finder.find [] x = some m ↔
      ∃ w, ((Regex.seq (.folded "bearer") (.seq (.atLeast isWhitespace 1)
        (.seq (.atLeast tokenChar 1) (.many (· == '='))))).run [] x).head? = some w ∧
        ([], w) = m := by
    rw [SanitizationRule.finder]
    exact Regex.find_groupFinder_epsilon ▸ Option.map_eq_some_iff
  rw [hfind]
  constructor
  · rintro ⟨w, hw, rfl⟩
    obtain ⟨u, hu, v, hv, rfl⟩ := (Regex.head?_run_seq_iff hunique).mp hw
    obtain ⟨⟨y, rfl⟩, hfold⟩ := mem_run_folded.mp hu
    rw [List.drop_left, head?_bearerTail] at hv
    exact ⟨u, y, v, rfl, hfold, hv, rfl⟩
  · rintro ⟨u, y, w, rfl, hfold, hw, rfl⟩
    refine ⟨_, (Regex.head?_run_seq_iff hunique).mpr ⟨u,
      mem_run_folded.mpr ⟨List.prefix_append u y, hfold⟩, w, ?_, rfl⟩, rfl⟩
    rw [List.drop_left, head?_bearerTail, hw]

theorem find_sensitiveKeyValue : sensitiveKeyValue.finder.find [] x = some m ↔
    m.1 ∈ keyword.language ∧ ∃ y, x = m.1 ++ y ∧
      (sensitiveKeyValue.rest.run [] y).head? = some m.2 := by
  have hfree : sensitiveKeyValue.rest.Free := by
    have hatLeast : ∀ (p : Char → Bool) n, (Regex.atLeast p n).Free := fun p n =>
      ⟨Regex.Free.times (r := .one p) trivial n, trivial⟩
    exact ⟨hatLeast _ 1, hatLeast _ 8⟩
  refine (Regex.find_groupFinder sensitiveKeyValue.nonempty
    fun u hu u' hu' => keyword_unique hu hu').trans ?_
  rw [Regex.run_free_left hfree _ []]
  show m.1 ∈ keyword.run [] x ∧ _ ↔ _
  rw [Regex.mem_run_iff free_keyword]
  constructor
  · rintro ⟨⟨⟨y, rfl⟩, hkey⟩, hrest⟩
    rw [List.drop_left] at hrest
    exact ⟨hkey, y, rfl, hrest⟩
  · rintro ⟨hkey, y, rfl, hrest⟩
    rw [List.drop_left]
    exact ⟨⟨List.prefix_append _ y, hkey⟩, hrest⟩

end Find

end SereinGateway.Core

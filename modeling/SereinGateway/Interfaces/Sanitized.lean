import Mathlib
import SereinGateway.Interfaces.Payload
import SereinGateway.Lib.Replace

/-!
Replacement in a text and the removal of its code fence.

If the pattern and what replaces it have no backticks and neither begin nor
end with white space, fences and the white space around them are found in the
same places before and after. What is left to go wrong is that the block
begins with the pattern, or that the tag `json` appears at its beginning; a
block of JSON does neither.
-/

namespace SereinGateway.Interfaces

open SereinGateway.Lib

/-- A text without backticks that neither begins nor ends with white space. -/
structure Tight (l : List Char) : Prop where
  tick : '`' ∉ l
  first : ∃ c t, l = c :: t ∧ isWhitespace c = false
  last : ∃ t c, l = t ++ [c] ∧ isWhitespace c = false

/-- A fence comes next, perhaps after white space. -/
def fenceAhead (s : List Char) : Bool := fence.isPrefixOf (s.dropWhile isWhitespace)

@[grind =] def afterFence : List Char → Option (List Char)
  | [] => none
  | c :: s => if fence.isPrefixOf (c :: s) then some ((c :: s).drop 3) else afterFence s

theorem afterFence_eq (text : List Char) :
    (findChars fence text).map (fun pos => text.drop (pos + 3)) = afterFence text := by
  induction text with
  | nil => rfl
  | cons c s ih =>
      rw [findChars, afterFence]
      split
      · rfl
      · rw [← ih, Option.map_map]
        rfl

/-- What follows the tag of a block. -/
def afterTag (opened : List Char) : List Char :=
  if ['j', 's', 'o', 'n'].isPrefixOf opened then opened.drop 4 else opened

theorem fenceCapture_eq (text : List Char) :
    fenceCapture text = (afterFence text).bind fun opened =>
      fenceBody ((afterTag opened).dropWhile isWhitespace) := by
  rw [← afterFence_eq, Option.bind_map]
  rfl

section Fences

variable {l s t b : List Char} {c : Char}

theorem fenceAhead_tick (h : isWhitespace c = false) :
    fenceAhead (c :: s) = fence.isPrefixOf (c :: s) := by
  rw [fenceAhead, List.dropWhile_cons_of_neg (by simp [h])]

theorem fenceAhead_space (h : isWhitespace c = true) : fenceAhead (c :: s) = fenceAhead s := by
  rw [fenceAhead, fenceAhead, List.dropWhile_cons_of_pos h]

theorem fence_not_starts (h : c ≠ '`') : fence.isPrefixOf (c :: s) = false := by
  rw [fence, List.isPrefixOf_cons_cons, Bool.and_eq_false_imp]
  intro htick
  exact absurd (of_decide_eq_true htick).symm h

theorem Tight.fenceAhead (h : Tight l) {v : List Char} (hv : v ≠ []) (hsuffix : v <:+ l) :
    fenceAhead (v ++ s) = false := by
  induction v with
  | nil => exact absurd rfl hv
  | cons d v ih =>
      have hd : d ∈ l := hsuffix.subset List.mem_cons_self
      have htick : d ≠ '`' := fun heq => h.tick (heq ▸ hd)
      cases hspace : isWhitespace d with
      | false =>
          rw [List.cons_append, fenceAhead_tick hspace, fence_not_starts htick]
      | true =>
          rw [List.cons_append, fenceAhead_space hspace]
          have hv' : v ≠ [] := by
            rintro rfl
            obtain ⟨u, rfl⟩ := hsuffix
            obtain ⟨u', c, heq, hc⟩ := h.last
            obtain ⟨-, heq'⟩ := List.append_inj' heq rfl
            rw [List.singleton_inj.mp heq', hc] at hspace
            cases hspace
          exact ih hv' ((List.suffix_cons d v).trans hsuffix)

theorem fenceBody_append (h : Tight l) (s : List Char) :
    fenceBody (l ++ s) = (fenceBody s).map (l ++ ·) := by
  have hall : ∀ v, v <:+ l → fenceBody (v ++ s) = (fenceBody s).map (v ++ ·) := by
    intro v hv
    induction v with
    | nil => simp
    | cons d v ih =>
        have hahead : fence.isPrefixOf ((d :: (v ++ s)).dropWhile isWhitespace) = false :=
          h.fenceAhead (List.cons_ne_nil d v) hv
        rw [List.cons_append, fenceBody, if_neg (by simp [hahead]),
          ih ((List.suffix_cons d v).trans hv), Option.map_map]
        rfl
  exact hall l (List.suffix_refl l)

theorem afterFence_append (h : '`' ∉ l) (s : List Char) : afterFence (l ++ s) = afterFence s := by
  induction l with
  | nil => rfl
  | cons c l ih =>
      rw [List.mem_cons, not_or] at h
      rw [List.cons_append, afterFence, if_neg (by simp [fence_not_starts (Ne.symm h.1)]), ih h.2]

theorem fenceBody_starts (h : fenceBody s = some b) :
    ∃ r, s = b ++ r ∧ fenceAhead r = true := by
  induction s generalizing b with
  | nil => simp [fenceBody] at h
  | cons c s ih =>
      rw [fenceBody] at h
      split at h
      · rename_i hahead
        cases h
        exact ⟨c :: s, rfl, hahead⟩
      · obtain ⟨b', hb', rfl⟩ := Option.map_eq_some_iff.mp h
        obtain ⟨r, rfl, hr⟩ := ih hb'
        exact ⟨r, rfl, hr⟩

theorem afterFence_eq_none : afterFence s = none ↔ ¬fence <:+: s := by
  induction s with
  | nil => simp [afterFence, fence]
  | cons c s ih =>
      rw [afterFence, List.infix_cons_iff, not_or, ← List.isPrefixOf_iff_prefix]
      split
      · rename_i hstarts
        simp [hstarts]
      · rename_i hstarts
        simp [hstarts, ih]

theorem afterFence_of_fenceBody (h : fenceBody s = some b) : afterFence b = none := by
  induction s generalizing b with
  | nil => simp [fenceBody] at h
  | cons c s ih =>
      rw [fenceBody] at h
      split at h
      · cases h
        rfl
      · rename_i hahead
        obtain ⟨b', hb', rfl⟩ := Option.map_eq_some_iff.mp h
        obtain ⟨r, rfl, -⟩ := fenceBody_starts hb'
        have hfence : fence.isPrefixOf (c :: b') = false := by
          by_contra hstarts
          rw [Bool.not_eq_false, List.isPrefixOf_iff_prefix] at hstarts
          have hc : c = '`' := (List.cons_prefix_cons.mp hstarts).1.symm
          apply hahead
          subst hc
          rw [List.dropWhile_cons_of_neg (by decide), List.isPrefixOf_iff_prefix]
          exact hstarts.trans (List.prefix_append ('`' :: b') r)
        rw [afterFence, if_neg (by simp [hfence]), ih hb']

/-- Whether a block is closed does not depend on what stands before the
fence, as long as it has no backtick. -/
theorem isSome_fenceBody_append (h : '`' ∉ l) :
    (fenceBody (l ++ s)).isSome = (fenceBody s).isSome := by
  induction l with
  | nil => rfl
  | cons c l ih =>
      rw [List.mem_cons, not_or] at h
      rw [← ih h.2, List.cons_append, fenceBody]
      split
      · rename_i hahead
        have hspace : isWhitespace c = true := by
          by_contra hspace
          rw [List.dropWhile_cons_of_neg hspace, fence_not_starts (Ne.symm h.1)] at hahead
          cases hahead
        rw [List.dropWhile_cons_of_pos hspace] at hahead
        cases hrest : l ++ s with
        | nil => simp [hrest, fence] at hahead
        | cons d u =>
            rw [hrest] at hahead
            rw [fenceBody, if_pos hahead]
      · rw [Option.isSome_map]

/-- Neither does it depend on what the pattern skips after the opening. -/
theorem isSome_fenceBody_afterTag (opened : List Char) :
    (fenceBody ((afterTag opened).dropWhile isWhitespace)).isSome = (fenceBody opened).isSome := by
  have hspaces : '`' ∉ (afterTag opened).takeWhile isWhitespace := fun hmem =>
    absurd (List.mem_takeWhile_imp hmem) (by decide)
  have htag : ∃ u, '`' ∉ u ∧ opened = u ++ afterTag opened := by
    unfold afterTag
    split
    · rename_i hjson
      obtain ⟨rest, rfl⟩ := List.isPrefixOf_iff_prefix.mp hjson
      exact ⟨['j', 's', 'o', 'n'], by decide, rfl⟩
    · exact ⟨[], by simp, rfl⟩
  obtain ⟨u, hu, hopened⟩ := htag
  rw [← isSome_fenceBody_append hspaces, List.takeWhile_append_dropWhile,
    ← isSome_fenceBody_append hu, ← hopened]

end Fences

section Replaced

variable {pat new : List Char} {s : List Char}

/-- A replacement that keeps fences and the white space around texts. -/
structure Keeps (pat new : List Char) : Prop where
  bracket : ∃ w, pat = '[' :: w
  spaceless : ∀ c ∈ pat, isWhitespace c = false
  tick : '`' ∉ pat
  new : Tight new

namespace Keeps

theorem ne_nil (h : Keeps pat new) : pat ≠ [] := by
  obtain ⟨w, rfl⟩ := h.bracket
  exact List.cons_ne_nil _ _

theorem tight (h : Keeps pat new) : Tight pat where
  tick := h.tick
  first := by
    obtain ⟨w, hw⟩ := h.bracket
    exact ⟨'[', w, hw, by decide⟩
  last := by
    have hlast := List.dropLast_append_getLast h.ne_nil
    exact ⟨_, _, hlast.symm, h.spaceless _ (List.getLast_mem h.ne_nil)⟩

theorem not_prefix (h : Keeps pat new) {c : Char} (hc : c ≠ '[') : ¬pat <+: c :: s := by
  obtain ⟨w, rfl⟩ := h.bracket
  intro hstarts
  exact hc (List.cons_prefix_cons.mp hstarts).1.symm

/-- Runs of backticks stay. -/
theorem ticks_iff (h : Keeps pat new) (k : ℕ) (s : List Char) :
    List.replicate k '`' <+: replaceAll pat new s ↔ List.replicate k '`' <+: s := by
  induction k generalizing s with
  | zero => simp
  | succ k ih =>
      cases s using replaceAll_induct h.ne_nil with
      | nil => rfl
      | found t _ =>
          obtain ⟨w, hw⟩ := h.bracket
          obtain ⟨c, new', hnew, -⟩ := h.new.first
          have hc : '`' ≠ c := by
            rintro rfl
            exact h.new.tick (hnew ▸ List.mem_cons_self)
          have hbracket : '`' ≠ '[' := by decide
          rw [replaceAll_append h.ne_nil, hnew, hw, List.replicate_succ, List.cons_append,
            List.cons_append, List.cons_prefix_cons, List.cons_prefix_cons]
          simp [hc, hbracket]
      | copied d t hd _ =>
          rw [replaceAll_cons hd, List.replicate_succ, List.cons_prefix_cons,
            List.cons_prefix_cons, ih]

theorem fence_starts (h : Keeps pat new) (s : List Char) :
    fence.isPrefixOf (replaceAll pat new s) = fence.isPrefixOf s := by
  rw [Bool.eq_iff_iff, List.isPrefixOf_iff_prefix, List.isPrefixOf_iff_prefix]
  exact h.ticks_iff 3 s

theorem dropWhile_replaceAll (h : Keeps pat new) (s : List Char) :
    (replaceAll pat new s).dropWhile isWhitespace =
      replaceAll pat new (s.dropWhile isWhitespace) := by
  induction s using replaceAll_induct h.ne_nil with
  | nil => rfl
  | found t _ =>
      obtain ⟨w, hw⟩ := h.bracket
      obtain ⟨c, new', hnew, hc⟩ := h.new.first
      have hpat : (pat ++ t).dropWhile isWhitespace = pat ++ t := by
        rw [hw, List.cons_append, List.dropWhile_cons_of_neg (by decide)]
      rw [hpat, replaceAll_append h.ne_nil, hnew, List.cons_append,
        List.dropWhile_cons_of_neg (by simp [hc])]
  | copied d t hd ih =>
      rw [replaceAll_cons hd]
      cases hspace : isWhitespace d with
      | true => rw [List.dropWhile_cons_of_pos hspace, List.dropWhile_cons_of_pos hspace, ih]
      | false =>
          rw [List.dropWhile_cons_of_neg (by simp [hspace]),
            List.dropWhile_cons_of_neg (by simp [hspace]), replaceAll_cons hd]

theorem fenceAhead_replaceAll (h : Keeps pat new) (s : List Char) :
    fenceAhead (replaceAll pat new s) = fenceAhead s := by
  rw [fenceAhead, h.dropWhile_replaceAll, h.fence_starts, fenceAhead]

theorem fenceBody_replaceAll (h : Keeps pat new) (s : List Char) :
    fenceBody (replaceAll pat new s) = (fenceBody s).map (replaceAll pat new) := by
  induction s using replaceAll_induct h.ne_nil with
  | nil => rfl
  | found t ih =>
      rw [replaceAll_append h.ne_nil, fenceBody_append h.new, ih, fenceBody_append h.tight,
        Option.map_map, Option.map_map]
      congr 1
      funext b
      exact (replaceAll_append h.ne_nil b).symm
  | copied d t hd ih =>
      have hahead := h.fenceAhead_replaceAll (d :: t)
      rw [replaceAll_cons hd, fenceAhead, fenceAhead] at hahead
      rw [replaceAll_cons hd, fenceBody, fenceBody, hahead, ih]
      split
      · rfl
      · cases hbody : fenceBody t with
        | none => rfl
        | some b =>
            obtain ⟨r, rfl, -⟩ := fenceBody_starts hbody
            have hd' : ¬pat <+: d :: b := fun hstarts =>
              hd (hstarts.trans (List.prefix_append (d :: b) r))
            simp [replaceAll_cons hd']

theorem afterFence_replaceAll (h : Keeps pat new) (s : List Char) :
    afterFence (replaceAll pat new s) = (afterFence s).map (replaceAll pat new) := by
  induction s using replaceAll_induct h.ne_nil with
  | nil => rfl
  | found t ih =>
      rw [replaceAll_append h.ne_nil, afterFence_append h.new.tick, ih, afterFence_append h.tick]
  | copied d t hd ih =>
      have hfence := h.fence_starts (d :: t)
      rw [replaceAll_cons hd] at hfence ⊢
      rw [afterFence, afterFence, hfence]
      split
      · rename_i hstarts
        obtain ⟨rest, hrest⟩ := List.isPrefixOf_iff_prefix.mp hstarts
        have htick : ∀ c ∈ fence, c ∉ pat := by
          intro c hc hmem
          have : c = '`' := by simpa [fence] using hc
          exact h.tick (this ▸ hmem)
        rw [Option.map_some, ← replaceAll_cons hd, ← hrest,
          replaceAll_append_disjoint h.ne_nil htick, fence]
        rfl
      · exact ih

/-- Blocks are opened and closed in the same places. -/
theorem isSome_fenceCapture (h : Keeps pat new) (text : List Char) :
    (fenceCapture (replaceAll pat new text)).isSome = (fenceCapture text).isSome := by
  rw [fenceCapture_eq, fenceCapture_eq, h.afterFence_replaceAll]
  cases afterFence text with
  | none => rfl
  | some opened =>
      simp only [Option.map_some, Option.bind_some]
      rw [isSome_fenceBody_afterTag, isSome_fenceBody_afterTag, h.fenceBody_replaceAll,
        Option.isSome_map]

/-- A block that begins neither with the pattern nor like the tag is replaced
as a whole. -/
theorem fenceCapture_replaceAll (h : Keeps pat new) {text b : List Char}
    (hcapture : fenceCapture text = some b) (hne : b ≠ []) (hpat : ¬pat <+: b)
    (hhead : b.head? ≠ some 'j') :
    fenceCapture (replaceAll pat new text) = some (replaceAll pat new b) := by
  rw [fenceCapture_eq] at hcapture ⊢
  obtain ⟨opened, hopened, hbody⟩ := Option.bind_eq_some_iff.mp hcapture
  have htag : afterTag (replaceAll pat new opened) = replaceAll pat new (afterTag opened) := by
    by_cases hjson : ['j', 's', 'o', 'n'].isPrefixOf opened = true
    · obtain ⟨rest, rfl⟩ := List.isPrefixOf_iff_prefix.mp hjson
      have hcopy : replaceAll pat new (['j', 's', 'o', 'n'] ++ rest) =
          ['j', 's', 'o', 'n'] ++ replaceAll pat new rest := by
        simp only [List.cons_append, List.nil_append]
        iterate 4 rw [replaceAll_cons (h.not_prefix (by decide))]
      rw [hcopy, afterTag, if_pos (by simp), afterTag, if_pos hjson]
      rfl
    · have hsame : afterTag opened = opened := if_neg hjson
      rw [hsame] at hbody ⊢
      refine if_neg fun hjson' => ?_
      obtain ⟨r, hr, hahead⟩ := fenceBody_starts hbody
      obtain ⟨c, b', rfl⟩ := List.exists_cons_of_ne_nil hne
      -- The first character is copied: it is white space, or that of the block.
      have hfirst : ∃ d u, opened = d :: u ∧ d ≠ 'j' ∧ ¬pat <+: d :: u := by
        cases opened with
        | nil => simp at hr
        | cons d u =>
            refine ⟨d, u, rfl, ?_⟩
            cases hspace : isWhitespace d with
            | true =>
                refine ⟨fun heq => ?_, h.not_prefix fun heq => ?_⟩
                · subst heq
                  revert hspace
                  decide
                · subst heq
                  revert hspace
                  decide
            | false =>
                rw [List.dropWhile_cons_of_neg (by simp [hspace])] at hr
                obtain ⟨rfl, rfl⟩ := List.cons_eq_cons.mp hr
                refine ⟨fun heq => hhead (by simp [heq]), fun hstarts => hpat ?_⟩
                cases r with
                | nil => simp [fenceAhead, fence] at hahead
                | cons e r =>
                    refine prefix_of_prefix_append_cons (a := d :: b') (fun he => ?_) hstarts
                    have hspace' := h.spaceless e he
                    have htick : e ≠ '`' := fun heq => h.tick (heq ▸ he)
                    rw [fenceAhead_tick hspace', fence_not_starts htick] at hahead
                    cases hahead
      obtain ⟨d, u, rfl, hd, hcopied⟩ := hfirst
      rw [replaceAll_cons hcopied, List.isPrefixOf_cons_cons, Bool.and_eq_true] at hjson'
      exact hd (of_decide_eq_true hjson'.1).symm
  rw [h.afterFence_replaceAll, hopened, Option.map_some, Option.bind_some, htag,
    h.dropWhile_replaceAll, h.fenceBody_replaceAll, hbody, Option.map_some]

/-- A text that does not end with white space keeps this. -/
theorem getLast_replaceAll (h : Keeps pat new) {s : List Char}
    (hs : ∀ hne : s ≠ [], isWhitespace (s.getLast hne) = false) :
    ∀ hne : replaceAll pat new s ≠ [],
      isWhitespace ((replaceAll pat new s).getLast hne) = false := by
  have hnew : new ≠ [] := by
    obtain ⟨c, t, rfl, -⟩ := h.new.first
    exact List.cons_ne_nil c t
  induction s using replaceAll_induct h.ne_nil with
  | nil => exact fun hne => absurd replaceAll_nil hne
  | found t ih =>
      intro hne
      simp only [replaceAll_append h.ne_nil]
      by_cases ht : t = []
      · subst ht
        obtain ⟨u, c, hlast, hc⟩ := h.new.last
        simp only [replaceAll_nil, List.append_nil, hlast, List.getLast_append_singleton, hc]
      · have hrest : replaceAll pat new t ≠ [] := by rwa [Ne, replaceAll_eq_nil h.ne_nil hnew]
        rw [List.getLast_append_of_ne_nil _ hrest]
        refine ih (fun hne' => ?_) hrest
        have hwhole := hs (List.append_ne_nil_of_right_ne_nil pat hne')
        rwa [List.getLast_append_of_ne_nil _ hne'] at hwhole
  | copied d t hd ih =>
      intro hne
      simp only [replaceAll_cons hd]
      by_cases ht : t = []
      · subst ht
        simpa [replaceAll_nil] using hs (List.cons_ne_nil d [])
      · have hrest : replaceAll pat new t ≠ [] := by rwa [Ne, replaceAll_eq_nil h.ne_nil hnew]
        rw [List.getLast_cons hrest]
        refine ih (fun hne' => ?_) hrest
        have hwhole := hs (List.cons_ne_nil d t)
        rwa [List.getLast_cons hne'] at hwhole

theorem rdropWhile_replaceAll (h : Keeps pat new) (s : List Char) :
    (replaceAll pat new s).rdropWhile isWhitespace =
      replaceAll pat new (s.rdropWhile isWhitespace) := by
  induction s using List.reverseRecOn with
  | nil => rfl
  | append_singleton s c ih =>
      cases hspace : isWhitespace c with
      | true =>
          have hc : c ∉ pat := fun hmem => by
            rw [h.spaceless c hmem] at hspace
            cases hspace
          rw [replaceAll_append_cons h.ne_nil hc, replaceAll_nil,
            List.rdropWhile_concat_pos _ _ _ hspace, ih, List.rdropWhile_concat_pos _ _ _ hspace]
      | false =>
          have hlast : ∀ hne : s ++ [c] ≠ [], isWhitespace ((s ++ [c]).getLast hne) = false := by
            intro hne
            rw [List.getLast_append_singleton, hspace]
          rw [List.rdropWhile_concat_neg _ _ _ (by simp [hspace]), List.rdropWhile_eq_self_iff]
          intro hne
          rw [h.getLast_replaceAll hlast hne]
          simp

theorem trim_replaceAll (h : Keeps pat new) (s : List Char) :
    (trim (.ofList (replaceAll pat new s))).toList =
      replaceAll pat new (trim (.ofList s)).toList := by
  simp only [trim, trimEnd, trimStart, String.toList_ofList]
  rw [h.dropWhile_replaceAll, h.rdropWhile_replaceAll]

end Keeps

/-! ### The two stages -/

def trimChars (s : List Char) : List Char := (trim (.ofList s)).toList

/-- A fenced block, or everything. -/
def block (s : List Char) : List Char := (fenceCapture s).getD s

theorem sanitizeLlmResponse_eq (response : String) :
    (sanitizeLlmResponse response).toList =
      trimChars (block (trimChars (block response.toList))) := by
  have hextracted : (fenceCapture response.toList).elim response String.ofList =
      .ofList (block response.toList) := by
    rw [block]
    cases fenceCapture response.toList with
    | none => simp
    | some b => rfl
  have htwice : ∀ e, trimChars (trimChars e) = trimChars e := by
    intro e
    rw [trimChars, trimChars, String.ofList_toList, trim_trim]
  rw [sanitizeLlmResponse, hextracted]
  generalize block response.toList = e
  rw [← trimChars]
  show _ = trimChars ((fenceCapture (trimChars e)).getD (trimChars e))
  cases fenceCapture (trimChars e) with
  | none => exact (htwice e).symm
  | some b => rfl

theorem trimChars_of_fenceCapture {s b : List Char} (h : fenceCapture s = some b) :
    trimChars b = b.rdropWhile isWhitespace := by
  rw [fenceCapture_eq] at h
  obtain ⟨opened, -, hbody⟩ := Option.bind_eq_some_iff.mp h
  obtain ⟨r, hr, -⟩ := fenceBody_starts hbody
  have hstart : b.dropWhile isWhitespace = b := by
    rw [List.dropWhile_eq_self_iff]
    intro hpos
    have hfirst : 0 < ((afterTag opened).dropWhile isWhitespace).length := by
      rw [hr, List.length_append]
      omega
    have hnot := List.dropWhile_get_zero_not isWhitespace (afterTag opened) hfirst
    simpa [hr, List.getElem_append_left hpos] using hnot
  rw [trimChars, trim, trimEnd, trimStart, String.toList_ofList, String.toList_ofList,
    String.toList_ofList, hstart]

theorem no_fence_of_fenceCapture {s b : List Char} (h : fenceCapture s = some b) :
    ¬fence <:+: trimChars b := by
  have hcapture := h
  rw [fenceCapture_eq] at hcapture
  obtain ⟨opened, -, hbody⟩ := Option.bind_eq_some_iff.mp hcapture
  intro hoccurs
  refine afterFence_eq_none.mp (afterFence_of_fenceBody hbody) (hoccurs.trans ?_)
  rw [trimChars_of_fenceCapture h]
  exact (List.rdropWhile_prefix isWhitespace b).isInfix

theorem exists_trimmed (b : List Char) :
    ∃ w, b = b.rdropWhile isWhitespace ++ w ∧ ∀ c ∈ w, isWhitespace c = true :=
  ⟨b.rtakeWhile isWhitespace, List.rdropWhile_append_rtakeWhile.symm,
    fun _ => List.mem_rtakeWhile_imp⟩

namespace Keeps

/-- One stage, for a result that begins neither with the pattern nor like the
tag. -/
theorem trimChars_block (h : Keeps pat new) {s : List Char} (hne : trimChars (block s) ≠ [])
    (hpat : ¬pat <+: trimChars (block s)) (hhead : (trimChars (block s)).head? ≠ some 'j') :
    trimChars (block (replaceAll pat new s)) = replaceAll pat new (trimChars (block s)) := by
  cases hcapture : fenceCapture s with
  | none =>
      have hnone : fenceCapture (replaceAll pat new s) = none := by
        have hsome := h.isSome_fenceCapture s
        rw [hcapture] at hsome
        exact Option.not_isSome_iff_eq_none.mp (by simp [hsome])
      rw [block, hnone, block, hcapture]
      exact h.trim_replaceAll s
  | some b =>
      have hb : block s = b := by rw [block, hcapture, Option.getD_some]
      rw [hb] at hne hpat hhead ⊢
      rw [trimChars_of_fenceCapture hcapture] at hne hpat hhead
      obtain ⟨w, hw, hspaces⟩ := exists_trimmed b
      have hpat' : ¬pat <+: b := by
        rw [hw]
        intro hstarts
        cases w with
        | nil => exact hpat (by simpa using hstarts)
        | cons c w =>
            refine hpat (prefix_of_prefix_append_cons (fun hc => ?_) hstarts)
            have hspace := hspaces c List.mem_cons_self
            rw [h.spaceless c hc] at hspace
            cases hspace
      have hne' : b ≠ [] := by
        rintro rfl
        exact hne rfl
      have hhead' : b.head? ≠ some 'j' := by
        rw [hw, List.head?_append_of_ne_nil _ hne]
        exact hhead
      rw [block, h.fenceCapture_replaceAll hcapture hne' hpat' hhead', Option.getD_some]
      exact h.trim_replaceAll b

/-- Fences and white space are removed before or after a replacement, if what
is left begins neither with the pattern nor like the tag. -/
theorem sanitize_replaceAll (h : Keeps pat new) {response : String}
    (hne : (sanitizeLlmResponse response).toList ≠ [])
    (hpat : ¬pat <+: (sanitizeLlmResponse response).toList)
    (hhead : (sanitizeLlmResponse response).toList.head? ≠ some 'j') :
    (sanitizeLlmResponse (.ofList (replaceAll pat new response.toList))).toList =
      replaceAll pat new (sanitizeLlmResponse response).toList := by
  rw [sanitizeLlmResponse_eq] at hne hpat hhead
  rw [sanitizeLlmResponse_eq, sanitizeLlmResponse_eq, String.toList_ofList]
  have hfirst : trimChars (block (replaceAll pat new response.toList)) =
      replaceAll pat new (trimChars (block response.toList)) := by
    cases hcapture : fenceCapture response.toList with
    | none =>
        have hnone : fenceCapture (replaceAll pat new response.toList) = none := by
          have hsome := h.isSome_fenceCapture response.toList
          rw [hcapture] at hsome
          exact Option.not_isSome_iff_eq_none.mp (by simp [hsome])
        rw [block, hnone, block, hcapture]
        exact h.trim_replaceAll _
    | some b =>
        -- The block has no fence of its own, so the second stage leaves it.
        have hb : block response.toList = b := by rw [block, hcapture, Option.getD_some]
        have hnested : fenceCapture (trimChars b) = none := by
          rw [fenceCapture_eq, afterFence_eq_none.mpr (no_fence_of_fenceCapture hcapture),
            Option.bind_none]
        have hsecond : trimChars (block (trimChars b)) = trimChars b := by
          rw [block, hnested, Option.getD_none, trimChars, trimChars, String.ofList_toList,
            trim_trim]
        rw [hb, hsecond] at hne hpat hhead
        rw [hb]
        have hstage := h.trimChars_block (s := response.toList)
        rw [hb] at hstage
        exact hstage hne hpat hhead
  rw [hfirst]
  exact h.trimChars_block hne hpat hhead

end Keeps

end Replaced

end SereinGateway.Interfaces

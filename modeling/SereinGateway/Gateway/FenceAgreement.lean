import Mathlib
import SereinGateway.Interfaces.Sanitized
import SereinGateway.Consensus.Formatting
import SereinGateway.TrafficControl.Arbitration

/-!
The three removals of a Markdown fence, on one JSON object in the forms that answers
have.

The consensus and the arbitration cut off the opening fence and the last one, so they
never look into the object. The fence pattern of the payload takes the first fence that
is closed by another, wherever the two are, and ends a block at the first fence after
its opening.
-/

namespace SereinGateway.Gateway

open SereinGateway.Lib SereinGateway.Interfaces SereinGateway.Consensus

/-- What the text of a JSON object looks like. -/
structure ObjectText (t : String) : Prop where
  opens : startsWith t "\x7b" = true
  closes : ∃ body, t.toList = body ++ ['\x7d']

/-- The forms of an answer: the text padded, or in a fenced block. -/
inductive Form where
  | padded (p q : String)
  | fenced (opening p w₁ w₂ q : String)

namespace Form

/-- The paddings are white space, and the fence is an opening one. -/
def Regular : Form → Prop
  | padded p q => Blank p ∧ Blank q
  | fenced opening p w₁ w₂ q =>
      OpeningFence opening ∧ Blank p ∧ Blank w₁ ∧ Blank w₂ ∧ Blank q

def answer (t : String) : Form → String
  | padded p q => p ++ t ++ q
  | fenced opening p w₁ w₂ q => p ++ (opening ++ (w₁ ++ (t ++ (w₂ ++ "```")))) ++ q

def Undisturbed (t : String) : Form → Prop
  | padded _ _ => ¬∃ a b c, t.toList = a ++ fence ++ b ++ fence ++ c
  | fenced .. => ¬fence <:+: t.toList

end Form

/-- All three removals give the same text. -/
structure Agreed (raw t : String) : Prop where
  sanitized : sanitizeLlmResponse raw = t
  hashed : Digests.stripMarkdownFences raw = t
  arbitrated : TrafficControl.stripMarkdownFences raw = t

/-- An answer is judged as its text is: as a payload, by its key, and by the arbitration. -/
structure SameDocument (raw t : String) : Prop where
  payload : ∀ parser : PayloadParser, IntermediatePayload.fromLlmOutput parser raw =
    IntermediatePayload.fromLlmOutput parser t
  key : ∀ {ν : Type} (dg : Digests ν), dg.computeCanonicalKeySync raw =
    dg.computeCanonicalKeySync t
  arbitrated : ∀ {ν : Type} (cmp : TrafficControl.Comparison ν)
    (r : TrafficControl.BackendResult) (value : Value ν), r.payload = raw →
      cmp.fromStr t = .ok value → cmp.parsed r = value.1

/-! ### Blocks -/

section Blocks

variable {s o b l : List Char}

theorem isSome_fenceBody : (fenceBody s).isSome = true ↔ fence <:+: s := by
  induction s with
  | nil => simp [fenceBody, fence]
  | cons c s ih =>
      rw [fenceBody]
      split
      · rename_i hahead
        refine iff_of_true rfl ?_
        exact (List.isPrefixOf_iff_prefix.mp hahead).isInfix.trans
          (List.dropWhile_suffix isWhitespace).isInfix
      · rename_i hahead
        rw [Option.isSome_map, ih, List.infix_cons_iff, or_iff_right]
        intro hstarts
        apply hahead
        have hc : c = '`' := (List.cons_prefix_cons.mp hstarts).1.symm
        subst hc
        rw [List.dropWhile_cons_of_neg (by decide), List.isPrefixOf_iff_prefix]
        exact hstarts

theorem afterFence_eq_some (h : afterFence s = some o) : ∃ a, s = a ++ fence ++ o := by
  induction s with
  | nil => cases h
  | cons c s ih =>
      rw [afterFence] at h
      split at h
      · rename_i hstarts
        cases h
        obtain ⟨rest, hrest⟩ := List.isPrefixOf_iff_prefix.mp hstarts
        exact ⟨[], by rw [← hrest]; rfl⟩
      · obtain ⟨a, rfl⟩ := ih h
        exact ⟨c :: a, rfl⟩

theorem exists_afterFence (a b : List Char) :
    ∃ o, afterFence (a ++ fence ++ b) = some o ∧ b <:+ o := by
  induction a with
  | nil => exact ⟨b, rfl, List.suffix_refl b⟩
  | cons c a ih =>
      rw [List.cons_append, List.cons_append, afterFence]
      split
      · refine ⟨_, rfl, ?_⟩
        have hlong : 3 ≤ (c :: a ++ fence).length := by simp [fence]
        rw [← List.cons_append, ← List.cons_append, List.drop_append_of_le_length hlong]
        exact List.suffix_append _ b
      · exact ih

/-- The pattern matches a text with two fences. -/
theorem isSome_fenceCapture_iff :
    (fenceCapture s).isSome = true ↔ ∃ a b c, s = a ++ fence ++ b ++ fence ++ c := by
  have hclosed : (fenceCapture s).isSome = true ↔ ∃ o, afterFence s = some o ∧ fence <:+: o := by
    rw [fenceCapture_eq]
    cases afterFence s with
    | none => simp
    | some o => simp [isSome_fenceBody_afterTag, isSome_fenceBody]
  rw [hclosed]
  constructor
  · rintro ⟨o, ho, b, c, rfl⟩
    obtain ⟨a, rfl⟩ := afterFence_eq_some ho
    exact ⟨a, b, c, by simp only [List.append_assoc]⟩
  · rintro ⟨a, b, c, rfl⟩
    obtain ⟨o, ho, hsuffix⟩ := exists_afterFence a (b ++ fence ++ c)
    refine ⟨o, ?_, List.IsInfix.trans ⟨b, c, rfl⟩ hsuffix.isInfix⟩
    simpa only [List.append_assoc] using ho

end Blocks

/-! ### Objects -/

namespace ObjectText

variable {t : String}

theorem head (ht : ObjectText t) : ∃ rest, t.toList = '\x7b' :: rest := by
  obtain ⟨rest, hrest⟩ := List.isPrefixOf_iff_prefix.mp ht.opens
  exact ⟨rest, hrest.symm⟩

theorem trimmed (ht : ObjectText t) : trim t = t := by
  obtain ⟨rest, hrest⟩ := ht.head
  obtain ⟨body, hbody⟩ := ht.closes
  cases body with
  | nil =>
      rw [hbody] at hrest
      simp at hrest
  | cons c body =>
      rw [hbody, List.cons_append, List.cons.injEq] at hrest
      rw [List.cons_append, hrest.1] at hbody
      exact trim_eq_self hbody (by decide) (by decide)

theorem payload (ht : ObjectText t) : Payload t := ⟨.inl ht.opens, ht.trimmed⟩

theorem closing_mem (ht : ObjectText t) {v : List Char} (hv : v ≠ []) (hsuffix : v <:+ t.toList) :
    '\x7d' ∈ v := by
  obtain ⟨body, hbody⟩ := ht.closes
  obtain ⟨u, hu⟩ := hsuffix
  rw [hbody, ← List.dropLast_append_getLast hv, ← List.append_assoc] at hu
  obtain ⟨-, hlast⟩ := List.append_inj' hu rfl
  rw [← List.singleton_inj.mp hlast]
  exact List.getLast_mem hv

theorem fenceAhead (ht : ObjectText t) (hfree : ¬fence <:+: t.toList) {v s : List Char}
    (hv : v ≠ []) (hsuffix : v <:+ t.toList) : Interfaces.fenceAhead (v ++ s) = false := by
  induction v with
  | nil => exact absurd rfl hv
  | cons d v ih =>
      cases hspace : isWhitespace d with
      | true =>
          rw [List.cons_append, fenceAhead_space hspace]
          have hv' : v ≠ [] := by
            rintro rfl
            obtain rfl := List.mem_singleton.mp (ht.closing_mem hv hsuffix)
            revert hspace
            decide
          exact ih hv' ((List.suffix_cons d v).trans hsuffix)
      | false =>
          rw [List.cons_append, fenceAhead_tick hspace, ← List.cons_append]
          by_contra hstarts
          rw [Bool.not_eq_false, List.isPrefixOf_iff_prefix] at hstarts
          rcases List.prefix_or_prefix_of_prefix hstarts (List.prefix_append (d :: v) s) with h | h
          · exact hfree (h.isInfix.trans hsuffix.isInfix)
          · have hbrace := h.subset (ht.closing_mem hv hsuffix)
            revert hbrace
            decide

theorem fenceBody (ht : ObjectText t) (hfree : ¬fence <:+: t.toList) {s : List Char}
    (hs : Interfaces.fenceAhead s = true) :
    Interfaces.fenceBody (t.toList ++ s) = some t.toList := by
  have hall : ∀ v, v <:+ t.toList → Interfaces.fenceBody (v ++ s) = some v := by
    intro v hv
    induction v with
    | nil =>
        cases s with
        | nil => cases hs
        | cons c s => exact if_pos hs
    | cons d v ih =>
        have hahead : fence.isPrefixOf ((d :: (v ++ s)).dropWhile isWhitespace) = false :=
          ht.fenceAhead hfree (List.cons_ne_nil d v) hv
        rw [List.cons_append, Interfaces.fenceBody, if_neg (by simp [hahead]),
          ih ((List.suffix_cons d v).trans hv), Option.map_some]
  exact hall t.toList (List.suffix_refl _)

end ObjectText

/-! ### The two forms -/

section Forms

variable {raw t : String} {b : List Char}

theorem sanitize_of_fenceCapture (h : fenceCapture raw.toList = some b) :
    (sanitizeLlmResponse raw).toList = trimChars b := by
  have hnested : fenceCapture (trimChars b) = none := by
    rw [fenceCapture_eq, afterFence_eq_none.mpr (no_fence_of_fenceCapture h), Option.bind_none]
  have hblock : block raw.toList = b := by rw [block, h, Option.getD_some]
  rw [sanitizeLlmResponse_eq, hblock, block, hnested, Option.getD_none, trimChars, trimChars,
    String.ofList_toList, trim_trim]

theorem sanitize_of_no_capture (h : fenceCapture raw.toList = none)
    (htrim : fenceCapture (trim raw).toList = none) : sanitizeLlmResponse raw = trim raw := by
  simp only [sanitizeLlmResponse, h, Option.elim_none, htrim]

/-- A block has lost the backticks of two fences. -/
theorem count_fenceCapture {s : List Char} (h : fenceCapture s = some b) :
    b.count '`' + 6 ≤ s.count '`' := by
  rw [fenceCapture_eq] at h
  obtain ⟨o, ho, hbody⟩ := Option.bind_eq_some_iff.mp h
  obtain ⟨a, rfl⟩ := afterFence_eq_some ho
  obtain ⟨r, hr, hahead⟩ := fenceBody_starts hbody
  have hrest : 3 ≤ r.count '`' :=
    ((List.isPrefixOf_iff_prefix.mp hahead).sublist.trans
      (List.dropWhile_sublist isWhitespace)).count_le '`'
  have hopened : b.count '`' + r.count '`' ≤ o.count '`' := by
    rw [← List.count_append, ← hr]
    refine ((List.dropWhile_sublist isWhitespace).trans ?_).count_le '`'
    unfold afterTag
    split
    · exact List.drop_sublist 4 o
    · exact List.Sublist.refl o
  rw [List.count_append, List.count_append]
  have hfence : fence.count '`' = 3 := rfl
  omega

theorem count_trimChars (s : List Char) : (trimChars s).count '`' ≤ s.count '`' := by
  rw [trimChars, trim, trimEnd, trimStart, String.toList_ofList, String.toList_ofList,
    String.toList_ofList]
  exact ((List.rdropWhile_prefix isWhitespace _).sublist.trans
    (List.dropWhile_sublist isWhitespace)).count_le '`'

theorem count_blank {w : String} (hw : Blank w) : w.toList.count '`' = 0 := by
  rw [List.count_eq_zero]
  intro hmem
  have hspace := hw _ hmem
  revert hspace
  decide

theorem two_fences_of_padded {p q : String} (hp : Blank p) (hq : Blank q) {a b c : List Char}
    (h : (p ++ t ++ q).toList = a ++ fence ++ b ++ fence ++ c) :
    ∃ a b c, t.toList = a ++ fence ++ b ++ fence ++ c := by
  have hspace : ∀ {w : String}, Blank w → '`' ∉ w.toList := fun hw hmem =>
    List.count_eq_zero.mp (count_blank hw) hmem
  rw [String.toList_append, String.toList_append] at h
  have hend : ∃ c', p.toList ++ t.toList = a ++ fence ++ b ++ fence ++ c' := by
    rcases List.append_eq_append_iff.mp h with ⟨e, he, hrest⟩ | ⟨e, he, -⟩
    · rcases List.eq_nil_or_concat e with rfl | ⟨e, x, rfl⟩
      · exact ⟨[], by rw [← List.append_nil (p.toList ++ t.toList), ← he, List.append_nil]⟩
      · have hlast : a ++ fence ++ b ++ ['`', '`'] ++ ['`'] = p.toList ++ t.toList ++ e ++ [x] := by
          simpa [fence] using he
        obtain ⟨-, hx⟩ := List.append_inj' hlast rfl
        refine absurd ?_ (hspace hq)
        rw [hrest, List.singleton_inj.mp hx]
        simp
    · exact ⟨e, he⟩
  obtain ⟨c', hc'⟩ := hend
  simp only [List.append_assoc] at hc'
  rcases List.append_eq_append_iff.mp hc' with ⟨e, he, ht⟩ | ⟨e, he, ht⟩
  · exact ⟨e, b, c', by simpa only [List.append_assoc] using ht⟩
  · cases e with
    | nil => exact ⟨[], b, c', by simpa only [List.append_assoc, List.nil_append] using ht.symm⟩
    | cons x e =>
        refine absurd ?_ (hspace hp)
        rw [he, ← (List.cons.inj ht).1]
        exact List.mem_append_right a List.mem_cons_self

theorem sanitize_padded {p q : String} (ht : ObjectText t) (hp : Blank p) (hq : Blank q) :
    sanitizeLlmResponse (p ++ t ++ q) = t ↔ (Form.padded p q).Undisturbed t := by
  have htrim : trim (p ++ t ++ q) = t := by rw [trim_padded hp t hq, ht.trimmed]
  constructor
  · rintro heq ⟨a, b, c, htwo⟩
    have hmatch : (fenceCapture (p ++ t ++ q).toList).isSome = true := by
      refine isSome_fenceCapture_iff.mpr ⟨p.toList ++ a, b, c ++ q.toList, ?_⟩
      simp only [String.toList_append, htwo, List.append_assoc]
    obtain ⟨block, hblock⟩ := Option.isSome_iff_exists.mp hmatch
    have hresult := sanitize_of_fenceCapture hblock
    have hcount := count_fenceCapture hblock
    have hle := count_trimChars block
    rw [← hresult, heq] at hle
    rw [String.toList_append, String.toList_append, List.count_append, List.count_append,
      count_blank hp, count_blank hq] at hcount
    omega
  · intro hfree
    have hnone : ∀ {s : List Char}, (¬∃ a b c, s = a ++ fence ++ b ++ fence ++ c) →
        fenceCapture s = none := fun hs =>
      Option.not_isSome_iff_eq_none.mp fun hsome => hs (isSome_fenceCapture_iff.mp hsome)
    rw [sanitize_of_no_capture, htrim]
    · exact hnone fun ⟨a, b, c, h⟩ => hfree (two_fences_of_padded hp hq h)
    · rw [htrim]
      exact hnone hfree

theorem fenceCapture_fenced {opening p w₁ w₂ q : String} (ht : ObjectText t)
    (hopening : OpeningFence opening) (hp : Blank p) (hw₁ : Blank w₁) (hw₂ : Blank w₂)
    (hfree : ¬fence <:+: t.toList) :
    fenceCapture (p ++ (opening ++ (w₁ ++ (t ++ (w₂ ++ "```")))) ++ q).toList =
      some t.toList := by
  obtain ⟨rest, hrest⟩ := ht.head
  have hspace : '`' ∉ p.toList := List.count_eq_zero.mp (count_blank hp)
  have hclosing : Interfaces.fenceAhead (w₂.toList ++ (fence ++ q.toList)) = true := by
    rw [Interfaces.fenceAhead, List.dropWhile_append_of_pos hw₂]
    rfl
  have hbody : Interfaces.fenceBody ((w₁.toList ++ (t.toList ++ (w₂.toList ++ (fence ++
      q.toList)))).dropWhile isWhitespace) = some t.toList := by
    rw [List.dropWhile_append_of_pos hw₁, ← ht.fenceBody hfree hclosing, hrest]
    rfl
  have hopened : ∃ o, afterFence (opening.toList ++ (w₁.toList ++ (t.toList ++ (w₂.toList ++
      (fence ++ q.toList))))) = some o ∧
        afterTag o = w₁.toList ++ (t.toList ++ (w₂.toList ++ (fence ++ q.toList))) := by
    rcases hopening with rfl | rfl
    · exact ⟨"json".toList ++ _, rfl, rfl⟩
    · refine ⟨_, rfl, if_neg ?_⟩
      rw [hrest]
      cases hlead : w₁.toList with
      | nil => exact Bool.false_ne_true
      | cons c lead =>
          intro hjson
          have hstarts := List.isPrefixOf_iff_prefix.mp hjson
          have hblank := hw₁ c (hlead ▸ List.mem_cons_self)
          rw [← (List.cons_prefix_cons.mp hstarts).1] at hblank
          revert hblank
          decide
  obtain ⟨o, ho, htag⟩ := hopened
  have htext : (p ++ (opening ++ (w₁ ++ (t ++ (w₂ ++ "```")))) ++ q).toList =
      p.toList ++ (opening.toList ++ (w₁.toList ++ (t.toList ++ (w₂.toList ++
        (fence ++ q.toList))))) := by
    have hfence : "```".toList = fence := rfl
    simp only [String.toList_append, hfence, List.append_assoc]
  rw [htext, fenceCapture_eq, afterFence_append hspace, ho, Option.bind_some, htag, hbody]

theorem sanitize_fenced {opening p w₁ w₂ q : String} (ht : ObjectText t)
    (hopening : OpeningFence opening) (hp : Blank p) (hw₁ : Blank w₁) (hw₂ : Blank w₂) :
    sanitizeLlmResponse (p ++ (opening ++ (w₁ ++ (t ++ (w₂ ++ "```")))) ++ q) = t ↔
      (Form.fenced opening p w₁ w₂ q).Undisturbed t := by
  constructor
  · rintro heq hfence
    have hmatch : (fenceCapture
        (p ++ (opening ++ (w₁ ++ (t ++ (w₂ ++ "```")))) ++ q).toList).isSome = true := by
      obtain ⟨tag, htag⟩ : ∃ tag, opening.toList = fence ++ tag := by
        rcases hopening with rfl | rfl
        · exact ⟨"json".toList, rfl⟩
        · exact ⟨[], rfl⟩
      refine isSome_fenceCapture_iff.mpr
        ⟨p.toList, tag ++ w₁.toList ++ t.toList ++ w₂.toList, q.toList, ?_⟩
      have hclosing : "```".toList = fence := rfl
      simp only [String.toList_append, htag, hclosing, List.append_assoc]
    obtain ⟨block, hblock⟩ := Option.isSome_iff_exists.mp hmatch
    rw [← heq, sanitize_of_fenceCapture hblock] at hfence
    exact no_fence_of_fenceCapture hblock hfence
  · intro hfree
    rw [← String.toList_inj, sanitize_of_fenceCapture
      (fenceCapture_fenced ht hopening hp hw₁ hw₂ hfree), trimChars, String.ofList_toList,
      ht.trimmed]

end Forms

/-! ### Agreement -/

section Agreement

variable {t : String} {form : Form}

theorem stripMarkdownFences_answer (ht : ObjectText t) (hform : form.Regular) :
    Digests.stripMarkdownFences (form.answer t) = t := by
  cases form with
  | padded p q => exact Digests.stripMarkdownFences_padded ht.payload hform.1 hform.2
  | fenced opening p w₁ w₂ q =>
      obtain ⟨hopening, hp, hw₁, hw₂, hq⟩ := hform
      exact Digests.stripMarkdownFences_fenced hopening ht.payload hw₁ hw₂ hp hq

theorem sanitize_answer (ht : ObjectText t) (hform : form.Regular) :
    sanitizeLlmResponse (form.answer t) = t ↔ form.Undisturbed t := by
  cases form with
  | padded p q => exact sanitize_padded ht hform.1 hform.2
  | fenced opening p w₁ w₂ q =>
      obtain ⟨hopening, hp, hw₁, hw₂, -⟩ := hform
      exact sanitize_fenced ht hopening hp hw₁ hw₂

theorem sanitize_bare (ht : ObjectText t) (hfree : form.Undisturbed t) :
    sanitizeLlmResponse t = t := by
  have hblank : Blank "" := fun _ hc => by cases hc
  have hbare := sanitize_padded ht hblank hblank
  rw [String.empty_append, String.append_empty] at hbare
  refine hbare.mpr ?_
  rintro ⟨a, b, c, heq⟩
  cases form with
  | padded p q => exact hfree ⟨a, b, c, heq⟩
  | fenced opening p w₁ w₂ q =>
      exact hfree ⟨a, b ++ fence ++ c, by simp only [heq, List.append_assoc]⟩

theorem sameDocument_of_agreed (ht : ObjectText t) (hform : form.Regular)
    (h : Agreed (form.answer t) t) : SameDocument (form.answer t) t := by
  have hbare := sanitize_bare ht ((sanitize_answer ht hform).mp h.sanitized)
  have hblank : Blank "" := fun _ hc => by cases hc
  have hkey : Digests.stripMarkdownFences ("" ++ t ++ "") = t :=
    Digests.stripMarkdownFences_padded ht.payload hblank hblank
  rw [String.empty_append, String.append_empty] at hkey
  refine ⟨fun parser => ?_, fun dg => ?_, fun cmp r value hr hvalue => ?_⟩
  · rw [IntermediatePayload.fromLlmOutput, IntermediatePayload.fromLlmOutput, h.sanitized, hbare]
  · exact dg.computeCanonicalKeySync_congr (h.hashed.trans hkey.symm)
  · rw [TrafficControl.Comparison.parsed, hr, h.arbitrated, hvalue]

/-- The three removals give the text exactly if the fences it has of its own are not
taken for those of a block, and then all judge the same document. -/
theorem agreed_iff_undisturbed (t : String) (form : Form) (ht : ObjectText t)
    (hform : form.Regular) :
    (Agreed (form.answer t) t ↔ form.Undisturbed t) ∧
      (Agreed (form.answer t) t → SameDocument (form.answer t) t) := by
  have hstrip := stripMarkdownFences_answer ht hform
  refine ⟨?_, sameDocument_of_agreed ht hform⟩
  constructor
  · intro h
    exact (sanitize_answer ht hform).mp h.sanitized
  · intro hfree
    exact ⟨(sanitize_answer ht hform).mpr hfree, hstrip, hstrip⟩

/-- An object in a block with a tag, with two ticks in a string. -/
theorem agreed_iff_undisturbed_ticks :
    Agreed ((Form.fenced "```json" "\n" "\n" "\n" " ").answer "\x7b\"a\":\"``x`\"\x7d")
      "\x7b\"a\":\"``x`\"\x7d" := by
  have hblank : ∀ {w : String}, w.toList.all isWhitespace = true → Blank w := List.all_eq_true.mp
  refine (agreed_iff_undisturbed "\x7b\"a\":\"``x`\"\x7d" (.fenced "```json" "\n" "\n" "\n" " ")
    ⟨by decide, "\x7b\"a\":\"``x`\"".toList, rfl⟩
    ⟨.inl rfl, hblank rfl, hblank rfl, hblank rfl, hblank rfl⟩).1.mpr ?_
  show ¬fence <:+: _
  decide

/-- A string with a block of its own, in a bare text. -/
theorem not_agreed_inner_block :
    ¬∀ (t : String) (form : Form), ObjectText t → form.Regular → Agreed (form.answer t) t := by
  intro h
  have hblank : Blank "" := fun _ hc => by cases hc
  have ht : ObjectText "\x7b\"a\":\"```x```\"\x7d" :=
    ⟨by decide, "\x7b\"a\":\"```x```\"".toList, rfl⟩
  have hsanitized := (h _ (.padded "" "") ht ⟨hblank, hblank⟩).sanitized
  revert hsanitized
  decide

end Agreement

end SereinGateway.Gateway

import SereinGateway.Consensus.CanonicalKey

/-!
The vote key of a payload does not depend on how it is padded and fenced.

Once the padding of a fenced text is trimmed, it begins with the opening fence and
ends with the closing one. What is between them may contain fences and end in
backticks: the closing fence is still the last occurrence, so what is cut off is the
closing fence alone.
-/

namespace SereinGateway.Consensus

open SereinGateway.Lib

/-- What a JSON object or array may look like: a bracket first, and no white space around. -/
structure Payload (t : String) : Prop where
  opens : startsWith t "\x7b" = true ∨ startsWith t "[" = true
  trimmed : trim t = t

def OpeningFence (fence : String) : Prop := fence = "```json" ∨ fence = "```"

namespace Payload

variable {t : String}

/-- The first character, which is not white space, a backtick or a letter. -/
theorem head (ht : Payload t) : ∃ c rest, t.toList = c :: rest ∧ (c = '\x7b' ∨ c = '[') := by
  rcases ht.opens with hopen | hopen
  · obtain ⟨rest, hrest⟩ := List.isPrefixOf_iff_prefix.mp hopen
    exact ⟨'\x7b', rest, hrest.symm, .inl rfl⟩
  · obtain ⟨rest, hrest⟩ := List.isPrefixOf_iff_prefix.mp hopen
    exact ⟨'[', rest, hrest.symm, .inr rfl⟩

theorem not_fenced (ht : Payload t) : startsWith t "```" = false := by
  obtain ⟨c, rest, hlist, hc⟩ := ht.head
  rw [startsWith, hlist]
  rcases hc with rfl | rfl <;> rfl

theorem trimStart_append (ht : Payload t) (s : String) : trimStart (t ++ s) = t ++ s := by
  obtain ⟨c, rest, hlist, hc⟩ := ht.head
  have happend : (t ++ s).toList = c :: (rest ++ s.toList) := by
    rw [String.toList_append, hlist, List.cons_append]
  refine trimStart_eq_self happend ?_
  rcases hc with rfl | rfl <;> decide

end Payload

theorem stripPrefix_bareFence {t w s : String} (ht : Payload t) (hw : Blank w) :
    stripPrefix ("```" ++ (w ++ (t ++ s))) "```json" = none := by
  rw [Option.eq_none_iff_forall_ne_some]
  intro rest hrest
  have htext := congrArg String.toList (stripPrefix_eq_some.mp hrest)
  have hj : w.toList ++ (t.toList ++ s.toList) = 'j' :: ("son".toList ++ rest.toList) := by
    simpa using htext
  obtain ⟨c, tail, hlist, hc⟩ := ht.head
  cases hlead : w.toList with
  | nil =>
      rw [hlead, hlist, List.nil_append, List.cons_append, List.cons.injEq] at hj
      rcases hc with rfl | rfl
      · exact absurd hj.1 (by decide)
      · exact absurd hj.1 (by decide)
  | cons d lead =>
      rw [hlead, List.cons_append, List.cons.injEq] at hj
      have hblank := hw d (hlead ▸ List.mem_cons_self)
      rw [hj.1] at hblank
      exact absurd hblank (by decide)

theorem stripPrefix_fence {fence t w s : String} (hfence : OpeningFence fence) (ht : Payload t)
    (hw : Blank w) :
    (stripPrefix (fence ++ (w ++ (t ++ s))) "```json").or
      (stripPrefix (fence ++ (w ++ (t ++ s))) "```") = some (w ++ (t ++ s)) := by
  rcases hfence with rfl | rfl
  · rw [stripPrefix_eq_some.mpr rfl, Option.some_or]
  · rw [stripPrefix_bareFence ht hw, Option.none_or]
    exact stripPrefix_eq_some.mpr rfl

namespace Digests

theorem stripMarkdownFences_padded {t p q : String} (ht : Payload t) (hp : Blank p)
    (hq : Blank q) : stripMarkdownFences (p ++ t ++ q) = t := by
  rw [stripMarkdownFences, trim_padded hp t hq, ht.trimmed, ht.not_fenced]
  rfl

theorem trim_fenced {fence : String} (hfence : OpeningFence fence) (s : String) :
    trim (fence ++ (s ++ "```")) = fence ++ (s ++ "```") := by
  rcases hfence with rfl | rfl
  · have hlist : ("```json" ++ (s ++ "```")).toList =
        '\x60' :: (("``json".toList ++ s.toList ++ "``".toList) ++ ['\x60']) := by
      simp
    exact trim_eq_self hlist (by decide) (by decide)
  · have hlist : ("```" ++ (s ++ "```")).toList =
        '\x60' :: (("``".toList ++ s.toList ++ "``".toList) ++ ['\x60']) := by
      simp
    exact trim_eq_self hlist (by decide) (by decide)

theorem startsWith_fence {fence : String} (hfence : OpeningFence fence) (s : String) :
    startsWith (fence ++ s) "```" = true := by
  rw [startsWith, List.isPrefixOf_iff_prefix, String.toList_append]
  rcases hfence with rfl | rfl
  · exact ⟨"json".toList ++ s.toList, rfl⟩
  · exact List.prefix_append _ _

theorem stripMarkdownFences_fenced {fence t w₁ w₂ p q : String} (hfence : OpeningFence fence)
    (ht : Payload t) (hw₁ : Blank w₁) (hw₂ : Blank w₂) (hp : Blank p) (hq : Blank q) :
    stripMarkdownFences (p ++ (fence ++ (w₁ ++ (t ++ (w₂ ++ "```")))) ++ q) = t := by
  have htrim : trim (p ++ (fence ++ (w₁ ++ (t ++ (w₂ ++ "```")))) ++ q) =
      fence ++ (w₁ ++ (t ++ (w₂ ++ "```"))) := by
    have hinner := trim_fenced hfence (w₁ ++ (t ++ w₂))
    rw [trim_padded hp _ hq]
    simpa only [String.append_assoc] using hinner
  have hstart : trimStart (w₁ ++ (t ++ (w₂ ++ "```"))) = t ++ w₂ ++ "```" := by
    rw [trimStart_append hw₁, ht.trimStart_append, String.append_assoc]
  obtain ⟨pos, hpos, hslice⟩ := sliceTo_rfind (t ++ w₂) "```"
  have hblank : Blank "" := by simp [Blank]
  have hpayload : trim (t ++ w₂) = t := by
    have hpadded := trim_padded hblank t hw₂
    rwa [String.empty_append, ht.trimmed] at hpadded
  rw [stripMarkdownFences, htrim, startsWith_fence hfence, if_pos rfl,
    stripPrefix_fence hfence ht hw₁]
  simp only [hstart, hpos, hslice, hpayload]

variable {ν : Type} (dg : Digests ν)

theorem computeCanonicalKeySync_congr {raw raw' : String}
    (h : stripMarkdownFences raw = stripMarkdownFences raw') :
    dg.computeCanonicalKeySync raw = dg.computeCanonicalKeySync raw' := by
  rw [computeCanonicalKeySync, computeCanonicalKeySync, h]

/-- The key of a payload is that of the payload padded, and that of the payload fenced,
with or without a language tag, padded inside and outside. -/
theorem computeCanonicalKeySync_formatted (t w₁ w₂ p q : String)
    (hopens : startsWith t "\x7b" = true ∨ startsWith t "[" = true) (htrimmed : trim t = t)
    (hw₁ : Blank w₁) (hw₂ : Blank w₂) (hp : Blank p) (hq : Blank q) :
    dg.computeCanonicalKeySync (p ++ t ++ q) = dg.computeCanonicalKeySync t ∧
      dg.computeCanonicalKeySync (p ++ ("```json" ++ (w₁ ++ (t ++ (w₂ ++ "```")))) ++ q) =
        dg.computeCanonicalKeySync t ∧
      dg.computeCanonicalKeySync (p ++ ("```" ++ (w₁ ++ (t ++ (w₂ ++ "```")))) ++ q) =
        dg.computeCanonicalKeySync t := by
  have ht : Payload t := ⟨hopens, htrimmed⟩
  have hbare : stripMarkdownFences t = t := by
    rw [stripMarkdownFences, ht.trimmed, ht.not_fenced]
    rfl
  refine ⟨?_, ?_, ?_⟩ <;> apply dg.computeCanonicalKeySync_congr <;> rw [hbare]
  · exact stripMarkdownFences_padded ht hp hq
  · exact stripMarkdownFences_fenced (.inl rfl) ht hw₁ hw₂ hp hq
  · exact stripMarkdownFences_fenced (.inr rfl) ht hw₁ hw₂ hp hq

/-- A payload that is not JSON and ends in a fence of its own. -/
theorem computeCanonicalKeySync_formatted_fence :
    sampleDigests.computeCanonicalKeySync "\n```json\n[see ```\n```\n" =
      sampleDigests.computeCanonicalKeySync "[see ```" := by
  have hblank : Blank "\n" := by
    simp only [Blank, show "\n".toList = ['\n'] from rfl, List.forall_mem_singleton]
    decide
  exact (sampleDigests.computeCanonicalKeySync_formatted "[see ```" "\n" "\n" "\n" "\n"
    (.inr (by decide)) (by decide) hblank hblank hblank hblank).2.1

end Digests

end SereinGateway.Consensus

import Mathlib
import SereinGateway.Worker.EscapedPlaceholder

/-!
Restoration of an answer against restoration of its payload.

An answer that parses still parses once placeholders are restored in its text,
unless a control character is put in; and it parses to the payload with
restored strings unless a string has a placeholder that is not written out.
Both conditions are exact: `fromLlmOutput_restore_iff`.
-/

namespace SereinGateway.Worker

open SereinGateway.Lib
open SereinGateway.Lib.JsonText
open SereinGateway.Interfaces

/-! ### Masking maps -/

/-- A masking, with numbers drawn between those of other calls. -/
inductive PiiPatterns.Masks (pats : PiiPatterns) : List Segment → Masking → Masking → Prop
  | done (m : Masking) : pats.Masks [] m m
  | segment (counter : UInt64) (seg : Segment) {segs : List Segment} {m m' : Masking} :
      pats.Masks segs (pats.maskSegment counter m seg).2 m' → pats.Masks (seg :: segs) m m'

section Masks

variable {pats : PiiPatterns}

theorem PiiPatterns.masks_foldl (segs : List Segment) (counter : UInt64) (m : Masking) :
    pats.Masks segs m
      (segs.foldl (fun acc seg => pats.maskSegment acc.1 acc.2 seg) (counter, m)).2 := by
  induction segs generalizing counter m with
  | nil => exact .done m
  | cons seg segs ih => exact .segment counter seg (ih _ _)

/-- A call that nobody interrupts. -/
theorem PiiPatterns.masks_mask (pats : PiiPatterns) (counter : UInt64) (text : String) :
    pats.Masks (pats.segments text) .start (pats.mask counter text).2 :=
  PiiPatterns.masks_foldl _ counter .start

theorem PiiPatterns.Masks.entries {segs : List Segment} {m m' : Masking}
    (h : pats.Masks segs m m') :
    ∀ e ∈ m'.map.entries, e ∈ m.map.entries ∨
      ∃ type idx, e.1 = placeholder type idx ∧ .pii e.2 ∈ segs := by
  induction h with
  | done m => exact fun e he => .inl he
  | segment counter seg _ ih =>
      intro e he
      rcases ih e he with hold | ⟨type, idx, hkey, hmem⟩
      · cases seg with
        | plain text => exact .inl hold
        | pii matched =>
            rw [PiiPatterns.maskSegment, AList.entries_insert, List.mem_cons] at hold
            rcases hold with rfl | hold
            · exact .inr ⟨_, counter, rfl, List.mem_cons_self⟩
            · exact .inl ((List.kerase_sublist _ _).subset hold)
      · exact .inr ⟨type, idx, hkey, List.mem_cons_of_mem seg hmem⟩

end Masks

/-- The entries of a map in the order in which it is walked. -/
def entriesIn (iter : Shuffle (Σ _ : String, String)) (map : MaskingMap) : Entries :=
  (iter.order map.entries).map fun e => (e.1.toList, e.2.toList)

theorem restore_eq (iter : Shuffle (Σ _ : String, String)) (text : String) (map : MaskingMap) :
    restore iter text map = .ofList (restoreChars (entriesIn iter map) text.toList) := by
  rw [entriesIn, ← toList_restore, String.ofList_toList]

theorem PiiPatterns.Masks.issued {pats : PiiPatterns} {nd : DigitClass}
    (hpats : pats.FollowPattern nd) {prompt : String} {m : Masking}
    (h : pats.Masks (pats.segments prompt) .start m) (iter : Shuffle (Σ _ : String, String)) :
    Issued (entriesIn iter m.map) := by
  intro e he
  obtain ⟨entry, hentry, rfl⟩ := List.mem_map.mp he
  rcases h.entries entry (iter.mem_order.mp hentry) with hstart | ⟨type, idx, hkey, hmem⟩
  · exact absurd hstart List.not_mem_nil
  · refine ⟨?_, piiText_of_mem (hpats prompt _ hmem)⟩
    show PlaceholderText entry.1.toList
    rw [hkey]
    exact placeholderText type idx

/-! ### Reading a restored text -/

section Read

variable {es : Entries} {ds : Dialects} {text : List Char} {pieces : List Piece}
  {raw : RawPayload (List Item)}

theorem outside_of_readPayload {d : Dialect} (h : readPayload d text = some raw) :
    ∃ pieces, scan text = some pieces ∧ Outside pieces := by
  obtain ⟨pieces, hscan, hrest⟩ := Option.bind_eq_some_iff.mp h
  obtain ⟨doc, hparse, -⟩ := Option.bind_eq_some_iff.mp hrest
  have halphabet : ∀ c : Char, c ∉ spaces ++ punctuation ++ scalarChars → .raw c ∉ pieces := by
    intro c hc hmem
    rw [List.mem_append, List.mem_append, or_assoc] at hc
    exact hc (raw_alphabet hparse hmem)
  refine ⟨pieces, hscan, ?_, halphabet 'M' (by decide), halphabet 'j' (by decide)⟩
  rintro rfl
  exact ne_nil_of_parse hparse rfl

theorem outside_of_read (h : ds.read text = some raw) :
    ∃ pieces, scan text = some pieces ∧ Outside pieces := by
  rcases Option.or_eq_some_iff.mp h with h | ⟨-, h⟩
  · exact outside_of_readPayload h
  · exact outside_of_readPayload h

theorem read_restore (hes : Issued es) (hscan : scan text = some pieces)
    (hraw : .raw 'M' ∉ pieces) :
    (CleanThroughout es text → ds.read (render (restorePieces es pieces)) =
      (ds.read text).map (RawPayload.map (restoreItems es))) ∧
    (¬CleanThroughout es text → ds.read (render (restorePieces es pieces)) = none) := by
  obtain ⟨hsimd, hsimd'⟩ := readPayload_restore (d := ds.simd) hes hscan hraw
  obtain ⟨hserde, hserde'⟩ := readPayload_restore (d := ds.serde) hes hscan hraw
  constructor
  · intro hclean
    rw [Dialects.read, hsimd hclean, hserde hclean, Dialects.read, Option.map_or]
  · intro hclean
    rw [Dialects.read, hsimd' hclean, hserde' hclean, Option.or_none]

theorem render_restorePieces (hes : Issued es) (hplain : ∀ p ∈ pieces, p.Plain)
    (hraw : .raw 'M' ∉ pieces) :
    render (restorePieces es pieces) = restoreChars es (render pieces) := by
  induction es generalizing pieces with
  | nil => rw [restorePieces_nil]; rfl
  | cons e es ih =>
      obtain ⟨hpat, hnew⟩ := hes e List.mem_cons_self
      have hraw' : .raw 'M' ∉ replacePieces e.1 e.2 pieces := by
        rwa [replacePieces, raw_mem_map]
      rw [restorePieces_cons, ih hes.tail (replacePieces_plain hpat hnew hplain) hraw',
        render_replacePieces hpat hplain hraw]
      rfl

theorem backslash_notMem_restoreChars (hes : Issued es) (h : '\\' ∉ text) :
    '\\' ∉ restoreChars es text := by
  induction es generalizing text with
  | nil => exact h
  | cons e es ih =>
      obtain ⟨hpat, hnew⟩ := hes e List.mem_cons_self
      refine ih hes.tail fun hmem => ?_
      rcases mem_replaceAll hpat.ne_nil hmem with hmem | hmem
      · exact h hmem
      · exact (hnew.plain _ hmem).2.1 rfl

theorem readAsItStands_restore (hes : Issued es) (hscan : scan text = some pieces)
    (hraw : .raw 'M' ∉ pieces) (h : ds.ReadAsItStands text) :
    ds.ReadAsItStands (render (restorePieces es pieces)) := by
  obtain ⟨rfl, hplain, hclean⟩ := scan_eq_some hscan
  have hplain' := restorePieces_plain hes hplain
  have hclean' := restorePieces_clean_iff hes hplain hraw
  by_cases hthroughout : CleanThroughout es (render pieces)
  · rcases h with h | h | ⟨pieces', heq, hplain'', hcontrol⟩
    · left
      rw [(readPayload_restore hes hscan hraw).1 hthroughout, Option.isSome_map]
      exact h
    · right
      left
      rw [render_restorePieces hes hplain hraw]
      exact backslash_notMem_restoreChars hes h
    · rw [heq, scan_render_control hplain'' hcontrol] at hscan
      cases hscan
  · exact .inr (.inr ⟨_, rfl, hplain', fun hall => hthroughout (hclean'.mp hall).2⟩)

end Read

/-! ### Payloads -/

def restorePayload (iter : Shuffle (Σ _ : String, String)) (map : MaskingMap)
    (p : IntermediatePayload) : IntermediatePayload where
  networkId := restore iter p.networkId map
  taskType := restore iter p.taskType map
  maxGasLimit := p.maxGasLimit
  confidenceScore := p.confidenceScore
  sourceUrl := restore iter p.sourceUrl map

/-- What an answer must fulfil for its restoration: no control character is
put in, and the placeholders of its strings are written out. -/
def Restorable (ds : Dialects) (es : Entries) (text : List Char) : Prop :=
  CleanThroughout es text ∧ ∀ raw, ds.read text = some raw →
    WrittenThroughout es raw.networkId ∧ WrittenThroughout es raw.taskType ∧
      WrittenThroughout es raw.sourceUrl

theorem cleanThroughout_of_forall {es : Entries} (h : ∀ e ∈ es, ∀ c ∈ e.2, 32 ≤ c.toNat)
    (text : List Char) : CleanThroughout es text := by
  induction es generalizing text with
  | nil => trivial
  | cons e es ih =>
      exact ⟨fun _ => h e List.mem_cons_self, ih (fun x hx => h x (List.mem_cons_of_mem e hx)) _⟩

/-- A literal without escapes has everything written out. -/
theorem writtenThroughout_lit (es : Entries) (l : List Char) :
    WrittenThroughout es (l.map Item.lit) := by
  induction es generalizing l with
  | nil => trivial
  | cons e es ih =>
      refine ⟨?_, ?_⟩
      · intro pre mid post hsplit hmid
        have hsub : ∀ i ∈ mid, i = .lit i.char := by
          intro i hi
          have hmem : i ∈ l.map Item.lit := by rw [hsplit]; simp [hi]
          obtain ⟨c, -, rfl⟩ := List.mem_map.mp hmem
          rfl
        rw [← hmid, decode, List.map_map]
        exact ((List.map_congr_left hsub).symm.trans (List.map_id mid)).symm
      · rw [replaceItems, replaceAll_map fun a b h => Item.lit.inj h]
        exact ih _

/-- An answer without escapes in its strings, and nothing to put in that has a
control character. -/
theorem restorable_of_lit {ds : Dialects} {es : Entries} {text n t u : List Char} {gas : UInt32}
    {score : ℚ} (hes : ∀ e ∈ es, ∀ c ∈ e.2, 32 ≤ c.toNat)
    (hread : ds.read text = some ⟨n.map Item.lit, t.map Item.lit, gas, score, u.map Item.lit⟩) :
    Restorable ds es text := by
  refine ⟨cleanThroughout_of_forall hes text, fun raw hraw => ?_⟩
  rw [hread, Option.some.injEq] at hraw
  rw [← hraw]
  exact ⟨writtenThroughout_lit es n, writtenThroughout_lit es t, writtenThroughout_lit es u⟩

theorem payload_map_iff {iter : Shuffle (Σ _ : String, String)} {map : MaskingMap}
    (hes : Issued (entriesIn iter map)) (raw : RawPayload (List Item)) :
    (raw.map (restoreItems (entriesIn iter map))).payload = restorePayload iter map raw.payload ↔
      WrittenThroughout (entriesIn iter map) raw.networkId ∧
        WrittenThroughout (entriesIn iter map) raw.taskType ∧
          WrittenThroughout (entriesIn iter map) raw.sourceUrl := by
  have hinj : ∀ a b : List Char, String.ofList a = String.ofList b ↔ a = b := by
    intro a b
    exact ⟨fun h => by simpa using congrArg String.toList h, congrArg String.ofList⟩
  simp only [RawPayload.payload, RawPayload.map, restorePayload, restore_eq, String.toList_ofList,
    IntermediatePayload.mk.injEq, hinj, true_and]
  rw [decode_restoreItems_iff hes, decode_restoreItems_iff hes, decode_restoreItems_iff hes]

section Answers

variable {parser : PayloadParser} {ds : Dialects} (hjson : parser.ReadsJson ds)
variable {iter : Shuffle (Σ _ : String, String)} {map : MaskingMap}
variable (hes : Issued (entriesIn iter map)) {c : String} {p : IntermediatePayload}
variable (hc : IntermediatePayload.fromLlmOutput parser c = .ok p)
variable (hread : ds.ReadAsItStands (sanitizeLlmResponse c).toList)

include hjson hes hc hread

theorem fromLlmOutput_restore :
    ∃ raw, ds.read (sanitizeLlmResponse c).toList = some raw ∧ raw.payload = p ∧
      (CleanThroughout (entriesIn iter map) (sanitizeLlmResponse c).toList →
        (IntermediatePayload.fromLlmOutput parser (restore iter c map)).toOption =
          some (raw.map (restoreItems (entriesIn iter map))).payload) ∧
      (¬CleanThroughout (entriesIn iter map) (sanitizeLlmResponse c).toList →
        (IntermediatePayload.fromLlmOutput parser (restore iter c map)).toOption = none) := by
  have hparsed := hjson.fromLlmOutput hread
  rw [hc] at hparsed
  obtain ⟨raw, hraw, hp⟩ := Option.map_eq_some_iff.mp hparsed.symm
  obtain ⟨pieces, hscan, hout⟩ := outside_of_read hraw
  obtain ⟨htext, hplain, -⟩ := scan_eq_some hscan
  have hsanitized : (sanitizeLlmResponse (restore iter c map)).toList =
      render (restorePieces (entriesIn iter map) pieces) := by
    rw [restore_eq]
    exact sanitize_restoreChars hes hplain hout htext
  have hread' : ds.ReadAsItStands (sanitizeLlmResponse (restore iter c map)).toList := by
    rw [hsanitized]
    exact readAsItStands_restore hes hscan hout.raw_M hread
  refine ⟨raw, hraw, hp, fun hthroughout => ?_, fun hthroughout => ?_⟩
  · rw [hjson.fromLlmOutput hread', hsanitized,
      (read_restore hes hscan hout.raw_M).1 hthroughout, hraw]
    rfl
  · rw [hjson.fromLlmOutput hread', hsanitized,
      (read_restore hes hscan hout.raw_M).2 hthroughout, Option.map_none]

/-- The restored answer parses to the restored payload exactly if the answer
is restorable. -/
theorem fromLlmOutput_restore_iff :
    IntermediatePayload.fromLlmOutput parser (restore iter c map) =
        .ok (restorePayload iter map p) ↔
      Restorable ds (entriesIn iter map) (sanitizeLlmResponse c).toList := by
  obtain ⟨raw, hraw, rfl, hclean, hcontrol⟩ := fromLlmOutput_restore hjson hes hc hread
  have hoption : ∀ q, IntermediatePayload.fromLlmOutput parser (restore iter c map) = .ok q ↔
      (IntermediatePayload.fromLlmOutput parser (restore iter c map)).toOption = some q := by
    intro q
    cases IntermediatePayload.fromLlmOutput parser (restore iter c map) <;>
      simp [Except.toOption]
  have hwritten : (∀ raw', ds.read (sanitizeLlmResponse c).toList = some raw' →
      WrittenThroughout (entriesIn iter map) raw'.networkId ∧
        WrittenThroughout (entriesIn iter map) raw'.taskType ∧
          WrittenThroughout (entriesIn iter map) raw'.sourceUrl) ↔
      (raw.map (restoreItems (entriesIn iter map))).payload =
        restorePayload iter map raw.payload := by
    rw [payload_map_iff hes, hraw]
    exact ⟨fun h => h raw rfl, fun h raw' heq => Option.some.inj heq ▸ h⟩
  rw [Restorable, hwritten, hoption]
  by_cases hthroughout : CleanThroughout (entriesIn iter map) (sanitizeLlmResponse c).toList
  · rw [hclean hthroughout, Option.some.injEq]
    exact ⟨fun h => ⟨hthroughout, h⟩, fun h => h.2⟩
  · rw [hcontrol hthroughout]
    exact ⟨fun h => absurd h (Option.some_ne_none _).symm, fun h => absurd h.1 hthroughout⟩

end Answers

end SereinGateway.Worker

import Mathlib
import SereinGateway.Lib.Fields
import SereinGateway.Worker.RestoredPayload

/-!
Masking is undone by restoration.

A text under restoration consists of stretches of the original text and of
placeholders that are still to be replaced. It is a list of blocks, each of
which knows the part of the original that it stands for. Replacing one
placeholder turns its holes into text and touches nothing else: a placeholder
begins with a bracket and has no other, so an occurrence of it either is a hole
or lies in a stretch between holes, which is a part of the original text. As the
original has no beginning of a placeholder, there is none of the latter.

So the order of the replacements does not matter. It does matter that no two
matches share a placeholder.
-/

namespace SereinGateway.Worker

open SereinGateway.Lib

/-- What every placeholder begins with. -/
def mark : List Char := "[MASKED_".toList

/-! ### Texts under restoration -/

/-- A part of a text under restoration. -/
inductive Block where
  | text (chars : List Char)
  | hole (placeholder original : List Char)

namespace Block

/-- The block as it stands. -/
def chars : Block → List Char
  | .text l => l
  | .hole p _ => p

def original : Block → List Char
  | .text l => l
  | .hole _ o => o

/-- The block after the replacement of a placeholder. -/
def fill (p : List Char) : Block → Block
  | .text l => .text l
  | .hole q o => if q = p then .text o else .hole q o

end Block

/-- The placeholders of the holes have the form of placeholders. -/
def Marked (bs : List Block) : Prop :=
  ∀ q o, .hole q o ∈ bs → mark <+: q ∧ ∃ w, q = '[' :: (w ++ [']']) ∧ '[' ∉ w ∧ ']' ∉ w

section Blocks

variable {p q o : List Char} {bs : List Block}

theorem Marked.tail {b : Block} (h : Marked (b :: bs)) : Marked bs :=
  fun q o hmem => h q o (List.mem_cons_of_mem b hmem)

theorem Marked.fill (h : Marked bs) (p : List Char) : Marked (bs.map (Block.fill p)) := by
  intro q o hmem
  obtain ⟨b, hb, heq⟩ := List.mem_map.mp hmem
  cases b with
  | text l => cases heq
  | hole q' o' =>
      rw [Block.fill] at heq
      split at heq
      · cases heq
      · cases heq
        exact h q o hb

@[simp] theorem original_fill (p : List Char) (b : Block) : (b.fill p).original = b.original := by
  cases b with
  | text l => rfl
  | hole q o =>
      rw [Block.fill]
      split <;> rfl

theorem flatMap_original_fill (p : List Char) (bs : List Block) :
    (bs.map (Block.fill p)).flatMap Block.original = bs.flatMap Block.original := by
  rw [List.flatMap_map]
  simp

theorem placeholder_eq_of_isPrefix {rest : List Char}
    (hp : ∃ w, p = '[' :: (w ++ [']']) ∧ '[' ∉ w ∧ ']' ∉ w)
    (hq : ∃ w, q = '[' :: (w ++ [']']) ∧ '[' ∉ w ∧ ']' ∉ w) (h : p <+: q ++ rest) : p = q := by
  obtain ⟨w, rfl, -, hw⟩ := hp
  obtain ⟨v, rfl, -, hv⟩ := hq
  obtain ⟨t, ht⟩ := h
  simp only [List.cons_append, List.append_assoc, List.cons.injEq, true_and, List.nil_append] at ht
  obtain ⟨rfl, -⟩ := append_sep_inj hw hv ht
  rfl

/-- The replacement of a placeholder fills its holes. The stretch before the
first hole is carried along. -/
theorem replaceAll_blocks (hp : mark <+: p ∧ ∃ w, p = '[' :: (w ++ [']']) ∧ '[' ∉ w ∧ ']' ∉ w)
    (hbs : Marked bs) (hsame : ∀ o', .hole p o' ∈ bs → o' = o) (run : List Char)
    (hmark : ¬mark <:+: run ++ bs.flatMap Block.original) :
    replaceAll p o (run ++ bs.flatMap Block.chars) =
      run ++ (bs.map (Block.fill p)).flatMap Block.chars := by
  obtain ⟨hstarts, w, hw, hopen, hclose⟩ := hp
  have hne : p ≠ [] := by
    rw [hw]
    exact List.cons_ne_nil _ _
  have hrun : ∀ run rest : List Char, ¬mark <:+: run ++ rest → replaceAll p o run = run :=
    fun run rest hnot => replaceAll_of_not_occurs fun hoccurs =>
      hnot ((hstarts.isInfix.trans hoccurs).trans (List.prefix_append run rest).isInfix)
  induction bs generalizing run with
  | nil => simpa using hrun run [] hmark
  | cons b bs ih =>
      cases b with
      | text l =>
          have hnext := ih hbs.tail (fun o' ho' => hsame o' (List.mem_cons_of_mem _ ho')) (run ++ l)
            (by simpa [Block.original] using hmark)
          simpa [Block.chars, Block.fill] using hnext
      | hole q o' =>
          have hrest : ¬mark <:+: [] ++ bs.flatMap Block.original := by
            intro hoccurs
            refine hmark (hoccurs.trans (List.IsSuffix.isInfix ⟨run ++ o', ?_⟩))
            simp [Block.original]
          have hnext := ih hbs.tail (fun o' ho' => hsame o' (List.mem_cons_of_mem _ ho')) [] hrest
          rw [List.nil_append, List.nil_append] at hnext
          obtain ⟨-, v, hv, hvopen, hvclose⟩ := hbs q o' List.mem_cons_self
          have hcut : replaceAll p o (run ++ (q ++ bs.flatMap Block.chars)) =
              run ++ replaceAll p o (q ++ bs.flatMap Block.chars) := by
            have htail : '[' ∉ p.tail := by
              rw [hw]
              simpa using hopen
            rw [hv, List.cons_append, replaceAll_append_of_notMem_tail hne htail,
              hrun run _ hmark]
          rw [List.flatMap_cons, Block.chars, hcut, List.map_cons, List.flatMap_cons, Block.fill]
          congr 1
          by_cases hqp : q = p
          · subst hqp
            obtain rfl := hsame o' List.mem_cons_self
            rw [if_pos rfl, Block.chars, replaceAll_append hne, hnext]
          · have hnot : ¬p <+: q ++ bs.flatMap Block.chars := fun hpre =>
              hqp (placeholder_eq_of_isPrefix ⟨w, hw, hopen, hclose⟩
                ⟨v, hv, hvopen, hvclose⟩ hpre).symm
            rw [if_neg hqp, Block.chars, hv]
            rw [hv] at hnot
            rw [List.cons_append, List.cons_append] at *
            rw [replaceAll_cons hnot, replaceAll_append_of_head hw (by simpa using hvopen), hnext]

/-- Replacing the placeholders of all holes, in any order, brings the original
back. -/
theorem restoreChars_blocks {es : Entries}
    (hes : ∀ e ∈ es, mark <+: e.1 ∧ ∃ w, e.1 = '[' :: (w ++ [']']) ∧ '[' ∉ w ∧ ']' ∉ w)
    (hbs : Marked bs) (hsame : ∀ e ∈ es, ∀ o, .hole e.1 o ∈ bs → o = e.2)
    (hall : ∀ q o, .hole q o ∈ bs → q ∈ es.map Prod.fst)
    (hmark : ¬mark <:+: bs.flatMap Block.original) :
    restoreChars es (bs.flatMap Block.chars) = bs.flatMap Block.original := by
  induction es generalizing bs with
  | nil =>
      -- No hole is left, so the blocks are the original.
      have htext : ∀ b ∈ bs, b.chars = b.original := by
        intro b hb
        cases b with
        | text l => rfl
        | hole q o => exact absurd (hall q o hb) (by simp)
      rw [restoreChars, List.foldl_nil, List.flatMap_congr htext]
  | cons e es ih =>
      have hfilled := replaceAll_blocks (hes e List.mem_cons_self) hbs
        (hsame e List.mem_cons_self) [] (by simpa using hmark)
      rw [List.nil_append, List.nil_append] at hfilled
      have hsub : ∀ q o, .hole q o ∈ bs.map (Block.fill e.1) → .hole q o ∈ bs ∧ q ≠ e.1 := by
        intro q o hmem
        obtain ⟨b, hb, heq⟩ := List.mem_map.mp hmem
        cases b with
        | text l => cases heq
        | hole q' o' =>
            rw [Block.fill] at heq
            split at heq
            · cases heq
            · rename_i hne
              cases heq
              exact ⟨hb, hne⟩
      rw [restoreChars, List.foldl_cons, hfilled, ← flatMap_original_fill e.1]
      refine ih (fun e' he' => hes e' (List.mem_cons_of_mem e he')) (hbs.fill e.1) ?_ ?_ ?_
      · intro e' he' o ho
        exact hsame e' (List.mem_cons_of_mem e he') o (hsub _ _ ho).1
      · intro q o ho
        obtain ⟨hmem, hne⟩ := hsub q o ho
        rcases List.mem_cons.mp (hall q o hmem) with heq | hmem
        · exact absurd heq hne
        · exact hmem
      · rwa [flatMap_original_fill]

end Blocks

/-! ### Masked texts -/

theorem placeholder_injective {type type' : PiiType} {n n' : UInt64}
    (h : placeholder type n = placeholder type' n') : n = n' := by
  have hchars : ∀ (type : PiiType) (n : UInt64), (placeholder type n).toList =
      ('[' :: type.placeholderTag.toList) ++ '_' :: (Nat.toDigits 10 n.toNat ++ [']']) := by
    intro type n
    have hn : (toString n).toList = Nat.toDigits 10 n.toNat := String.toList_ofList
    rw [placeholder]
    simp only [String.toList_append, hn]
    simp
  have hdigits : ∀ n : UInt64, '_' ∉ Nat.toDigits 10 n.toNat ++ [']'] := by
    intro n hmem
    rcases List.mem_append.mp hmem with hmem | hmem
    · exact absurd (List.all_eq_true.mp (all_isDigit_toDigits _) _ hmem) (by decide)
    · exact absurd hmem (by decide)
  have heq := congrArg String.toList h
  rw [hchars, hchars] at heq
  have hsame := (append_sep_inj_right (hdigits n) (hdigits n') heq).2
  rw [List.append_cancel_right_eq] at hsame
  have hvalue := congrArg (fun ds => Nat.ofDigitChars 10 ds 0) hsame
  simp only [Nat.ofDigitChars_ten_toDigits] at hvalue
  exact UInt64.toNat_inj.mp hvalue

theorem mark_placeholder (type : PiiType) (n : UInt64) :
    mark <+: (placeholder type n).toList ∧
      ∃ w, (placeholder type n).toList = '[' :: (w ++ [']']) ∧ '[' ∉ w ∧ ']' ∉ w := by
  constructor
  · have htag : ∀ type : PiiType, mark <+: '[' :: type.placeholderTag.toList := by
      intro type
      cases type <;> decide
    refine (htag type).trans ⟨'_' :: (toString n).toList ++ [']'], ?_⟩
    rw [placeholder]
    simp
  · obtain ⟨w, hw, hopen, hclose⟩ := (placeholderText type n).shape
    refine ⟨'M' :: w, hw, ?_, ?_⟩
    · simpa using hopen
    · simpa using hclose

inductive PiiPatterns.Draws (pats : PiiPatterns) :
    List Segment → List UInt64 → Masking → Masking → Prop
  | done (m : Masking) : pats.Draws [] [] m m
  | plain {text segs ns m m'} (counter : UInt64) :
      pats.Draws segs ns (pats.maskSegment counter m (.plain text)).2 m' →
      pats.Draws (.plain text :: segs) ns m m'
  | pii {matched segs n ns m m'} :
      pats.Draws segs ns (pats.maskSegment n m (.pii matched)).2 m' →
      pats.Draws (.pii matched :: segs) (n :: ns) m m'

def Segment.matched : Segment → Option String
  | .plain _ => none
  | .pii text => some text

def PiiPatterns.placeholders (pats : PiiPatterns) (segs : List Segment) (ns : List UInt64) :
    List String :=
  (segs.filterMap Segment.matched).zipWith (fun s n => placeholder (pats.classifyPii s) n) ns

def withPlaceholders : List Segment → List String → Option String
  | [], [] => some ""
  | .plain text :: segs, ps => (withPlaceholders segs ps).map (text ++ ·)
  | .pii _ :: segs, p :: ps => (withPlaceholders segs ps).map (p ++ ·)
  | _, _ => none

/-- The masked text, with what its parts stand for. -/
def PiiPatterns.blocks (pats : PiiPatterns) : List Segment → List UInt64 → List Block
  | .plain text :: segs, ns => .text text.toList :: pats.blocks segs ns
  | .pii s :: segs, n :: ns =>
      .hole (placeholder (pats.classifyPii s) n).toList s.toList :: pats.blocks segs ns
  | _, _ => []

section Masked

variable {pats : PiiPatterns} {segs : List Segment} {ns : List UInt64} {m m' : Masking}

/-- A call that nobody interrupts draws consecutive numbers. -/
theorem PiiPatterns.draws_foldl (pats : PiiPatterns) (segs : List Segment) (counter : UInt64)
    (m : Masking) :
    pats.Draws segs ((List.range (segs.filterMap Segment.matched).length).map
        fun k => counter + .ofNat k) m
      (segs.foldl (fun acc seg => pats.maskSegment acc.1 acc.2 seg) (counter, m)).2 := by
  induction segs generalizing counter m with
  | nil => exact .done m
  | cons seg segs ih =>
      cases seg with
      | plain text => exact .plain counter (ih counter _)
      | pii matched =>
          have hnext := ih (counter + 1) (pats.maskSegment counter m (.pii matched)).2
          have hnumbers : (List.range ((Segment.pii matched :: segs).filterMap
              Segment.matched).length).map (fun k => counter + .ofNat k) =
              counter :: (List.range (segs.filterMap Segment.matched).length).map
                fun k => counter + 1 + .ofNat k := by
            have hmatched : (Segment.pii matched :: segs).filterMap Segment.matched =
                matched :: segs.filterMap Segment.matched := rfl
            rw [hmatched, List.length_cons, List.range_succ_eq_map, List.map_cons, List.map_map]
            congr 1
            · simp
            · refine List.map_congr_left fun k _ => ?_
              rw [Function.comp_apply, Nat.succ_eq_add_one, Nat.add_comm, UInt64.ofNat_add,
                add_assoc]
              rfl
          rw [hnumbers]
          exact .pii hnext

theorem PiiPatterns.Draws.result (h : pats.Draws segs ns m m') :
    m'.result.toList = m.result.toList ++ (pats.blocks segs ns).flatMap Block.chars ∧
      (withPlaceholders segs (pats.placeholders segs ns)).map (m.result ++ ·) =
        some m'.result := by
  induction h with
  | done m => simp [PiiPatterns.blocks, PiiPatterns.placeholders, withPlaceholders]
  | @plain text segs ns m m' counter _ ih =>
      obtain ⟨hchars, hfilled⟩ := ih
      constructor
      · rw [hchars, PiiPatterns.maskSegment, PiiPatterns.blocks]
        simp [Block.chars]
      · have hsame : pats.placeholders (.plain text :: segs) ns = pats.placeholders segs ns := rfl
        rw [hsame, withPlaceholders, ← hfilled, Option.map_map, PiiPatterns.maskSegment]
        congr 1
        funext s
        simp [String.append_assoc]
  | @pii matched segs n ns m m' _ ih =>
      obtain ⟨hchars, hfilled⟩ := ih
      constructor
      · rw [hchars, PiiPatterns.maskSegment, PiiPatterns.blocks]
        simp [Block.chars]
      · have hsame : pats.placeholders (.pii matched :: segs) (n :: ns) =
            placeholder (pats.classifyPii matched) n :: pats.placeholders segs ns := rfl
        rw [hsame, withPlaceholders, ← hfilled, Option.map_map, PiiPatterns.maskSegment]
        congr 1
        funext s
        simp [String.append_assoc]

theorem PiiPatterns.Draws.original (h : pats.Draws segs ns m m') :
    (pats.blocks segs ns).flatMap Block.original =
      (String.join (segs.map Segment.text)).toList := by
  induction h with
  | done m => rfl
  | plain counter _ ih =>
      rw [PiiPatterns.blocks, List.flatMap_cons, ih]
      simp [Block.original, Segment.text, String.join_cons]
  | pii _ ih =>
      rw [PiiPatterns.blocks, List.flatMap_cons, ih]
      simp [Block.original, Segment.text, String.join_cons]

theorem PiiPatterns.hole_mem_blocks {q o : List Char} (h : .hole q o ∈ pats.blocks segs ns) :
    ∃ type, ∃ n ∈ ns, q = (placeholder type n).toList := by
  induction segs, ns using PiiPatterns.blocks.induct with
  | case1 text segs ns ih =>
      rw [PiiPatterns.blocks, List.mem_cons] at h
      rcases h with h | h
      · cases h
      · exact ih h
  | case2 s segs n ns ih =>
      rw [PiiPatterns.blocks, List.mem_cons] at h
      rcases h with h | h
      · cases h
        exact ⟨_, n, List.mem_cons_self, rfl⟩
      · obtain ⟨type, n', hn', hq⟩ := ih h
        exact ⟨type, n', List.mem_cons_of_mem n hn', hq⟩
  | case3 segs ns hplain hpii =>
      rw [PiiPatterns.blocks] at h
      · cases h
      · exact hplain
      · exact hpii

theorem PiiPatterns.marked_blocks (pats : PiiPatterns) (segs : List Segment) (ns : List UInt64) :
    Marked (pats.blocks segs ns) := by
  intro q o hmem
  obtain ⟨type, n, -, rfl⟩ := PiiPatterns.hole_mem_blocks hmem
  exact mark_placeholder type n

/-- A placeholder with a number that is not drawn keeps its value. -/
theorem PiiPatterns.Draws.lookup_of_notMem (h : pats.Draws segs ns m m') {type : PiiType}
    {n : UInt64} (hn : n ∉ ns) :
    m'.map.lookup (placeholder type n) = m.map.lookup (placeholder type n) := by
  induction h with
  | done m => rfl
  | plain counter _ ih => exact ih hn
  | pii _ ih =>
      rw [List.mem_cons, not_or] at hn
      rw [ih hn.2]
      exact AList.lookup_insert_ne fun heq => hn.1 (placeholder_injective heq)

theorem PiiPatterns.Draws.lookup (h : pats.Draws segs ns m m') (hns : ns.Nodup)
    {q o : List Char} (hmem : .hole q o ∈ pats.blocks segs ns) :
    m'.map.lookup (.ofList q) = some (.ofList o) := by
  induction h with
  | done m => cases hmem
  | plain counter _ ih =>
      rw [PiiPatterns.blocks, List.mem_cons] at hmem
      rcases hmem with hmem | hmem
      · cases hmem
      · exact ih hns hmem
  | pii hdraws ih =>
      rw [List.nodup_cons] at hns
      rw [PiiPatterns.blocks, List.mem_cons] at hmem
      rcases hmem with hmem | hmem
      · cases hmem
        rw [String.ofList_toList, String.ofList_toList, hdraws.lookup_of_notMem hns.1]
        exact AList.lookup_insert _
      · exact ih hns.2 hmem

theorem PiiPatterns.Draws.masks (h : pats.Draws segs ns m m') : pats.Masks segs m m' := by
  induction h with
  | done m => exact .done m
  | plain counter _ ih => exact .segment counter _ ih
  | @pii _ _ n _ _ _ _ ih => exact .segment n _ ih

/-- Restoration undoes masking, whichever numbers were drawn. -/
theorem PiiPatterns.Draws.restore {text : String} (hmark : ¬mark <:+: text.toList)
    (h : pats.Draws (pats.segments text) ns .start m) (hns : ns.Nodup)
    (iter : Shuffle (Σ _ : String, String)) :
    Worker.restore iter m.result m.map = text := by
  have htext : (pats.blocks (pats.segments text) ns).flatMap Block.original = text.toList := by
    rw [h.original, pats.segments_text]
  have hresult : m.result.toList =
      (pats.blocks (pats.segments text) ns).flatMap Block.chars := by
    rw [h.result.1]
    rfl
  rw [restore_eq, hresult, restoreChars_blocks ?_ (pats.marked_blocks _ _) ?_ ?_ (by rwa [htext]),
    htext, String.ofList_toList]
  · intro e he
    obtain ⟨entry, hentry, rfl⟩ := List.mem_map.mp he
    rcases h.masks.entries entry (iter.mem_order.mp hentry) with hstart | ⟨type, n, hkey, -⟩
    · exact absurd hstart List.not_mem_nil
    · show mark <+: entry.1.toList ∧ _
      rw [hkey]
      exact mark_placeholder type n
  · intro e he o ho
    obtain ⟨entry, hentry, rfl⟩ := List.mem_map.mp he
    have hvalue := h.lookup hns ho
    rw [String.ofList_toList] at hvalue
    have hentry' : m.map.lookup entry.1 = some entry.2 :=
      AList.mem_lookup_iff.mpr (iter.mem_order.mp hentry)
    rw [hentry'] at hvalue
    rw [Option.some.inj hvalue, String.toList_ofList]
  · intro q o ho
    have hvalue := AList.mem_lookup_iff.mp (h.lookup hns ho)
    refine List.mem_map.mpr ⟨(q, o), List.mem_map.mpr ⟨_, iter.mem_order.mpr hvalue, ?_⟩, rfl⟩
    simp

theorem PiiPatterns.nodup_placeholders (hns : ns.Nodup) (segs : List Segment) :
    (pats.placeholders segs ns).Nodup := by
  rw [PiiPatterns.placeholders]
  generalize segs.filterMap Segment.matched = l
  induction l generalizing ns with
  | nil => exact List.nodup_nil
  | cons s l ih =>
      cases ns with
      | nil => exact List.nodup_nil
      | cons n ns =>
          rw [List.nodup_cons] at hns
          rw [List.zipWith_cons_cons, List.nodup_cons]
          refine ⟨fun hmem => ?_, ih hns.2⟩
          obtain ⟨i, hi, heq⟩ := List.mem_iff_getElem.mp hmem
          rw [List.getElem_zipWith] at heq
          exact hns.1 (placeholder_injective heq ▸ List.getElem_mem _)

theorem nodup_numbers {counter : UInt64} {k : ℕ} (h : counter.toNat + k ≤ 2 ^ 64) :
    ((List.range k).map fun i => counter + .ofNat i).Nodup := by
  refine List.Nodup.map_on ?_ List.nodup_range
  intro i hi j hj heq
  rw [List.mem_range] at hi hj
  have hsame := UInt64.toNat_inj.mpr (add_left_cancel heq)
  rw [UInt64.toNat_ofNat', UInt64.toNat_ofNat', Nat.mod_eq_of_lt (by omega),
    Nat.mod_eq_of_lt (by omega)] at hsame
  exact hsame

end Masked

/-- Masking is reversible: for a text without the beginning of a placeholder
and numbers that do not wrap around, restoration in any order of the map gives
the text back, and the masked text is the text with placeholders in the places
of the matches, no two of which are the same. -/
theorem mask_reversible (pats : PiiPatterns) (text : String) (counter : UInt64)
    (hmark : ¬mark <:+: text.toList)
    (hcounter : counter.toNat + ((pats.segments text).filterMap Segment.matched).length ≤ 2 ^ 64)
    (iter : Shuffle (Σ _ : String, String)) :
    restore iter (pats.mask counter text).2.result (pats.mask counter text).2.map = text ∧
      ∃ ps : List String, ps.Nodup ∧ (∀ p ∈ ps, ∃ type n, p = placeholder type n) ∧
        withPlaceholders (pats.segments text) ps = some (pats.mask counter text).2.result := by
  have hdraws := pats.draws_foldl (pats.segments text) counter .start
  have hnodup := nodup_numbers hcounter
  refine ⟨hdraws.restore hmark hnodup iter, pats.placeholders (pats.segments text) _,
    PiiPatterns.nodup_placeholders hnodup _, ?_, ?_⟩
  · intro p hp
    obtain ⟨i, hi, heq⟩ := List.mem_iff_getElem.mp hp
    exact ⟨_, _, heq.symm.trans (List.getElem_zipWith ..)⟩
  · have hfilled := hdraws.result.2
    simpa [PiiPatterns.mask, Masking.start] using hfilled

/-- Cut a text at spaces, and take runs of seven digits for matches. -/
def cutNumbers (word : List Char) : List Char → List Segment
  | [] => [cutWord word]
  | ' ' :: s => cutWord word :: .plain " " :: cutNumbers [] s
  | c :: s => cutNumbers (word ++ [c]) s
where
  cutWord (word : List Char) : Segment :=
    if word.length = 7 ∧ word.all Char.isDigit then .pii (.ofList word) else .plain (.ofList word)

theorem cutNumbers_text (word s : List Char) :
    String.join ((cutNumbers word s).map Segment.text) = .ofList (word ++ s) := by
  have hword : ∀ w, (cutNumbers.cutWord w).text = .ofList w := by
    intro w
    unfold cutNumbers.cutWord
    split <;> rfl
  induction word, s using cutNumbers.induct with
  | case1 word => simp [cutNumbers, String.join_cons, hword]
  | case2 word s ih =>
      have hspace : (Segment.plain " ").text = " " := rfl
      simp [cutNumbers, String.join_cons, hword, ih, hspace]
  | case3 word c s hc ih =>
      rw [cutNumbers, ih]
      · simp
      · exact hc

/-- A matcher of numbers of seven digits, all of them phone numbers. -/
def numberPatterns : PiiPatterns where
  segments s := cutNumbers [] s.toList
  segments_text s := by rw [cutNumbers_text, List.nil_append, String.ofList_toList]
  email _ := false
  financial _ := false
  identity _ := false
  phone _ := true

/-- Two numbers in a text, the second of which is looked up first. -/
theorem mask_reversible_two :
    restore (.last fun e => e.1 == "[MASKED_PHONE_8]")
      (numberPatterns.mask 7 "call 5550100 or 5550199").2.result
      (numberPatterns.mask 7 "call 5550100 or 5550199").2.map = "call 5550100 or 5550199" ∧
    (numberPatterns.mask 7 "call 5550100 or 5550199").2.result =
      "call [MASKED_PHONE_7] or [MASKED_PHONE_8]" :=
  ⟨(mask_reversible numberPatterns "call 5550100 or 5550199" 7 (by decide +kernel)
    (by decide +kernel) _).1, by decide +kernel⟩

end SereinGateway.Worker

import Mathlib
import SereinGateway.Worker.Restoration

/-!
Placeholders that are written with escapes.

A literal may stand for a placeholder and not have it written out, and then a
replacement in the text passes over it. From there on the text is behind what
the literal stands for: it keeps a bracket that is never removed any more,
because a block that is not a placeholder written out, or that contains such a
block, is never replaced. So the two are equal in the end only if every
placeholder was written out: `decode_restoreItems_iff`.
-/

namespace SereinGateway.Worker

open SereinGateway.Lib
open SereinGateway.Lib.JsonText

/-- A block of a literal that no replacement changes. -/
structure Inert (block : List Item) : Prop where
  opens : ∃ i rest, block = i :: rest ∧ i.char = '['
  copied : ∀ pat new items, PlaceholderText pat →
    replaceItems pat new (block ++ items) = block ++ replaceItems pat new items

/-- The text is what the literal stands for, except that some blocks are
replaced in the text only. -/
inductive Aligned : List Item → List Char → Prop
  | nil : Aligned [] []
  | same (i : Item) {items : List Item} {text : List Char} :
      Aligned items text → Aligned (i :: items) (i.char :: text)
  | block {b items : List Item} {t text : List Char} :
      Inert b → t ≠ [] → '[' ∉ t → ']' ∉ t → Aligned items text → Aligned (b ++ items) (t ++ text)

section Aligned

variable {pat new text : List Char} {items : List Item}

theorem Aligned.refl (items : List Item) : Aligned items (decode items) := by
  induction items with
  | nil => exact .nil
  | cons i items ih => exact .same i ih

theorem Aligned.append_lit (h : Aligned items text) (t : List Char) :
    Aligned (t.map Item.lit ++ items) (t ++ text) := by
  induction t with
  | nil => exact h
  | cons c t ih => exact .same (.lit c) ih

theorem Aligned.eq_nil (h : Aligned items []) : items = [] := by
  generalize htext : ([] : List Char) = text at h
  cases h with
  | nil => rfl
  | same i h => cases htext
  | block _ hne => exact absurd (List.append_eq_nil_iff.mp htext.symm).1 hne

/-- What is written out without a bracket is also in the text. -/
theorem Aligned.prefix_of_lit (h : Aligned items text) {v : List Char} (hopen : '[' ∉ v)
    (hstarts : v.map Item.lit <+: items) : v <+: text := by
  induction h generalizing v with
  | nil =>
      obtain rfl : v = [] := by simpa using hstarts
      exact List.nil_prefix
  | same i _ ih =>
      cases v with
      | nil => exact List.nil_prefix
      | cons c v =>
          rw [List.map_cons, List.cons_prefix_cons] at hstarts
          obtain ⟨rfl, hrest⟩ := hstarts
          rw [List.mem_cons, not_or] at hopen
          exact List.cons_prefix_cons.mpr ⟨rfl, ih hopen.2 hrest⟩
  | block hinert _ _ _ _ _ =>
      cases v with
      | nil => exact List.nil_prefix
      | cons c v =>
          obtain ⟨i, rest, rfl, hi⟩ := hinert.opens
          rw [List.map_cons, List.cons_append, List.cons_prefix_cons] at hstarts
          obtain ⟨rfl, -⟩ := hstarts
          rw [List.mem_cons, not_or] at hopen
          exact absurd hi.symm hopen.1

theorem not_lit_starts (hpat : PlaceholderText pat) {i : Item} (hi : i.char ≠ '[') :
    ¬pat.map Item.lit <+: i :: items := by
  obtain ⟨w, rfl, -⟩ := hpat.shape
  rw [List.map_cons, List.cons_prefix_cons]
  rintro ⟨rfl, -⟩
  exact hi rfl

/-- Up to a closing bracket: no replacement changes the items before it, and
they are the text before it if they are written out without a bracket. -/
theorem Aligned.cut (h : Aligned items text) {w rest : List Char} (hopen : '[' ∉ w)
    (hclose : ']' ∉ w) (htext : text = w ++ ']' :: rest) :
    ∃ inner i items', items = inner ++ i :: items' ∧ i.char = ']' ∧ Aligned items' rest ∧
      (∀ pat new x, PlaceholderText pat →
        replaceItems pat new (inner ++ x) = inner ++ replaceItems pat new x) ∧
      ∀ v x, '[' ∉ v → ']' ∉ v → (v ++ [']']).map Item.lit <+: inner ++ i :: x →
        inner = w.map Item.lit ∧ v = w ∧ i = .lit ']' := by
  induction h generalizing w with
  | nil => simp at htext
  | same i h ih =>
      cases w with
      | nil =>
          obtain ⟨hi, rfl⟩ := List.cons.inj htext
          refine ⟨[], i, _, rfl, hi, h, fun _ _ _ _ => rfl, fun v x _ hv hstarts => ?_⟩
          cases v with
          | nil =>
              rw [List.nil_append, List.nil_append, List.map_cons, List.cons_prefix_cons] at hstarts
              exact ⟨rfl, rfl, hstarts.1.symm⟩
          | cons c v =>
              rw [List.cons_append, List.map_cons, List.nil_append,
                List.cons_prefix_cons] at hstarts
              obtain ⟨rfl, -⟩ := hstarts
              rw [List.mem_cons, not_or] at hv
              exact absurd hi.symm hv.1
      | cons d w =>
          obtain ⟨rfl, htext'⟩ := List.cons.inj htext
          rw [List.mem_cons, not_or] at hopen hclose
          obtain ⟨inner, j, items', rfl, hj, haligned, hcopied, hlit⟩ :=
            ih hopen.2 hclose.2 htext'
          refine ⟨i :: inner, j, items', rfl, hj, haligned, fun pat new x hpat => ?_,
            fun v x hv hv' hstarts => ?_⟩
          · have hi : ¬pat.map Item.lit <+: i :: (inner ++ x) :=
              not_lit_starts hpat (Ne.symm hopen.1)
            rw [List.cons_append, replaceItems, replaceAll_cons hi, ← replaceItems,
              hcopied pat new x hpat, List.cons_append]
          · cases v with
            | nil =>
                rw [List.nil_append, List.map_cons, List.cons_append,
                  List.cons_prefix_cons] at hstarts
                obtain ⟨rfl, -⟩ := hstarts
                exact absurd rfl hclose.1
            | cons c v =>
                rw [List.cons_append, List.map_cons, List.cons_append,
                  List.cons_prefix_cons] at hstarts
                obtain ⟨rfl, hrest⟩ := hstarts
                rw [List.mem_cons, not_or] at hv hv'
                obtain ⟨rfl, rfl, rfl⟩ := hlit v x hv.2 hv'.2 hrest
                exact ⟨rfl, rfl, rfl⟩
  | block hinert hne hopen' hclose' h ih =>
      rename_i b items t text
      obtain ⟨w', rfl, hrest⟩ : ∃ w', w = t ++ w' ∧ text = w' ++ ']' :: rest := by
        rcases List.append_eq_append_iff.mp htext with ⟨w', rfl, hw'⟩ | ⟨c', rfl, hc'⟩
        · exact ⟨w', rfl, hw'⟩
        · cases c' with
          | nil => exact ⟨[], by simp, by simpa using hc'.symm⟩
          | cons c c' =>
              obtain ⟨rfl, -⟩ := List.cons.inj hc'
              simp at hclose'
      rw [List.mem_append, not_or] at hopen hclose
      obtain ⟨inner, j, items', rfl, hj, haligned, hcopied, hlit⟩ := ih hopen.2 hclose.2 hrest
      refine ⟨b ++ inner, j, items', by simp, hj, haligned, fun pat new x hpat => ?_,
        fun v x hv _ hstarts => ?_⟩
      · rw [List.append_assoc, hinert.copied pat new _ hpat, hcopied pat new x hpat,
          List.append_assoc]
      · obtain ⟨i, rest', rfl, hi⟩ := hinert.opens
        cases v with
        | nil =>
            rw [List.nil_append, List.map_cons, List.cons_append, List.cons_append,
              List.cons_prefix_cons] at hstarts
            obtain ⟨rfl, -⟩ := hstarts
            cases hi
        | cons c v =>
            rw [List.cons_append, List.map_cons, List.cons_append, List.cons_append,
              List.cons_prefix_cons] at hstarts
            obtain ⟨rfl, -⟩ := hstarts
            rw [List.mem_cons, not_or] at hv
            exact absurd hi.symm hv.1

/-- A placeholder in the text is written out in the literal, or stands for a
block that no replacement changes. -/
theorem Aligned.cut_placeholder (hpat : PlaceholderText pat) {rest : List Char}
    (h : Aligned items (pat ++ rest)) :
    ∃ b items', items = b ++ items' ∧ Aligned items' rest ∧
      (b = pat.map Item.lit ∨ Inert b) := by
  obtain ⟨w, rfl, hopen, hclose⟩ := hpat.shape
  generalize htext : '[' :: 'M' :: (w ++ [']']) ++ rest = text at h
  cases h with
  | nil => cases htext
  | block _ hne hopen' =>
      rename_i b items t text
      obtain ⟨c, t, rfl⟩ := List.exists_cons_of_ne_nil hne
      obtain ⟨rfl, -⟩ := List.cons.inj htext
      simp at hopen'
  | same i h =>
      obtain ⟨hi, htext'⟩ := List.cons.inj htext
      have hopen' : '[' ∉ 'M' :: w := by simpa using hopen
      have hclose' : ']' ∉ 'M' :: w := by simpa using hclose
      have htext'' : _ = ('M' :: w) ++ ']' :: rest := htext'.symm.trans (by simp)
      obtain ⟨inner, j, items', rfl, hj, haligned, hcopied, hlit⟩ :=
        h.cut hopen' hclose' htext''
      refine ⟨i :: (inner ++ [j]), items', by simp, haligned, ?_⟩
      by_cases hwritten : i = .lit '[' ∧ inner = ('M' :: w).map Item.lit ∧ j = .lit ']'
      · left
        obtain ⟨rfl, rfl, rfl⟩ := hwritten
        simp
      · right
        refine ⟨⟨i, _, rfl, hi.symm⟩, fun pat' new items hpat' => ?_⟩
        -- A placeholder that begins with the bracket would be the whole block.
        have hi' : ¬pat'.map Item.lit <+: i :: (inner ++ j :: items) := by
          obtain ⟨v, rfl, hv, hv'⟩ := hpat'.shape
          rw [List.map_cons, List.cons_prefix_cons]
          rintro ⟨rfl, hstarts⟩
          obtain ⟨hinner, -, hj'⟩ := hlit ('M' :: v) items (by simpa using hv) (by simpa using hv')
            (by simpa using hstarts)
          exact hwritten ⟨rfl, hinner, hj'⟩
        have hj' : ¬pat'.map Item.lit <+: j :: items :=
          not_lit_starts hpat' (by rw [hj]; decide)
        have hblock : i :: (inner ++ [j]) ++ items = i :: (inner ++ j :: items) := by simp
        rw [hblock, replaceItems, replaceAll_cons hi', ← replaceItems,
          hcopied pat' new _ hpat', replaceItems, replaceAll_cons hj', ← replaceItems]
        simp

theorem decode_append (a b : List Item) : decode (a ++ b) = decode a ++ decode b :=
  List.map_append

theorem Inert.count_pos {b : List Item} (h : Inert b) : 0 < (decode b).count '[' := by
  obtain ⟨i, rest, rfl, hi⟩ := h.opens
  rw [List.count_pos_iff, decode, List.map_cons, hi]
  exact List.mem_cons_self

theorem PlaceholderText.count (h : PlaceholderText pat) : pat.count '[' = 1 := by
  obtain ⟨w, rfl, hopen, -⟩ := h.shape
  have hw : w.count '[' = 0 := List.count_eq_zero.mpr hopen
  simp [hw]

theorem PiiText.count (h : PiiText new) : new.count '[' = 0 :=
  List.count_eq_zero.mpr fun hmem => (h.plain _ hmem).2.2.1 rfl

/-- A replacement keeps the two aligned and takes at least as many brackets
from the text as from the literal. -/
theorem Aligned.replace (hpat : PlaceholderText pat) (hnew : PiiText new)
    (h : Aligned items text) :
    Aligned (replaceItems pat new items) (replaceAll pat new text) ∧
      (replaceAll pat new text).count '[' + (decode items).count '[' ≤
        text.count '[' + (decode (replaceItems pat new items)).count '[' := by
  have hne : pat.map Item.lit ≠ [] := by simpa using hpat.ne_nil
  induction hn : items.length using Nat.strong_induction_on generalizing items text with
  | _ n ih =>
      by_cases hfound : pat <+: text
      · obtain ⟨rest, rfl⟩ := hfound
        obtain ⟨b, items', rfl, haligned, hb⟩ := h.cut_placeholder hpat
        have hshorter : items'.length < n := by
          have hpos : b ≠ [] := by
            rcases hb with rfl | hb
            · exact hne
            · obtain ⟨i, rest', rfl, -⟩ := hb.opens
              exact List.cons_ne_nil _ _
          rw [← hn, List.length_append]
          have := List.length_pos_iff.mpr hpos
          omega
        obtain ⟨ihaligned, ihcount⟩ := ih _ hshorter haligned rfl
        have hcount := hpat.count
        have hcount' := hnew.count
        rw [replaceAll_append hpat.ne_nil]
        rcases hb with rfl | hb
        · rw [replaceItems, replaceAll_append hne, ← replaceItems]
          refine ⟨ihaligned.append_lit new, ?_⟩
          simp only [decode_append, decode_lit, List.count_append]
          omega
        · rw [hb.copied pat new items' hpat]
          obtain ⟨c, t, rfl, -⟩ := hnew.first
          refine ⟨.block hb (List.cons_ne_nil c t) (fun hmem => (hnew.plain _ hmem).2.2.1 rfl)
            (fun hmem => (hnew.plain _ hmem).2.2.2.1 rfl) ihaligned, ?_⟩
          simp only [decode_append, List.count_append]
          omega
      · cases h with
        | nil => exact ⟨.nil, le_refl _⟩
        | same i h =>
            rename_i items text
            obtain ⟨ihaligned, ihcount⟩ := ih items.length (by simp [← hn]) h rfl
            have hlit : ¬pat.map Item.lit <+: i :: items := by
              obtain ⟨w, rfl, hopen, -⟩ := hpat.shape
              rw [List.map_cons, List.cons_prefix_cons]
              rintro ⟨rfl, hrest⟩
              have hrest' : 'M' :: (w ++ [']']) <+: text :=
                h.prefix_of_lit (by simpa using hopen) hrest
              exact hfound (List.cons_prefix_cons.mpr ⟨rfl, hrest'⟩)
            rw [replaceAll_cons hfound, replaceItems, replaceAll_cons hlit, ← replaceItems]
            refine ⟨.same i ihaligned, ?_⟩
            simp only [decode, List.map_cons, List.count_cons] at ihcount ⊢
            omega
        | block hinert hne' hopen hclose h =>
            rename_i b items t text
            have hshorter : items.length < n := by
              obtain ⟨i, rest', rfl, -⟩ := hinert.opens
              simp only [← hn, List.cons_append, List.length_cons, List.length_append]
              omega
            obtain ⟨ihaligned, ihcount⟩ := ih _ hshorter h rfl
            obtain ⟨w, hw, -⟩ := hpat.shape
            rw [replaceAll_append_of_head hw hopen, hinert.copied pat new items hpat]
            refine ⟨.block hinert hne' hopen hclose ihaligned, ?_⟩
            simp only [decode_append, List.count_append]
            omega

theorem Aligned.count_restore_lt {es : Entries} (hes : Issued es) (h : Aligned items text)
    (hlt : text.count '[' < (decode items).count '[') :
    (restoreChars es text).count '[' < (decode (restoreItems es items)).count '[' := by
  induction es generalizing items text with
  | nil => exact hlt
  | cons e es ih =>
      obtain ⟨hpat, hnew⟩ := hes e List.mem_cons_self
      obtain ⟨haligned, hcount⟩ := h.replace hpat hnew
      have hlt' : (replaceAll e.1 e.2 text).count '[' <
          (decode (replaceItems e.1 e.2 items)).count '[' := by omega
      exact ih hes.tail haligned hlt'

theorem count_lt_of_escaped (hpat : PlaceholderText pat) (hnew : PiiText new)
    {pre mid post : List Item} (hmid : decode mid = pat) (hwritten : mid ≠ pat.map Item.lit) :
    (replaceAll pat new (decode (pre ++ mid ++ post))).count '[' <
      (decode (replaceItems pat new (pre ++ mid ++ post))).count '[' := by
  have hne : pat.map Item.lit ≠ [] := by simpa using hpat.ne_nil
  have hinert : Inert mid := by
    have haligned : Aligned mid (pat ++ []) := by
      rw [List.append_nil, ← hmid]
      exact .refl mid
    obtain ⟨b, items', rfl, hrest, hb⟩ := haligned.cut_placeholder hpat
    rw [hrest.eq_nil, List.append_nil] at hwritten ⊢
    exact hb.resolve_left hwritten
  have hitems : replaceItems pat new (pre ++ mid ++ post) =
      replaceItems pat new pre ++ (mid ++ replaceItems pat new post) := by
    rw [← hinert.copied pat new post hpat]
    obtain ⟨i, rest, rfl, hi⟩ := hinert.opens
    have htail : i ∉ (pat.map Item.lit).tail := by
      obtain ⟨w, rfl, hopen, -⟩ := hpat.shape
      rw [List.map_cons, List.tail_cons]
      intro hmem
      obtain ⟨c, hc, rfl⟩ := List.mem_map.mp hmem
      obtain rfl : c = '[' := hi
      simp [hopen] at hc
    rw [List.append_assoc, List.cons_append, replaceItems,
      replaceAll_append_of_notMem_tail hne htail]
    rfl
  have htext : replaceAll pat new (decode (pre ++ mid ++ post)) =
      replaceAll pat new (decode pre) ++ (new ++ replaceAll pat new (decode post)) := by
    rw [← replaceAll_append hpat.ne_nil, decode_append, decode_append, hmid]
    obtain ⟨w, rfl, hopen, -⟩ := hpat.shape
    have htail : '[' ∉ 'M' :: (w ++ [']']) := by simpa using hopen
    rw [List.append_assoc, List.cons_append]
    exact replaceAll_append_of_notMem_tail (List.cons_ne_nil _ _) htail _ _
  obtain ⟨-, hpre⟩ := (Aligned.refl pre).replace hpat hnew
  obtain ⟨-, hpost⟩ := (Aligned.refl post).replace hpat hnew
  have hpos := hinert.count_pos
  have hzero := hnew.count
  rw [hitems, htext]
  simp only [decode_append, List.count_append]
  omega

end Aligned

/-- Restoring a literal restores what it stands for exactly if every
placeholder is written out when its turn comes. -/
theorem decode_restoreItems_iff {es : Entries} (hes : Issued es) {items : List Item} :
    decode (restoreItems es items) = restoreChars es (decode items) ↔
      WrittenThroughout es items := by
  constructor
  · intro h
    induction es generalizing items with
    | nil => trivial
    | cons e es ih =>
        obtain ⟨hpat, hnew⟩ := hes e List.mem_cons_self
        have hwritten : ∀ pre mid post, items = pre ++ mid ++ post → decode mid = e.1 →
            mid = e.1.map Item.lit := by
          rintro pre mid post rfl hmid
          by_contra hnot
          obtain ⟨haligned, -⟩ := (Aligned.refl (pre ++ mid ++ post)).replace hpat hnew
          have hlt := haligned.count_restore_lt hes.tail (count_lt_of_escaped hpat hnew hmid hnot)
          exact absurd (congrArg (List.count '[') h) (Nat.ne_of_gt hlt)
        refine ⟨hwritten, ih hes.tail ?_⟩
        rw [decode_replaceItems hpat hwritten]
        exact h
  · exact decode_restoreItems hes

end SereinGateway.Worker

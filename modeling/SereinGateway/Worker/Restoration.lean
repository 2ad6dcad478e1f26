import Mathlib
import SereinGateway.Interfaces.PayloadText
import SereinGateway.Interfaces.Sanitized
import SereinGateway.Worker.PiiPattern

/-!
Restoration of personal data in the text of an answer.

`restore` replaces placeholders in the text of the answer before it is parsed.
In a text that reads as JSON a placeholder can only stand in a string literal,
and there the replacement acts on the characters that are written out. So the
restored text is the old one with new contents of its literals, and it is read
like the old one unless a control character got into a literal.
-/

namespace SereinGateway.Worker

open SereinGateway.Lib
open SereinGateway.Lib.JsonText
open SereinGateway.Interfaces

/-! ### Placeholders -/

structure PlaceholderText (p : List Char) : Prop where
  shape : ∃ w, p = '[' :: 'M' :: (w ++ [']']) ∧ '[' ∉ w ∧ ']' ∉ w
  plain : ∀ c ∈ p, c ≠ '"' ∧ c ≠ '\\' ∧ c ≠ '`' ∧ isWhitespace c = false ∧ 32 ≤ c.toNat

theorem placeholderText (type : PiiType) (idx : UInt64) :
    PlaceholderText (placeholder type idx).toList := by
  have htag : ∀ type : PiiType, ∃ t, type.placeholderTag.toList = 'M' :: t ∧
      t.all (fun c => c.isAlpha || c == '_') = true := by
    intro type
    cases type with
    | email => exact ⟨"ASKED_EMAIL".toList, rfl, by decide⟩
    | phone => exact ⟨"ASKED_PHONE".toList, rfl, by decide⟩
    | identity => exact ⟨"ASKED_IDENTITY".toList, rfl, by decide⟩
    | financial => exact ⟨"ASKED_FINANCIAL".toList, rfl, by decide⟩
  have hidx : (toString idx).toList = Nat.toDigits 10 idx.toNat := String.toList_ofList
  obtain ⟨t, ht, hword⟩ := htag type
  have hchars : (placeholder type idx).toList =
      '[' :: 'M' :: ((t ++ '_' :: Nat.toDigits 10 idx.toNat) ++ [']']) := by
    rw [placeholder]
    simp only [String.toList_append, ht, hidx]
    simp
  have hinner : ∀ c ∈ t ++ '_' :: Nat.toDigits 10 idx.toNat,
      48 ≤ c.toNat ∧ c.toNat ≤ 57 ∨ 65 ≤ c.toNat ∧ c.toNat ≤ 90 ∨ c.toNat = 95 ∨
        97 ≤ c.toNat ∧ c.toNat ≤ 122 := by
    intro c hc
    rcases List.mem_append.mp hc with hc | hc
    · have hletter := List.all_eq_true.mp hword c hc
      rw [Bool.or_eq_true, beq_iff_eq] at hletter
      rcases hletter with halpha | rfl
      · have := range_of_isAlpha halpha
        omega
      · decide
    · rcases List.mem_cons.mp hc with rfl | hc
      · decide
      · have := range_of_isDigit (List.all_eq_true.mp (all_isDigit_toDigits _) c hc)
        omega
  have hne : ∀ c ∈ t ++ '_' :: Nat.toDigits 10 idx.toNat, ∀ d : Char,
      (d.toNat < 48 ∨ 57 < d.toNat ∧ d.toNat < 65 ∨ 90 < d.toNat ∧ d.toNat < 95 ∨
        d.toNat = 96) → c ≠ d := by
    rintro c hc d hd rfl
    have := hinner c hc
    omega
  refine ⟨⟨_, hchars, fun h => hne _ h '[' (by decide) rfl, fun h => hne _ h ']' (by decide) rfl⟩,
    ?_⟩
  rw [hchars]
  intro c hc
  simp only [List.mem_cons, List.mem_append (t := [']']), List.not_mem_nil, or_false] at hc
  rcases hc with rfl | rfl | hc | rfl
  · decide
  · decide
  · refine ⟨hne c hc '"' (by decide), hne c hc '\\' (by decide), hne c hc '`' (by decide), ?_, ?_⟩
    · refine not_space_of_range (.inl ?_)
      have := hinner c hc
      omega
    · have := hinner c hc
      omega
  · decide

variable {pat new : List Char}

theorem PlaceholderText.ne_nil (h : PlaceholderText pat) : pat ≠ [] := by
  obtain ⟨w, rfl, -⟩ := h.shape
  exact List.cons_ne_nil _ _

theorem PlaceholderText.keeps (h : PlaceholderText pat) (hnew : PiiText new) : Keeps pat new where
  bracket := by
    obtain ⟨w, hw, -⟩ := h.shape
    exact ⟨_, hw⟩
  spaceless c hc := (h.plain c hc).2.2.2.1
  tick hc := (h.plain _ hc).2.2.1 rfl
  new := ⟨fun hc => (hnew.plain _ hc).2.2.2.2 rfl, hnew.first, hnew.last⟩

/-! ### Replacement in a literal -/

/-- Replacement of a placeholder where it is written out. -/
def replaceItems (pat new : List Char) (items : List Item) : List Item :=
  replaceAll (pat.map Item.lit) (new.map Item.lit) items

section Literals

variable {items : List Item}

theorem encode_append (a b : List Item) : encode (a ++ b) = encode a ++ encode b :=
  List.flatMap_append

theorem encode_cons (i : Item) (items : List Item) :
    encode (i :: items) = i.source ++ encode items := List.flatMap_cons

theorem encode_lit (l : List Char) : encode (l.map Item.lit) = l := by
  induction l with
  | nil => rfl
  | cons c l ih => rw [List.map_cons, encode_cons, ih]; rfl

theorem decode_lit (l : List Char) : decode (l.map Item.lit) = l := by
  rw [decode, List.map_map]
  exact List.map_id l

/-- A text without backslashes is written out wherever it occurs. -/
theorem lit_prefix_of_prefix_encode (hpat : '\\' ∉ pat) (hplain : ∀ i ∈ items, i.Plain)
    (h : pat <+: encode items) : pat.map Item.lit <+: items := by
  induction pat generalizing items with
  | nil => exact List.nil_prefix
  | cons p pat ih =>
      rw [List.mem_cons, not_or] at hpat
      cases items with
      | nil => simp [encode] at h
      | cons i items =>
          have hi := hplain i List.mem_cons_self
          cases i with
          | lit c =>
              obtain ⟨rfl, hrest⟩ := List.cons_prefix_cons.mp h
              rw [List.map_cons, List.cons_prefix_cons]
              exact ⟨rfl, ih hpat.2 (fun j hj => hplain j (List.mem_cons_of_mem _ hj)) hrest⟩
          | esc source c =>
              obtain ⟨body, rfl, -⟩ := hi
              rw [encode_cons, Item.source, List.cons_append, List.cons_prefix_cons] at h
              exact absurd h.1.symm hpat.1

/-- What does not contain the first character of the pattern is copied. -/
theorem replaceAll_append_of_head {c : Char} {w : List Char} (hpat : pat = c :: w) {u : List Char}
    (hu : c ∉ u) (v : List Char) : replaceAll pat new (u ++ v) = u ++ replaceAll pat new v := by
  induction u with
  | nil => rfl
  | cons d u ih =>
      rw [List.mem_cons, not_or] at hu
      have hd : ¬pat <+: d :: (u ++ v) := by
        rw [hpat, List.cons_prefix_cons]
        exact fun h => hu.1 h.1
      rw [List.cons_append, replaceAll_cons hd, ih hu.2, List.cons_append]

theorem encode_replaceItems (hpat : PlaceholderText pat) (hplain : ∀ i ∈ items, i.Plain) :
    encode (replaceItems pat new items) = replaceAll pat new (encode items) := by
  have hne : pat.map Item.lit ≠ [] := by simpa using hpat.ne_nil
  unfold replaceItems
  induction items using replaceAll_induct hne with
  | nil => rfl
  | found t ih =>
      rw [replaceAll_append hne, encode_append, encode_append, encode_lit, encode_lit,
        replaceAll_append hpat.ne_nil,
        ih fun i hi => hplain i (List.mem_append_right _ hi)]
  | copied i t hi ih =>
      have ih' := ih fun j hj => hplain j (List.mem_cons_of_mem i hj)
      rw [replaceAll_cons hi, encode_cons, encode_cons, ih']
      cases i with
      | lit c =>
          have hback : '\\' ∉ pat := fun hmem => (hpat.plain _ hmem).2.1 rfl
          have hc : ¬pat <+: encode (.lit c :: t) := fun hstarts =>
            hi (lit_prefix_of_prefix_encode hback hplain hstarts)
          exact (replaceAll_cons hc).symm
      | esc source c =>
          obtain ⟨w, hw, -⟩ := hpat.shape
          obtain ⟨body, rfl, -, hbracket, -⟩ := hplain _ List.mem_cons_self
          have hsource : '[' ∉ '\\' :: body := by simpa using hbracket
          exact (replaceAll_append_of_head hw hsource _).symm

theorem replaceItems_plain (hpat : PlaceholderText pat) (hnew : PiiText new)
    (hplain : ∀ i ∈ items, i.Plain) : ∀ i ∈ replaceItems pat new items, i.Plain := by
  have hne : pat.map Item.lit ≠ [] := by simpa using hpat.ne_nil
  intro i hi
  rcases mem_replaceAll hne hi with hi | hi
  · exact hplain i hi
  · obtain ⟨c, hc, rfl⟩ := List.mem_map.mp hi
    exact ⟨(hnew.plain c hc).1, (hnew.plain c hc).2.1⟩

/-- A literal stays clean if no control character is put in. -/
theorem replaceItems_clean_iff (hpat : PlaceholderText pat) :
    (∀ i ∈ replaceItems pat new items, i.Clean) ↔ (∀ i ∈ items, i.Clean) ∧
      (pat.map Item.lit <:+: items → ∀ c ∈ new, 32 ≤ c.toNat) := by
  have hne : pat.map Item.lit ≠ [] := by simpa using hpat.ne_nil
  constructor
  · intro hclean
    refine ⟨fun i hi => ?_, fun hoccurs c hc => ?_⟩
    · by_cases hmem : i ∈ pat.map Item.lit
      · obtain ⟨c, hc, rfl⟩ := List.mem_map.mp hmem
        exact (hpat.plain c hc).2.2.2.2
      · exact hclean i (mem_replaceAll_of_notMem hne hmem hi)
    · exact hclean (.lit c) (subset_replaceAll hne hoccurs (List.mem_map_of_mem hc))
  · rintro ⟨hclean, hnew⟩ i hi
    by_cases hoccurs : pat.map Item.lit <:+: items
    · rcases mem_replaceAll hne hi with hi | hi
      · exact hclean i hi
      · obtain ⟨c, hc, rfl⟩ := List.mem_map.mp hi
        exact hnew hoccurs c hc
    · rw [replaceItems, replaceAll_of_not_occurs hoccurs] at hi
      exact hclean i hi

end Literals

/-! ### Replacement in a text that reads as JSON -/

section Texts

variable {pieces : List Piece}

def replacePieces (pat new : List Char) (pieces : List Piece) : List Piece :=
  pieces.map (Piece.map (replaceItems pat new))

/-- A placeholder does not begin outside of a literal. -/
theorem not_prefix_render (hpat : PlaceholderText pat) (hraw : .raw 'M' ∉ pieces) :
    ¬pat <+: render pieces := by
  obtain ⟨w, rfl, -⟩ := hpat.shape
  cases pieces with
  | nil => simp [render]
  | cons p pieces =>
      cases p with
      | str items =>
          rw [render_cons, Piece.source, List.cons_append, List.cons_prefix_cons]
          exact fun h => absurd h.1 (by decide)
      | raw c =>
          rw [render_cons, Piece.source, List.singleton_append, List.cons_prefix_cons]
          rintro ⟨-, hrest⟩
          cases pieces with
          | nil => simp [render] at hrest
          | cons q pieces =>
              cases q with
              | str items =>
                  rw [render_cons, Piece.source, List.cons_append, List.cons_prefix_cons] at hrest
                  exact absurd hrest.1 (by decide)
              | raw d =>
                  rw [render_cons, Piece.source, List.singleton_append,
                    List.cons_prefix_cons] at hrest
                  exact hraw (hrest.1 ▸ List.mem_cons_of_mem _ List.mem_cons_self)

/-- The replacement acts on the literals. -/
theorem render_replacePieces (hpat : PlaceholderText pat) (hplain : ∀ p ∈ pieces, p.Plain)
    (hraw : .raw 'M' ∉ pieces) :
    render (replacePieces pat new pieces) = replaceAll pat new (render pieces) := by
  have hquote : '"' ∉ pat := fun hmem => (hpat.plain _ hmem).1 rfl
  induction pieces with
  | nil => rfl
  | cons p pieces ih =>
      have hraw' : .raw 'M' ∉ pieces := fun hmem => hraw (List.mem_cons_of_mem p hmem)
      have ih' := ih (fun q hq => hplain q (List.mem_cons_of_mem p hq)) hraw'
      rw [replacePieces, List.map_cons, render_cons, ← replacePieces, ih']
      cases p with
      | raw c =>
          have hcopied : ¬pat <+: render (.raw c :: pieces) := not_prefix_render hpat hraw
          rw [render_cons]
          exact (replaceAll_cons hcopied).symm
      | str items =>
          rw [render_cons, Piece.map, Piece.source, Piece.source,
            encode_replaceItems hpat (hplain _ List.mem_cons_self)]
          simp only [List.cons_append, List.append_assoc, List.nil_append]
          rw [replaceAll_cons (not_prefix_cons hpat.ne_nil hquote),
            replaceAll_append_cons hpat.ne_nil hquote]

/-- The pattern does not begin within a text without its first character. -/
theorem infix_of_infix_append {c : Char} {w u v : List Char} (hpat : pat = c :: w) (hu : c ∉ u)
    (h : pat <:+: u ++ v) : pat <:+: v := by
  induction u with
  | nil => exact h
  | cons d u ih =>
      rw [List.mem_cons, not_or] at hu
      rw [List.cons_append, List.infix_cons_iff] at h
      rcases h with hstarts | hoccurs
      · rw [hpat, List.cons_prefix_cons] at hstarts
        exact absurd hstarts.1 hu.1
      · exact ih hu.2 hoccurs

theorem lit_infix_iff (hpat : PlaceholderText pat) {items : List Item}
    (hplain : ∀ i ∈ items, i.Plain) :
    pat <:+: encode items ↔ pat.map Item.lit <:+: items := by
  have hback : '\\' ∉ pat := fun hmem => (hpat.plain _ hmem).2.1 rfl
  constructor
  · intro h
    induction items with
    | nil =>
        rw [encode, List.flatMap_nil, List.infix_nil] at h
        exact absurd h hpat.ne_nil
    | cons i items ih =>
        have ih' := ih fun j hj => hplain j (List.mem_cons_of_mem i hj)
        by_cases hstarts : pat <+: encode (i :: items)
        · exact (lit_prefix_of_prefix_encode hback hplain hstarts).isInfix
        · refine List.infix_cons_iff.mpr (.inr (ih' ?_))
          rw [encode_cons] at h hstarts
          cases i with
          | lit c =>
              rw [Item.source, List.singleton_append, List.infix_cons_iff] at h
              exact h.resolve_left hstarts
          | esc source c =>
              obtain ⟨w, hw, -⟩ := hpat.shape
              obtain ⟨body, rfl, -, hbracket, -⟩ := hplain _ List.mem_cons_self
              have hsource : '[' ∉ '\\' :: body := by simpa using hbracket
              exact infix_of_infix_append hw hsource h
  · rintro ⟨u, v, rfl⟩
    rw [encode_append, encode_append, encode_lit]
    exact ⟨encode u, encode v, rfl⟩

theorem infix_render_iff (hpat : PlaceholderText pat) (hplain : ∀ p ∈ pieces, p.Plain)
    (hraw : .raw 'M' ∉ pieces) :
    pat <:+: render pieces ↔
      ∃ items, .str items ∈ pieces ∧ pat.map Item.lit <:+: items := by
  have hquote : '"' ∉ pat := fun hmem => (hpat.plain _ hmem).1 rfl
  constructor
  · intro h
    induction pieces with
    | nil =>
        rw [render, List.flatMap_nil, List.infix_nil] at h
        exact absurd h hpat.ne_nil
    | cons p pieces ih =>
        have hraw' : .raw 'M' ∉ pieces := fun hmem => hraw (List.mem_cons_of_mem p hmem)
        have ih' := ih (fun q hq => hplain q (List.mem_cons_of_mem p hq)) hraw'
        have hrest : pat <:+: render pieces →
            ∃ items, .str items ∈ p :: pieces ∧ pat.map Item.lit <:+: items := by
          intro hoccurs
          obtain ⟨items, hmem, hitems⟩ := ih' hoccurs
          exact ⟨items, List.mem_cons_of_mem p hmem, hitems⟩
        have hstarts := not_prefix_render hpat hraw
        rw [render_cons] at h hstarts
        cases p with
        | raw c =>
            rw [Piece.source, List.singleton_append, List.infix_cons_iff] at h
            exact hrest (h.resolve_left hstarts)
        | str items =>
            rw [Piece.source, List.cons_append, List.append_assoc, List.singleton_append,
              List.infix_cons_iff] at h
            rcases h with h | h
            · exact absurd h (not_prefix_cons hpat.ne_nil hquote)
            · rcases infix_append_cons hquote h with h | h
              · exact ⟨items, List.mem_cons_self,
                  (lit_infix_iff hpat (hplain _ List.mem_cons_self)).mp h⟩
              · exact hrest h
  · rintro ⟨items, hmem, hitems⟩
    obtain ⟨a, b, rfl⟩ := List.append_of_mem hmem
    have hinner := (lit_infix_iff hpat (hplain _ hmem)).mpr hitems
    rw [render, List.flatMap_append, List.flatMap_cons, Piece.source]
    obtain ⟨u, v, huv⟩ := hinner
    refine ⟨a.flatMap Piece.source ++ '"' :: u, v ++ '"' :: b.flatMap Piece.source, ?_⟩
    simp [← huv]

theorem replacePieces_clean_iff (hpat : PlaceholderText pat) (hplain : ∀ p ∈ pieces, p.Plain)
    (hraw : .raw 'M' ∉ pieces) :
    (∀ p ∈ replacePieces pat new pieces, p.Clean) ↔
      (∀ p ∈ pieces, p.Clean) ∧ (pat <:+: render pieces → ∀ c ∈ new, 32 ≤ c.toNat) := by
  rw [infix_render_iff hpat hplain hraw, replacePieces, List.forall_mem_map]
  constructor
  · intro h
    refine ⟨fun p hp => ?_, ?_⟩
    · cases p with
      | raw c => trivial
      | str items => exact ((replaceItems_clean_iff hpat).mp (h _ hp)).1
    · rintro ⟨items, hmem, hoccurs⟩
      exact ((replaceItems_clean_iff hpat).mp (h _ hmem)).2 hoccurs
  · rintro ⟨hclean, hnew⟩ p hp
    cases p with
    | raw c => trivial
    | str items =>
        exact (replaceItems_clean_iff hpat).mpr
          ⟨hclean _ hp, fun hoccurs => hnew ⟨items, hp, hoccurs⟩⟩

theorem replacePieces_plain (hpat : PlaceholderText pat) (hnew : PiiText new)
    (hplain : ∀ p ∈ pieces, p.Plain) : ∀ p ∈ replacePieces pat new pieces, p.Plain := by
  rw [replacePieces, List.forall_mem_map]
  intro p hp
  cases p with
  | raw c => exact hplain _ hp
  | str items => exact replaceItems_plain hpat hnew (hplain _ hp)

theorem raw_mem_map {f : List Item → List Item} {c : Char} :
    .raw c ∈ pieces.map (Piece.map f) ↔ .raw c ∈ pieces := by
  rw [List.mem_map]
  constructor
  · rintro ⟨p, hp, heq⟩
    cases p with
    | raw d => exact heq ▸ hp
    | str items => cases heq
  · exact fun h => ⟨.raw c, h, rfl⟩

/-! ### Names of fields -/

theorem fieldOf_chars {name : List Char} {f : Field} (h : fieldOf name = some f) :
    ∀ c ∈ name, c.isAlpha = true ∨ c = '_' := by
  have hall : fieldNames.all (fun e => e.1.all fun c => c.isAlpha || c == '_') = true := by decide
  obtain ⟨before, after, hsplit, -⟩ := List.lookup_eq_some_iff.mp h
  have hname := List.all_eq_true.mp hall (name, f) (by rw [hsplit]; simp)
  intro c hc
  have hletter := List.all_eq_true.mp hname c hc
  simpa using hletter

/-- A restored key is a field only if it was one already. -/
theorem fieldOf_replaceItems (hpat : PlaceholderText pat) (hnew : PiiText new)
    (items : List Item) :
    fieldOf (decode (replaceItems pat new items)) = fieldOf (decode items) := by
  have hne : pat.map Item.lit ≠ [] := by simpa using hpat.ne_nil
  by_cases hoccurs : pat.map Item.lit <:+: items
  · have hnone : ∀ name : List Char, ∀ c ∈ name, c.isAlpha = false → c ≠ '_' →
        fieldOf name = none := by
      intro name c hc halpha hunderscore
      rw [Option.eq_none_iff_forall_ne_some]
      intro f hf
      rcases fieldOf_chars hf c hc with h | h
      · simp [halpha] at h
      · exact hunderscore h
    obtain ⟨w, hw, -⟩ := hpat.shape
    have hbracket : '[' ∈ decode items := by
      refine List.mem_map.mpr ⟨.lit '[', hoccurs.subset ?_, rfl⟩
      simp [hw]
    obtain ⟨c, hc, halpha, hunderscore⟩ := hnew.mark
    have hmark : c ∈ decode (replaceItems pat new items) :=
      List.mem_map.mpr ⟨.lit c, subset_replaceAll hne hoccurs (List.mem_map_of_mem hc), rfl⟩
    rw [hnone _ '[' hbracket (by decide) (by decide), hnone _ c hmark halpha hunderscore]
  · rw [replaceItems, replaceAll_of_not_occurs hoccurs]

end Texts

/-! ### All entries of a masking map -/

/-- Placeholders with what they stand for, in the order of the restoration. -/
abbrev Entries := List (List Char × List Char)

def restoreChars (es : Entries) (s : List Char) : List Char :=
  es.foldl (fun s e => replaceAll e.1 e.2 s) s

def restoreItems (es : Entries) (items : List Item) : List Item :=
  es.foldl (fun items e => replaceItems e.1 e.2 items) items

def restorePieces (es : Entries) (pieces : List Piece) : List Piece :=
  pieces.map (Piece.map (restoreItems es))

/-- The entries are placeholders and matches. -/
def Issued (es : Entries) : Prop := ∀ e ∈ es, PlaceholderText e.1 ∧ PiiText e.2

/-- Whenever a placeholder is replaced, what it stands for has no control
character. -/
def CleanThroughout : Entries → List Char → Prop
  | [], _ => True
  | e :: es, text =>
      (e.1 <:+: text → ∀ c ∈ e.2, 32 ≤ c.toNat) ∧ CleanThroughout es (replaceAll e.1 e.2 text)

/-- Whenever a placeholder stands in what a literal stands for, it is written
out. -/
def WrittenThroughout : Entries → List Item → Prop
  | [], _ => True
  | e :: es, items =>
      (∀ pre mid post, items = pre ++ mid ++ post → decode mid = e.1 → mid = e.1.map Item.lit) ∧
        WrittenThroughout es (replaceItems e.1 e.2 items)

theorem toList_restore (iter : Shuffle (Σ _ : String, String)) (text : String)
    (map : MaskingMap) :
    (restore iter text map).toList =
      restoreChars ((iter.order map.entries).map fun e => (e.1.toList, e.2.toList))
        text.toList := by
  rw [restore]
  generalize iter.order map.entries = l
  induction l generalizing text with
  | nil => rfl
  | cons e l ih =>
      rw [List.foldl_cons, ih, replace, String.toList_ofList, replaceChars_eq]
      rfl

section Entries

variable {es : Entries} {e : List Char × List Char} {pieces : List Piece} {items : List Item}

theorem Issued.tail (h : Issued (e :: es)) : Issued es := fun x hx =>
  h x (List.mem_cons_of_mem e hx)

theorem restorePieces_cons :
    restorePieces (e :: es) pieces = restorePieces es (replacePieces e.1 e.2 pieces) := by
  rw [restorePieces, restorePieces, replacePieces, List.map_map]
  congr 1
  funext p
  cases p <;> rfl

theorem restorePieces_nil : restorePieces [] pieces = pieces := by
  rw [restorePieces]
  refine (List.map_congr_left fun p _ => ?_).trans (List.map_id pieces)
  cases p <;> rfl

theorem restorePieces_plain (hes : Issued es) (hplain : ∀ p ∈ pieces, p.Plain) :
    ∀ p ∈ restorePieces es pieces, p.Plain := by
  induction es generalizing pieces with
  | nil => rwa [restorePieces_nil]
  | cons e es ih =>
      obtain ⟨hpat, hnew⟩ := hes e List.mem_cons_self
      rw [restorePieces_cons]
      exact ih hes.tail (replacePieces_plain hpat hnew hplain)

/-- The literals are clean in the end exactly when they were and no control
character was put in. -/
theorem restorePieces_clean_iff (hes : Issued es) (hplain : ∀ p ∈ pieces, p.Plain)
    (hraw : .raw 'M' ∉ pieces) :
    (∀ p ∈ restorePieces es pieces, p.Clean) ↔
      (∀ p ∈ pieces, p.Clean) ∧ CleanThroughout es (render pieces) := by
  induction es generalizing pieces with
  | nil => simp [restorePieces_nil, CleanThroughout]
  | cons e es ih =>
      obtain ⟨hpat, hnew⟩ := hes e List.mem_cons_self
      have hraw' : .raw 'M' ∉ replacePieces e.1 e.2 pieces := by
        rwa [replacePieces, raw_mem_map]
      rw [restorePieces_cons, ih hes.tail (replacePieces_plain hpat hnew hplain) hraw',
        replacePieces_clean_iff hpat hplain hraw, render_replacePieces hpat hplain hraw,
        CleanThroughout, and_assoc]

/-- What an answer has outside of its literals. -/
structure Outside (pieces : List Piece) : Prop where
  ne_nil : pieces ≠ []
  raw_M : .raw 'M' ∉ pieces
  raw_j : .raw 'j' ∉ pieces

theorem Outside.map (h : Outside pieces) (f : List Item → List Item) :
    Outside (pieces.map (Piece.map f)) :=
  ⟨by simpa using h.ne_nil, by rw [raw_mem_map]; exact h.raw_M, by rw [raw_mem_map]; exact h.raw_j⟩

theorem Outside.render_ne_nil (h : Outside pieces) : render pieces ≠ [] := by
  obtain ⟨p, rest, rfl⟩ := List.exists_cons_of_ne_nil h.ne_nil
  rw [render_cons]
  cases p <;> simp [Piece.source]

theorem Outside.head_render (h : Outside pieces) : (render pieces).head? ≠ some 'j' := by
  obtain ⟨p, rest, rfl⟩ := List.exists_cons_of_ne_nil h.ne_nil
  rw [render_cons]
  cases p with
  | raw c =>
      intro hc
      have hc' : c = 'j' := by simpa [Piece.source] using hc
      exact h.raw_j (hc' ▸ List.mem_cons_self)
  | str items => simp [Piece.source]

/-- The restored answer, without its fence. -/
theorem sanitize_restoreChars (hes : Issued es) (hplain : ∀ p ∈ pieces, p.Plain)
    (hout : Outside pieces) {c : String}
    (hc : (sanitizeLlmResponse c).toList = render pieces) :
    (sanitizeLlmResponse (.ofList (restoreChars es c.toList))).toList =
      render (restorePieces es pieces) := by
  induction es generalizing pieces c with
  | nil => simpa [restoreChars, restorePieces_nil] using hc
  | cons e es ih =>
      obtain ⟨hpat, hnew⟩ := hes e List.mem_cons_self
      have hstep : (sanitizeLlmResponse (.ofList (replaceAll e.1 e.2 c.toList))).toList =
          render (replacePieces e.1 e.2 pieces) := by
        rw [render_replacePieces hpat hplain hout.raw_M, ← hc]
        refine (hpat.keeps hnew).sanitize_replaceAll ?_ ?_ ?_
        · rw [hc]
          exact hout.render_ne_nil
        · rw [hc]
          exact not_prefix_render hpat hout.raw_M
        · rw [hc]
          exact hout.head_render
      have ih' := ih hes.tail (replacePieces_plain hpat hnew hplain) (hout.map _) hstep
      rw [String.toList_ofList] at ih'
      rw [restorePieces_cons]
      exact ih'

theorem fieldOf_restoreItems (hes : Issued es) (items : List Item) :
    fieldOf (decode (restoreItems es items)) = fieldOf (decode items) := by
  induction es generalizing items with
  | nil => rfl
  | cons e es ih =>
      obtain ⟨hpat, hnew⟩ := hes e List.mem_cons_self
      exact (ih hes.tail _).trans (fieldOf_replaceItems hpat hnew items)

/-- A text that reads as JSON is read with restored strings after the
restoration, or not at all. -/
theorem readPayload_restore {d : Dialect} (hes : Issued es) {text : List Char}
    (hscan : scan text = some pieces) (hraw : .raw 'M' ∉ pieces) :
    (CleanThroughout es text → readPayload d (render (restorePieces es pieces)) =
      (readPayload d text).map (RawPayload.map (restoreItems es))) ∧
    (¬CleanThroughout es text → readPayload d (render (restorePieces es pieces)) = none) := by
  obtain ⟨rfl, hplain, hclean⟩ := scan_eq_some hscan
  have hplain' := restorePieces_plain hes hplain
  have hclean' := restorePieces_clean_iff hes hplain hraw
  constructor
  · intro hthroughout
    exact readPayload_map hscan (scan_render hplain' (hclean'.mpr ⟨hclean, hthroughout⟩))
      (fieldOf_restoreItems hes)
  · intro hthroughout
    have hnot := scan_render_control hplain' fun hall => hthroughout (hclean'.mp hall).2
    rw [readPayload, hnot, Option.bind_none]

/-- Where placeholders are written out, restoring a literal restores what it
stands for. -/
theorem decode_replaceItems (hpat : PlaceholderText e.1)
    (h : ∀ pre mid post, items = pre ++ mid ++ post → decode mid = e.1 →
      mid = e.1.map Item.lit) :
    decode (replaceItems e.1 e.2 items) = replaceAll e.1 e.2 (decode items) := by
  have hne : e.1.map Item.lit ≠ [] := by simpa using hpat.ne_nil
  unfold replaceItems
  induction items using replaceAll_induct hne with
  | nil => rfl
  | found t ih =>
      have ih' := ih fun pre mid post ht hmid =>
        h (e.1.map Item.lit ++ pre) mid post (by simp [ht]) hmid
      rw [replaceAll_append hne, decode, decode, List.map_append, List.map_append, ← decode,
        ← decode, ← decode, ← decode, decode_lit, decode_lit, ih', replaceAll_append hpat.ne_nil]
  | copied i t hi ih =>
      have ih' := ih fun pre mid post ht hmid => h (i :: pre) mid post (by simp [ht]) hmid
      have hcopied : ¬e.1 <+: decode (i :: t) := by
        rintro ⟨rest, hrest⟩
        have hmid : decode ((i :: t).take e.1.length) = e.1 := by
          rw [decode, List.map_take, ← decode, ← hrest, List.take_left']
          rfl
        have hlit := h [] _ _ (List.take_append_drop e.1.length (i :: t)).symm hmid
        exact hi ⟨(i :: t).drop e.1.length, by rw [← hlit, List.take_append_drop]⟩
      rw [replaceAll_cons hi, decode, List.map_cons, ← decode, ih']
      exact (replaceAll_cons hcopied).symm

theorem decode_restoreItems (hes : Issued es) (h : WrittenThroughout es items) :
    decode (restoreItems es items) = restoreChars es (decode items) := by
  induction es generalizing items with
  | nil => rfl
  | cons e es ih =>
      obtain ⟨hpat, -⟩ := hes e List.mem_cons_self
      show decode (restoreItems es (replaceItems e.1 e.2 items)) =
        restoreChars es (replaceAll e.1 e.2 (decode items))
      rw [ih hes.tail h.2, decode_replaceItems hpat h.1]

end Entries

end SereinGateway.Worker

import Mathlib

/-!
JSON as text.

Reading goes in three stages. `scan` cuts a text into characters outside of
strings and string literals; a literal keeps how each of its characters is
written, so the text can be written down again and the literal can be read.
`tokens` groups what is outside of strings, and `JsonState.step` is the
pushdown automaton of the grammar. It checks a whole document and keeps the
members of the outermost object, or the elements of the outermost array;
deeper values are checked and dropped.

No stage looks into a string, which is what the lemmas are about: changing the
contents of literals and reading are independent as long as the new contents
may stand in a literal.
-/

namespace SereinGateway.Lib.JsonText

/-! ### Literals -/

/-- A character of a literal, as it stands or by an escape. -/
inductive Item where
  | lit (c : Char)
  | esc (source : List Char) (c : Char)
  deriving DecidableEq

/-- The character that is meant. -/
def Item.char : Item → Char
  | .lit c => c
  | .esc _ c => c

/-- The way it is written. -/
@[grind =] def Item.source : Item → List Char
  | .lit c => [c]
  | .esc source _ => source

/-- What a literal stands for. -/
def decode (items : List Item) : List Char := items.map Item.char

/-- The text of a literal, without the quotes. -/
def encode (items : List Item) : List Char := items.flatMap Item.source

def escapes : List (Char × Char) :=
  [('"', '"'), ('\\', '\\'), ('/', '/'), ('b', Char.ofNat 8), ('f', Char.ofNat 12),
    ('n', Char.ofNat 10), ('r', Char.ofNat 13), ('t', Char.ofNat 9)]

def hexDigits : List Char :=
  ['0', '1', '2', '3', '4', '5', '6', '7', '8', '9', 'a', 'b', 'c', 'd', 'e', 'f', 'A', 'B',
    'C', 'D', 'E', 'F']

/-- The value of four hexadecimal digits. -/
def hex (digits : List Char) : Option ℕ :=
  if digits.all (· ∈ hexDigits) then
    some (digits.foldl (fun n c =>
      16 * n + if hexDigits.idxOf c < 16 then hexDigits.idxOf c else hexDigits.idxOf c - 6) 0)
  else none

example : hex ['0', '0', '5', 'B'] = some 91 ∧ hex ['0', '0', '5', 'b'] = some 91 := by decide

/-- The second half of a surrogate pair; `n` is what the first half adds. -/
def lowSurrogate (n : ℕ) (high rest : List Char) : Option (List Char × Char) :=
  if rest.take 2 = ['\\', 'u'] ∧ 6 ≤ rest.length then
    (hex ((rest.take 6).drop 2)).bind fun m =>
      if 0xDC00 ≤ m ∧ m < 0xE000 then
        some (high ++ rest.take 6, Char.ofNat (0x10000 + 0x400 * n + (m - 0xDC00)))
      else none
  else none

/-- The escape that begins with a backslash before the given text. -/
def readEscape (rest : List Char) : Option (List Char × Char) :=
  if rest.take 1 = ['u'] ∧ 5 ≤ rest.length then
    (hex ((rest.take 5).drop 1)).bind fun n =>
      if n < 0xD800 ∨ 0xE000 ≤ n then some ('\\' :: rest.take 5, Char.ofNat n)
      else if n < 0xDC00 then lowSurrogate (n - 0xD800) ('\\' :: rest.take 5) (rest.drop 5)
      else none
  else
    rest.head?.bind fun c => (escapes.lookup c).map fun d => (['\\', c], d)

/-- The source reads as one escape, whatever follows. -/
def IsEscape (source : List Char) (c : Char) : Prop :=
  ∃ body, source = '\\' :: body ∧ body ≠ [] ∧ '[' ∉ body ∧
    ∀ rest, readEscape (body ++ rest) = some (source, c)

theorem hex_mem {digits : List Char} {n : ℕ} (h : hex digits = some n) :
    ∀ c ∈ digits, c ∈ hexDigits := by
  unfold hex at h
  split at h
  · rename_i hall
    simpa using hall
  · simp at h

theorem lowSurrogate_eq_some {n : ℕ} {high rest source : List Char} {c : Char}
    (h : lowSurrogate n high rest = some (source, c)) :
    ∃ body t, rest = body ++ t ∧ source = high ++ body ∧ '[' ∉ body ∧
      ∀ t', lowSurrogate n high (body ++ t') = some (source, c) := by
  unfold lowSurrogate at h
  split at h
  · rename_i hstart
    obtain ⟨hhead, hlength⟩ := hstart
    obtain ⟨m, hm, hrest⟩ := Option.bind_eq_some_iff.mp h
    split at hrest
    · rename_i hrange
      obtain ⟨rfl, rfl⟩ := Prod.mk.inj (Option.some.inj hrest)
      have hsix : (rest.take 6).length = 6 := by simp [hlength]
      have htwo : (rest.take 6).take 2 = ['\\', 'u'] := by rw [List.take_take]; exact hhead
      have hbody : rest.take 6 = ['\\', 'u'] ++ (rest.take 6).drop 2 := by
        rw [← htwo, List.take_append_drop]
      refine ⟨rest.take 6, rest.drop 6, (List.take_append_drop 6 rest).symm, rfl, ?_, ?_⟩
      · rw [hbody]
        intro hmem
        rcases List.mem_append.mp hmem with hmem | hmem
        · revert hmem
          decide
        · exact absurd (hex_mem hm _ hmem) (by decide)
      · intro t'
        have htake : (rest.take 6 ++ t').take 6 = rest.take 6 := by
          rw [List.take_append_of_le_length hsix.ge, List.take_of_length_le hsix.le]
        have htake2 : (rest.take 6 ++ t').take 2 = ['\\', 'u'] := by
          rw [List.take_append_of_le_length (by omega), htwo]
        have hlong : 6 ≤ (rest.take 6 ++ t').length := by
          rw [List.length_append]
          omega
        rw [lowSurrogate, if_pos ⟨htake2, hlong⟩, htake, hm, Option.bind_some, if_pos hrange]
    · simp at hrest
  · simp at h

theorem readEscape_eq_some {rest source : List Char} {c : Char}
    (h : readEscape rest = some (source, c)) :
    ∃ body t, rest = body ++ t ∧ source = '\\' :: body ∧ IsEscape source c := by
  have hdone := h
  unfold readEscape at h
  split at h
  · rename_i hstart
    obtain ⟨hhead, hlength⟩ := hstart
    obtain ⟨n, hn, hrest⟩ := Option.bind_eq_some_iff.mp h
    have hfive : (rest.take 5).length = 5 := by simp [hlength]
    have hone : (rest.take 5).take 1 = ['u'] := by rw [List.take_take]; exact hhead
    have hbody : rest.take 5 = ['u'] ++ (rest.take 5).drop 1 := by
      rw [← hone, List.take_append_drop]
    have hbracket : '[' ∉ rest.take 5 := by
      rw [hbody]
      intro hmem
      rcases List.mem_append.mp hmem with hmem | hmem
      · revert hmem
        decide
      · exact absurd (hex_mem hn _ hmem) (by decide)
    -- The four digits decide alone unless they are the first half of a pair.
    have hlocal : ∀ t', readEscape (rest.take 5 ++ t') =
        if n < 0xD800 ∨ 0xE000 ≤ n then some ('\\' :: rest.take 5, Char.ofNat n)
        else if n < 0xDC00 then lowSurrogate (n - 0xD800) ('\\' :: rest.take 5) t' else none := by
      intro t'
      have htake : (rest.take 5 ++ t').take 5 = rest.take 5 := by
        rw [List.take_append_of_le_length hfive.ge, List.take_of_length_le hfive.le]
      have htake1 : (rest.take 5 ++ t').take 1 = ['u'] := by
        rw [List.take_append_of_le_length (by omega), hone]
      have hdrop : (rest.take 5 ++ t').drop 5 = t' := by
        rw [List.drop_append_of_le_length hfive.ge, List.drop_of_length_le hfive.le,
          List.nil_append]
      have hlong : 5 ≤ (rest.take 5 ++ t').length := by
        rw [List.length_append]
        omega
      rw [readEscape, if_pos ⟨htake1, hlong⟩, htake, hn, Option.bind_some, hdrop]
    split at hrest
    · rename_i hrange
      obtain ⟨rfl, rfl⟩ := Prod.mk.inj (Option.some.inj hrest)
      refine ⟨rest.take 5, rest.drop 5, (List.take_append_drop 5 rest).symm, rfl,
        rest.take 5, rfl, ?_, hbracket, fun t' => ?_⟩
      · rw [← List.length_pos_iff]
        omega
      · rw [hlocal, if_pos hrange]
    · rename_i hrange
      split at hrest
      · rename_i hhigh
        obtain ⟨body, t, hrest', rfl, hbracket', hagain⟩ := lowSurrogate_eq_some hrest
        refine ⟨rest.take 5 ++ body, t, ?_, rfl, rest.take 5 ++ body, rfl, ?_, ?_, fun t' => ?_⟩
        · rw [List.append_assoc, ← hrest', List.take_append_drop]
        · rw [← List.length_pos_iff, List.length_append]
          omega
        · exact fun hmem => (List.mem_append.mp hmem).elim hbracket hbracket'
        · rw [List.append_assoc, hlocal, if_neg hrange, if_pos hhigh, hagain]
      · simp at hrest
  · rename_i hstart
    obtain ⟨d, hd, hrest⟩ := Option.bind_eq_some_iff.mp h
    obtain ⟨t, rfl⟩ : ∃ t, rest = d :: t := by
      cases rest with
      | nil => simp at hd
      | cons e t => exact ⟨t, by rw [Option.some.inj hd]⟩
    obtain ⟨e, he, heq⟩ := Option.map_eq_some_iff.mp hrest
    obtain ⟨rfl, rfl⟩ := Prod.mk.inj heq
    have hother : ∀ x, escapes.lookup x = none → d ≠ x := by
      rintro x hx rfl
      rw [hx] at he
      cases he
    have hbracket : d ≠ '[' := hother _ (by decide)
    have hu : d ≠ 'u' := hother _ (by decide)
    refine ⟨[d], t, rfl, rfl, [d], rfl, by simp, by simp [hbracket.symm], fun t' => ?_⟩
    rw [readEscape, if_neg (by simp [hu])]
    simp [he]

/-! ### Cutting a text into literals and the rest -/

inductive Piece where
  | raw (c : Char)
  | str (items : List Item)
  deriving DecidableEq

def Piece.source : Piece → List Char
  | .raw c => [c]
  | .str items => '"' :: (encode items ++ ['"'])

def render (pieces : List Piece) : List Char := pieces.flatMap Piece.source

/-- `inside` says whether the text begins within a literal; the items are then
the rest of it. `skip` counts the characters of an escape that have been read
already. -/
@[grind =] def scanFrom : Bool → ℕ → List Char → Option (List Item × List Piece)
  | false, _, [] => some ([], [])
  | true, _, [] => none
  | inside, skip + 1, _ :: s => scanFrom inside skip s
  | false, 0, c :: s =>
      if c = '"' then (scanFrom true 0 s).map fun r => ([], .str r.1 :: r.2)
      else (scanFrom false 0 s).map fun r => ([], .raw c :: r.2)
  | true, 0, c :: s =>
      if c = '"' then (scanFrom false 0 s).map fun r => ([], r.2)
      else if c = '\\' then
        (readEscape s).bind fun e =>
          (scanFrom true (e.1.length - 1) s).map fun r => (.esc e.1 e.2 :: r.1, r.2)
      else if c.toNat < 32 then none
      else (scanFrom true 0 s).map fun r => (.lit c :: r.1, r.2)

def scan (text : List Char) : Option (List Piece) := (scanFrom false 0 text).map Prod.snd

/-- A character that may stand in a literal, except that it may be a control
character. -/
def Item.Plain : Item → Prop
  | .lit c => c ≠ '"' ∧ c ≠ '\\'
  | .esc source c => IsEscape source c

/-- No control character stands in the literal. -/
def Item.Clean : Item → Prop
  | .lit c => 32 ≤ c.toNat
  | .esc _ _ => True

@[grind =] def Piece.Plain : Piece → Prop
  | .raw c => c ≠ '"'
  | .str items => ∀ i ∈ items, i.Plain

@[grind =] def Piece.Clean : Piece → Prop
  | .raw _ => True
  | .str items => ∀ i ∈ items, i.Clean

theorem scanFrom_skip (inside : Bool) (skip : ℕ) (s : List Char) :
    scanFrom inside skip s = scanFrom inside 0 (s.drop skip) := by
  induction s generalizing skip with
  | nil => cases inside <;> cases skip <;> simp [scanFrom]
  | cons c s ih =>
      cases skip with
      | zero => rfl
      | succ skip =>
          rw [List.drop_succ_cons, ← ih]
          cases inside <;> rfl

theorem scanFrom_esc {source : List Char} {c : Char} (h : IsEscape source c) (rest : List Char) :
    scanFrom true 0 (source ++ rest) =
      (scanFrom true 0 rest).map fun r => (.esc source c :: r.1, r.2) := by
  obtain ⟨body, rfl, -, -, hread⟩ := h
  rw [List.cons_append, scanFrom, if_neg (by decide), if_pos rfl, hread, Option.bind_some,
    scanFrom_skip]
  simp

theorem scanFrom_lit {c : Char} (h : (Item.lit c).Plain) (hclean : (Item.lit c).Clean)
    (rest : List Char) :
    scanFrom true 0 (c :: rest) =
      (scanFrom true 0 rest).map fun r => (.lit c :: r.1, r.2) := by
  obtain ⟨hquote, hbackslash⟩ := h
  rw [scanFrom, if_neg hquote, if_neg hbackslash, if_neg (Nat.not_lt.mpr hclean)]

theorem scanFrom_encode {items : List Item} (hplain : ∀ i ∈ items, i.Plain)
    (hclean : ∀ i ∈ items, i.Clean) (rest : List Char) :
    scanFrom true 0 (encode items ++ '"' :: rest) =
      (scanFrom false 0 rest).map fun r => (items, r.2) := by
  induction items with
  | nil => rfl
  | cons i items ih =>
      have ih' := ih (fun j hj => hplain j (List.mem_cons_of_mem i hj))
        (fun j hj => hclean j (List.mem_cons_of_mem i hj))
      have hplain' := hplain i List.mem_cons_self
      have hclean' := hclean i List.mem_cons_self
      rw [encode, List.flatMap_cons, List.append_assoc, ← encode]
      cases i with
      | lit c =>
          rw [Item.source, List.singleton_append, scanFrom_lit hplain' hclean', ih',
            Option.map_map]
          rfl
      | esc source c =>
          rw [Item.source, scanFrom_esc hplain', ih', Option.map_map]
          rfl

/-- A control character is an error, wherever it stands in a literal. -/
theorem scanFrom_encode_control {items : List Item} (hplain : ∀ i ∈ items, i.Plain)
    (hclean : ¬∀ i ∈ items, i.Clean) (rest : List Char) :
    scanFrom true 0 (encode items ++ rest) = none := by
  induction items with
  | nil => simp at hclean
  | cons i items ih =>
      have hplain' := hplain i List.mem_cons_self
      rw [encode, List.flatMap_cons, List.append_assoc, ← encode]
      by_cases hi : i.Clean
      · have ih' := ih (fun j hj => hplain j (List.mem_cons_of_mem i hj)) fun hall =>
          hclean (List.forall_mem_cons.mpr ⟨hi, hall⟩)
        cases i with
        | lit c =>
            rw [Item.source, List.singleton_append, scanFrom_lit hplain' hi, ih', Option.map_none]
        | esc source c => rw [Item.source, scanFrom_esc hplain', ih', Option.map_none]
      · cases i with
        | lit c =>
            obtain ⟨hquote, hbackslash⟩ := hplain'
            rw [Item.source, List.singleton_append, scanFrom, if_neg hquote, if_neg hbackslash,
              if_pos (Nat.not_le.mp hi)]
        | esc source c => exact absurd trivial hi

theorem render_cons (p : Piece) (pieces : List Piece) :
    render (p :: pieces) = p.source ++ render pieces := List.flatMap_cons

theorem scanFrom_piece {p : Piece} (hplain : p.Plain) (hclean : p.Clean) (rest : List Char) :
    scanFrom false 0 (p.source ++ rest) =
      (scanFrom false 0 rest).map fun r => ([], p :: r.2) := by
  cases p with
  | raw c => rw [Piece.source, List.singleton_append, scanFrom, if_neg hplain]
  | str items =>
      rw [Piece.source, List.cons_append, List.append_assoc, scanFrom, if_pos rfl,
        List.singleton_append, scanFrom_encode hplain hclean, Option.map_map]
      rfl

theorem scanFrom_piece_control {p : Piece} (hplain : p.Plain) (hclean : ¬p.Clean)
    (rest : List Char) : scanFrom false 0 (p.source ++ rest) = none := by
  cases p with
  | raw c => exact absurd trivial hclean
  | str items =>
      rw [Piece.source, List.cons_append, List.append_assoc, scanFrom, if_pos rfl,
        scanFrom_encode_control hplain hclean, Option.map_none]

theorem scan_render {pieces : List Piece} (hplain : ∀ p ∈ pieces, p.Plain)
    (hclean : ∀ p ∈ pieces, p.Clean) : scan (render pieces) = some pieces := by
  have hfrom : scanFrom false 0 (render pieces) = some ([], pieces) := by
    induction pieces with
    | nil => rfl
    | cons p pieces ih =>
        have ih' := ih (fun q hq => hplain q (List.mem_cons_of_mem p hq))
          (fun q hq => hclean q (List.mem_cons_of_mem p hq))
        rw [render_cons, scanFrom_piece (hplain p List.mem_cons_self)
          (hclean p List.mem_cons_self), ih', Option.map_some]
  rw [scan, hfrom, Option.map_some]

/-- A control character in a literal makes the text unreadable. -/
theorem scan_render_control {pieces : List Piece} (hplain : ∀ p ∈ pieces, p.Plain)
    (hclean : ¬∀ p ∈ pieces, p.Clean) : scan (render pieces) = none := by
  have hfrom : scanFrom false 0 (render pieces) = none := by
    induction pieces with
    | nil => exact absurd (List.forall_mem_nil _) hclean
    | cons p pieces ih =>
        rw [render_cons]
        by_cases hp : p.Clean
        · have ih' := ih (fun q hq => hplain q (List.mem_cons_of_mem p hq)) fun hall =>
            hclean (List.forall_mem_cons.mpr ⟨hp, hall⟩)
          rw [scanFrom_piece (hplain p List.mem_cons_self) hp, ih', Option.map_none]
        · exact scanFrom_piece_control (hplain p List.mem_cons_self) hp _
  rw [scan, hfrom, Option.map_none]

/-- What a scan has found, within a literal or outside. -/
structure Scanned (inside : Bool) (text : List Char) (items : List Item) (pieces : List Piece) :
    Prop where
  text_eq : text = if inside then encode items ++ '"' :: render pieces else render pieces
  items_plain : ∀ i ∈ items, i.Plain
  items_clean : ∀ i ∈ items, i.Clean
  plain : ∀ p ∈ pieces, p.Plain
  clean : ∀ p ∈ pieces, p.Clean

theorem scanned_of_scanFrom {inside : Bool} {text : List Char} {items : List Item}
    {pieces : List Piece} (h : scanFrom inside 0 text = some (items, pieces)) :
    Scanned inside text items pieces := by
  induction hn : text.length using Nat.strong_induction_on generalizing inside text items
    pieces with
  | _ n ih =>
      cases text with
      | nil =>
          cases inside with
          | true => simp [scanFrom] at h
          | false =>
              obtain ⟨rfl, rfl⟩ := Prod.mk.inj (Option.some.inj h)
              exact ⟨rfl, by simp, by simp, by simp, by simp⟩
      | cons c s =>
          have hshorter : s.length < n := by simp [← hn]
          cases inside with
          | false =>
              rw [scanFrom] at h
              split at h
              · rename_i hc
                obtain ⟨⟨items', pieces'⟩, hrest, heq⟩ := Option.map_eq_some_iff.mp h
                obtain ⟨rfl, rfl⟩ := Prod.mk.inj heq
                have hscanned := ih _ hshorter hrest rfl
                refine ⟨?_, by simp, by simp, ?_, ?_⟩
                · rw [hscanned.text_eq, hc]
                  simp [render_cons, Piece.source]
                · exact List.forall_mem_cons.mpr ⟨hscanned.items_plain, hscanned.plain⟩
                · exact List.forall_mem_cons.mpr ⟨hscanned.items_clean, hscanned.clean⟩
              · rename_i hc
                obtain ⟨⟨items', pieces'⟩, hrest, heq⟩ := Option.map_eq_some_iff.mp h
                obtain ⟨rfl, rfl⟩ := Prod.mk.inj heq
                have hscanned := ih _ hshorter hrest rfl
                refine ⟨?_, by simp, by simp, ?_, ?_⟩
                · rw [hscanned.text_eq]
                  simp [render_cons, Piece.source]
                · exact List.forall_mem_cons.mpr ⟨hc, hscanned.plain⟩
                · exact List.forall_mem_cons.mpr ⟨trivial, hscanned.clean⟩
          | true =>
              rw [scanFrom] at h
              split at h
              · rename_i hc
                obtain ⟨⟨items', pieces'⟩, hrest, heq⟩ := Option.map_eq_some_iff.mp h
                obtain ⟨rfl, rfl⟩ := Prod.mk.inj heq
                have hscanned := ih _ hshorter hrest rfl
                refine ⟨?_, by simp, by simp, hscanned.plain, hscanned.clean⟩
                rw [hscanned.text_eq, hc]
                simp [encode]
              · rename_i hquote
                split at h
                · rename_i hbackslash
                  obtain ⟨⟨source, d⟩, hread, hmap⟩ := Option.bind_eq_some_iff.mp h
                  obtain ⟨⟨items', pieces'⟩, hrest, heq⟩ := Option.map_eq_some_iff.mp hmap
                  obtain ⟨rfl, rfl⟩ := Prod.mk.inj heq
                  obtain ⟨body, t, rfl, rfl, hescape⟩ := readEscape_eq_some hread
                  rw [scanFrom_skip] at hrest
                  simp only [List.length_cons, Nat.add_sub_cancel, List.drop_left'] at hrest
                  have hscanned := ih t.length (by rw [List.length_append] at hshorter; omega)
                    hrest rfl
                  refine ⟨?_, ?_, ?_, hscanned.plain, hscanned.clean⟩
                  · rw [hscanned.text_eq, hbackslash]
                    simp [encode, Item.source]
                  · exact List.forall_mem_cons.mpr ⟨hescape, hscanned.items_plain⟩
                  · exact List.forall_mem_cons.mpr ⟨trivial, hscanned.items_clean⟩
                · rename_i hbackslash
                  split at h
                  · simp at h
                  · rename_i hcontrol
                    obtain ⟨⟨items', pieces'⟩, hrest, heq⟩ := Option.map_eq_some_iff.mp h
                    obtain ⟨rfl, rfl⟩ := Prod.mk.inj heq
                    have hscanned := ih _ hshorter hrest rfl
                    refine ⟨?_, ?_, ?_, hscanned.plain, hscanned.clean⟩
                    · rw [hscanned.text_eq]
                      simp [encode, Item.source]
                    · exact List.forall_mem_cons.mpr ⟨⟨hquote, hbackslash⟩, hscanned.items_plain⟩
                    · exact List.forall_mem_cons.mpr
                        ⟨Nat.not_lt.mp hcontrol, hscanned.items_clean⟩

theorem scan_eq_some {text : List Char} {pieces : List Piece} (h : scan text = some pieces) :
    text = render pieces ∧ (∀ p ∈ pieces, p.Plain) ∧ ∀ p ∈ pieces, p.Clean := by
  obtain ⟨⟨items, pieces'⟩, hfrom, rfl⟩ := Option.map_eq_some_iff.mp h
  have hscanned := scanned_of_scanFrom hfrom
  exact ⟨hscanned.text_eq, hscanned.plain, hscanned.clean⟩

end SereinGateway.Lib.JsonText

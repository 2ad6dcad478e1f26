import Mathlib

/-!
Operations of Rust's `str` on strings as sequences of characters, decimal and
hexadecimal texts, and what it means that a digest does not confuse two
inputs.

A byte offset that a Rust program obtains from a search and uses to slice the
same string always lies on a character boundary, so positions are counted in
characters here. Lowercasing is given by its effect: `Lowercase` is any map
that agrees with the ASCII one on ASCII texts and leaves no ASCII capital.
-/

namespace SereinGateway.Lib

/-- The Unicode property `White_Space`, as `char::is_whitespace`. -/
def isWhitespace (c : Char) : Bool :=
  let n := c.toNat
  (9 ≤ n && n ≤ 13) || n == 32 || n == 0x85 || n == 0xA0 || n == 0x1680 ||
    (0x2000 ≤ n && n ≤ 0x200A) || n == 0x2028 || n == 0x2029 || n == 0x202F ||
    n == 0x205F || n == 0x3000

theorem not_space_of_range {c : Char} (h : 33 ≤ c.toNat ∧ c.toNat ≤ 126 ∨ c.toNat = 0x17F ∨
    c.toNat = 0x212A) : isWhitespace c = false := by
  simp only [isWhitespace, Bool.or_eq_false_iff, Bool.and_eq_false_iff, decide_eq_false_iff_not,
    beq_eq_false_iff_ne]
  omega

theorem range_of_isAlpha {c : Char} (h : c.isAlpha = true) :
    65 ≤ c.toNat ∧ c.toNat ≤ 90 ∨ 97 ≤ c.toNat ∧ c.toNat ≤ 122 := by
  simpa [Char.isAlpha, Char.isUpper, Char.isLower, UInt32.le_iff_toNat_le] using h

theorem range_of_isDigit {c : Char} (h : c.isDigit = true) : 48 ≤ c.toNat ∧ c.toNat ≤ 57 := by
  simpa [Char.isDigit, UInt32.le_iff_toNat_le] using h

theorem not_space_of_isDigit {c : Char} (h : c.isDigit = true) : isWhitespace c = false := by
  have hrange := range_of_isDigit h
  exact not_space_of_range (by omega)

/-- The characters of a literal, read off its constructor. -/
theorem toList_of_eq_ofList {s : String} {cs : List Char} (h : s = String.ofList cs) :
    s.toList = cs := by
  rw [h, String.toList_ofList]

def trimStart (s : String) : String := .ofList (s.toList.dropWhile isWhitespace)

def trimEnd (s : String) : String := .ofList (s.toList.rdropWhile isWhitespace)

def trim (s : String) : String := trimEnd (trimStart s)

def startsWith (s pat : String) : Bool := pat.toList.isPrefixOf s.toList

/-- The rest of the string after the given text, if it begins with it. -/
def stripPrefix (s pat : String) : Option String :=
  if startsWith s pat then some (.ofList (s.toList.drop pat.toList.length)) else none

/-- Position of the last occurrence of `pat`. -/
@[grind =] def rfindChars (pat : List Char) : List Char → Option ℕ
  | [] => if pat = [] then some 0 else none
  | c :: s =>
      match rfindChars pat s with
      | some i => some (i + 1)
      | none => if pat.isPrefixOf (c :: s) then some 0 else none

def rfind (s pat : String) : Option ℕ := rfindChars pat.toList s.toList

/-- Position of the first occurrence of `pat`. -/
@[grind =] def findChars (pat : List Char) : List Char → Option ℕ
  | [] => if pat = [] then some 0 else none
  | c :: s =>
      if pat.isPrefixOf (c :: s) then some 0 else (findChars pat s).map (· + 1)

/-- `&s[..pos]`. -/
def sliceTo (s : String) (pos : ℕ) : String := .ofList (s.toList.take pos)

/-- `&s[pos..]`. -/
def sliceFrom (s : String) (pos : ℕ) : String := .ofList (s.toList.drop pos)

/-- `str::find` of a character. -/
def find (s : String) (c : Char) : Option ℕ := findChars [c] s.toList

/-- Replacement of the occurrences of `pat`, left to right; `skip` counts the
characters of an occurrence that are still to be dropped. -/
@[grind =] def replaceChars (pat new : List Char) : ℕ → List Char → List Char
  | _, [] => []
  | skip + 1, _ :: s => replaceChars pat new skip s
  | 0, c :: s =>
      if pat.isPrefixOf (c :: s) then new ++ replaceChars pat new (pat.length - 1) s
      else c :: replaceChars pat new 0 s

/-- `str::replace` of a non-empty text. -/
def replace (s pat new : String) : String :=
  .ofList (replaceChars pat.toList new.toList 0 s.toList)

/-- `str::parse` for a 64-bit unsigned integer: an optional plus sign and
decimal digits, within range. -/
def parseU64 (s : String) : Option ℕ :=
  let digits := if startsWith s "+" then s.toList.drop 1 else s.toList
  if digits ≠ [] ∧ digits.all Char.isDigit then
    let n := Nat.ofDigitChars 10 digits 0
    if n < 2 ^ 64 then some n else none
  else none

example : parseU64 "+3" = some 3 ∧ parseU64 "" = none ∧ parseU64 " 3" = none := by decide

/-- `str::parse` for a 64-bit signed integer: an optional sign and decimal
digits, within range. -/
def parseI64 (s : String) : Option ℤ :=
  let negative := startsWith s "-"
  let digits := if negative || startsWith s "+" then s.toList.drop 1 else s.toList
  if digits ≠ [] ∧ digits.all Char.isDigit then
    let n := Nat.ofDigitChars 10 digits 0
    if negative then if n ≤ 2 ^ 63 then some (-n) else none
    else if n < 2 ^ 63 then some n else none
  else none

example : parseI64 "-3" = some (-3) ∧ parseI64 "+3" = some 3 ∧ parseI64 "-" = none := by decide

theorem mem_of_mem_trim {s : String} {c : Char} (h : c ∈ (trim s).toList) : c ∈ s.toList := by
  simp only [trim, trimEnd, trimStart, String.toList_ofList] at h
  have hstart := (List.rdropWhile_prefix isWhitespace _).subset h
  exact (List.dropWhile_sublist isWhitespace).subset hstart

/-- A text that begins and ends with something else than white space. -/
theorem trim_eq_self {s : String} {c d : Char} {mid : List Char} (h : s.toList = c :: (mid ++ [d]))
    (hc : isWhitespace c = false) (hd : isWhitespace d = false) : trim s = s := by
  have hstart : s.toList.dropWhile isWhitespace = (c :: mid) ++ [d] := by
    rw [h, List.dropWhile_cons_of_neg (by simp [hc])]
    rfl
  have hend : ((c :: mid) ++ [d]).rdropWhile isWhitespace = s.toList := by
    rw [List.rdropWhile_concat_neg _ _ _ (by simp [hd]), h]
    rfl
  rw [trim, trimEnd, trimStart, String.toList_ofList, hstart, hend, String.ofList_toList]

theorem trim_trim (s : String) : trim (trim s) = trim s := by
  set x := s.toList.dropWhile isWhitespace with hx
  have hstart : (x.rdropWhile isWhitespace).dropWhile isWhitespace = x.rdropWhile isWhitespace := by
    cases hy : x.rdropWhile isWhitespace with
    | nil => rfl
    | cons c y =>
        obtain ⟨z, hz⟩ := hy ▸ List.rdropWhile_prefix isWhitespace x
        refine List.dropWhile_cons_of_neg fun hc => ?_
        have hself : x.dropWhile isWhitespace = x := List.dropWhile_idempotent ..
        rw [← hz, List.cons_append, List.dropWhile_cons_of_pos hc] at hself
        have hlen := (List.dropWhile_sublist (l := y ++ z) isWhitespace).length_le
        rw [hself, List.length_cons] at hlen
        omega
  have hend := List.rdropWhile_idempotent isWhitespace x
  simp only [trim, trimEnd, trimStart, String.toList_ofList, ← hx, hstart, hend]

/-- White space only. -/
def Blank (s : String) : Prop := ∀ c ∈ s.toList, isWhitespace c = true

theorem trimStart_append {p : String} (hp : Blank p) (s : String) :
    trimStart (p ++ s) = trimStart s := by
  rw [trimStart, trimStart, String.toList_append, List.dropWhile_append_of_pos hp]

theorem trimEnd_append (s : String) {q : String} (hq : Blank q) :
    trimEnd (s ++ q) = trimEnd s := by
  have hback : ∀ c ∈ q.toList.reverse, isWhitespace c = true := fun c hc =>
    hq c (List.mem_reverse.mp hc)
  rw [trimEnd, trimEnd, String.toList_append, List.rdropWhile, List.reverse_append,
    List.dropWhile_append_of_pos hback, List.rdropWhile]

theorem trim_padded {p q : String} (hp : Blank p) (s : String) (hq : Blank q) :
    trim (p ++ s ++ q) = trim s := by
  rw [trim, String.append_assoc, trimStart_append hp, trim]
  by_cases hs : s.toList.dropWhile isWhitespace = []
  · -- Nothing of `s` is left, and nothing of `q` either.
    have hall : Blank s := by
      intro c hc
      exact List.dropWhile_eq_nil_iff.mp hs c hc
    have hnone : trimStart q = "" := by
      rw [trimStart, List.dropWhile_eq_nil_iff.mpr hq]
    rw [trimStart_append hall, hnone, trimStart, hs]
  · have hleft : trimStart (s ++ q) = trimStart s ++ q := by
      apply String.toList_injective
      rw [trimStart, trimStart, String.toList_append, String.toList_append,
        String.toList_ofList, String.toList_ofList, List.dropWhile_append,
        if_neg (by simpa using hs)]
    rw [hleft, trimEnd_append _ hq]

/-- A text that begins with something else than white space. -/
theorem trimStart_eq_self {s : String} {c : Char} {rest : List Char} (h : s.toList = c :: rest)
    (hc : isWhitespace c = false) : trimStart s = s := by
  rw [trimStart, h, List.dropWhile_cons_of_neg (by simp [hc]), ← h, String.ofList_toList]

theorem rfindChars_eq_none {pat text : List Char} (h : text.length < pat.length) :
    rfindChars pat text = none := by
  induction text with
  | nil => rw [rfindChars, if_neg (List.ne_nil_of_length_pos h)]
  | cons c text ih =>
      rw [List.length_cons] at h
      rw [rfindChars, ih (by omega), if_neg]
      intro hprefix
      have hle := (List.isPrefixOf_iff_prefix.mp hprefix).length_le
      rw [List.length_cons] at hle
      omega

/-- The occurrence at the end is the last one. -/
theorem rfindChars_append (text pat : List Char) :
    rfindChars pat (text ++ pat) = some text.length := by
  induction text with
  | nil =>
      cases pat with
      | nil => rfl
      | cons c pat =>
          rw [List.nil_append, rfindChars, rfindChars_eq_none (by simp)]
          exact if_pos (List.isPrefixOf_iff_prefix.mpr (List.prefix_refl _))
  | cons c text ih => rw [List.cons_append, rfindChars, ih, List.length_cons]

/-- Up to the last occurrence of what a text ends with. -/
theorem sliceTo_rfind (s pat : String) :
    ∃ pos, rfind (s ++ pat) pat = some pos ∧ sliceTo (s ++ pat) pos = s := by
  refine ⟨s.toList.length, ?_, ?_⟩
  · rw [rfind, String.toList_append, rfindChars_append]
  · rw [sliceTo, String.toList_append, List.take_left, String.ofList_toList]

theorem findChars_eq_none {pat text : List Char} {c : Char} (hpat : c ∈ pat) (h : c ∉ text) :
    findChars pat text = none := by
  induction text with
  | nil => rw [findChars, if_neg (List.ne_nil_of_mem hpat)]
  | cons d text ih =>
      have hstart : pat.isPrefixOf (d :: text) = false := by
        rw [Bool.eq_false_iff, Ne, List.isPrefixOf_iff_prefix]
        exact fun hp => h (hp.subset hpat)
      rw [findChars, hstart, ih (fun hc => h (List.mem_cons_of_mem _ hc))]
      rfl

/-- The first occurrence of a character splits the text. -/
theorem findChars_singleton {c : Char} {text : List Char} {i : ℕ} :
    findChars [c] text = some i ↔ ∃ a b, text = a ++ c :: b ∧ c ∉ a ∧ a.length = i := by
  induction text generalizing i with
  | nil => simp [findChars]
  | cons d text ih =>
      by_cases hd : c = d
      · subst hd
        have hfirst : findChars [c] (c :: text) = some 0 := by simp [findChars]
        rw [hfirst, Option.some.injEq]
        constructor
        · rintro rfl
          exact ⟨[], text, rfl, by simp, rfl⟩
        · rintro ⟨a, b, heq, ha, rfl⟩
          cases a with
          | nil => rfl
          | cons x a =>
              rw [List.cons_append, List.cons.injEq] at heq
              simp [← heq.1] at ha
      · have hnext : findChars [c] (d :: text) = (findChars [c] text).map (· + 1) := by
          simp [findChars, hd]
        rw [hnext, Option.map_eq_some_iff]
        constructor
        · rintro ⟨j, hj, rfl⟩
          obtain ⟨a, b, rfl, ha, rfl⟩ := ih.mp hj
          exact ⟨d :: a, b, rfl, by simp [hd, ha], rfl⟩
        · rintro ⟨a, b, heq, ha, rfl⟩
          cases a with
          | nil =>
              rw [List.nil_append, List.cons.injEq] at heq
              exact absurd heq.1.symm hd
          | cons x a =>
              rw [List.cons_append, List.cons.injEq] at heq
              obtain ⟨rfl, rfl⟩ := heq
              exact ⟨a.length, ih.mpr ⟨a, b, rfl, fun h => ha (List.mem_cons_of_mem _ h), rfl⟩, rfl⟩

theorem stripPrefix_eq_some {s pat rest : String} :
    stripPrefix s pat = some rest ↔ s = pat ++ rest := by
  rw [stripPrefix, startsWith, Option.ite_none_right_eq_some, List.isPrefixOf_iff_prefix,
    Option.some.injEq]
  constructor
  · rintro ⟨⟨t, ht⟩, rfl⟩
    apply String.toList_injective
    rw [String.toList_append, String.toList_ofList, ← ht, List.drop_left]
  · rintro rfl
    rw [String.toList_append]
    refine ⟨⟨rest.toList, rfl⟩, ?_⟩
    rw [List.drop_left, String.ofList_toList]

/-- The first occurrence of a character cuts the text in two. -/
theorem exists_of_find {s : String} {c : Char} {i : ℕ} (h : find s c = some i) :
    ∃ a b : String, s = a ++ String.singleton c ++ b ∧ c ∉ a.toList ∧ a.toList.length = i := by
  rw [find, findChars_singleton] at h
  obtain ⟨a, b, heq, ha, rfl⟩ := h
  refine ⟨.ofList a, .ofList b, ?_, by simpa using ha, by simp⟩
  apply String.toList_injective
  simp [heq]

theorem find_append {a b : String} {c : Char} (ha : c ∉ a.toList) :
    find (a ++ String.singleton c ++ b) c = some a.toList.length := by
  rw [find, findChars_singleton]
  exact ⟨a.toList, b.toList, by simp, ha, rfl⟩

theorem sliceTo_append (a b : String) (c : Char) :
    sliceTo (a ++ String.singleton c ++ b) a.toList.length = a := by
  rw [sliceTo]
  simp

theorem sliceFrom_append (a b : String) (c : Char) :
    sliceFrom (a ++ String.singleton c ++ b) (a.toList.length + 1) = b := by
  rw [sliceFrom]
  simp

theorem mem_of_parseI64 {s : String} {n : ℤ} {c : Char} (h : parseI64 s = some n)
    (hc : c ∈ s.toList) : c.isDigit = true ∨ c = '-' ∨ c = '+' := by
  simp only [parseI64] at h
  split at h
  next hsign =>
    rw [Option.ite_none_right_eq_some] at h
    cases hlist : s.toList with
    | nil => simp [hlist] at hc
    | cons d text =>
        rw [hlist] at hc h
        rcases List.mem_cons.mp hc with rfl | hc
        · have hor : startsWith s "-" = true ∨ startsWith s "+" = true := by simpa using hsign
          simp only [startsWith, hlist] at hor
          rcases hor with h | h
          · have hminus : '-' = c := by simpa using h
            exact .inr (.inl hminus.symm)
          · have hplus : '+' = c := by simpa using h
            exact .inr (.inr hplus.symm)
        · exact .inl (List.all_eq_true.mp h.1.2 c hc)
  next =>
    rw [Option.ite_none_right_eq_some] at h
    exact .inl (List.all_eq_true.mp h.1.2 c hc)

theorem mem_toString_int {n : ℤ} {c : Char} (h : c ∈ (toString n).toList) :
    c.isDigit = true ∨ c = '-' := by
  have hdigits : ∀ m : ℕ, c ∈ (Nat.repr m).toList → c.isDigit = true := by
    intro m hm
    rw [Nat.repr, String.toList_ofList] at hm
    exact Nat.isDigit_of_mem_toDigits (by omega) (by omega) hm
  cases n with
  | ofNat m => exact .inl (hdigits m h)
  | negSucc m =>
      have h' : c ∈ ("-" ++ Nat.repr (m + 1)).toList := h
      rw [String.toList_append, List.mem_append] at h'
      rcases h' with h' | h'
      · exact .inr (by simpa using h')
      · exact .inl (hdigits _ h')

theorem parseI64_eq_some_range {s : String} {n : ℤ} (h : parseI64 s = some n) :
    -2 ^ 63 ≤ n ∧ n < 2 ^ 63 := by
  simp only [parseI64, Option.ite_none_right_eq_some] at h
  obtain ⟨-, h⟩ := h
  split at h
  · obtain ⟨hle, rfl⟩ := Option.ite_none_right_eq_some.mp h |>.imp id Option.some.inj
    omega
  · obtain ⟨hlt, rfl⟩ := Option.ite_none_right_eq_some.mp h |>.imp id Option.some.inj
    omega

theorem all_isDigit_toDigits (m : ℕ) : (Nat.toDigits 10 m).all Char.isDigit = true := by
  rw [List.all_eq_true]
  exact fun c hc => Nat.isDigit_of_mem_toDigits (by omega) (by omega) hc

theorem startsWith_toDigits (c : Char) (hc : c.isDigit = false) (m : ℕ) :
    startsWith (.ofList (Nat.toDigits 10 m)) (.singleton c) = false := by
  rw [startsWith, Bool.eq_false_iff, Ne, List.isPrefixOf_iff_prefix]
  rintro ⟨t, ht⟩
  have hmem : c ∈ Nat.toDigits 10 m := by
    rw [String.toList_ofList] at ht
    rw [← ht]
    simp
  have := List.all_eq_true.mp (all_isDigit_toDigits m) c hmem
  simp [hc] at this

theorem parseU64_toString {n : ℕ} (hn : n < 2 ^ 64) : parseU64 (toString n) = some n := by
  have htext : toString n = .ofList (Nat.toDigits 10 n) := rfl
  have hplus : startsWith (.ofList (Nat.toDigits 10 n)) "+" = false :=
    startsWith_toDigits '+' rfl n
  have hne : Nat.toDigits 10 n ≠ [] := Nat.toDigits_ne_nil
  simp only [parseU64, htext, hplus, Bool.false_eq_true, if_false, String.toList_ofList, ne_eq,
    hne, not_false_eq_true, all_isDigit_toDigits, and_self, if_true,
    Nat.ofDigitChars_ten_toDigits, hn]

/-- A text without white space. -/
theorem trim_eq_self_of_forall {s : String} (h : ∀ c ∈ s.toList, isWhitespace c = false) :
    trim s = s := by
  have hstart : s.toList.dropWhile isWhitespace = s.toList := by
    rw [List.dropWhile_eq_self_iff]
    intro hpos
    simp [h _ (List.getElem_mem hpos)]
  have hend : s.toList.rdropWhile isWhitespace = s.toList := by
    rw [List.rdropWhile_eq_self_iff]
    intro hne
    simp [h _ (List.getLast_mem hne)]
  rw [trim, trimEnd, trimStart, String.toList_ofList, hstart, hend, String.ofList_toList]

theorem trim_toString (n : ℕ) : trim (toString n) = toString n := by
  refine trim_eq_self_of_forall fun c hc => ?_
  have hdigit : c.isDigit = true := by
    have htext : (toString n).toList = Nat.toDigits 10 n := String.toList_ofList
    exact List.all_eq_true.mp (all_isDigit_toDigits n) c (htext ▸ hc)
  have hrange : 48 ≤ c.toNat ∧ c.toNat ≤ 57 := by
    simpa [Char.isDigit, UInt32.le_iff_toNat_le] using hdigit
  simp only [isWhitespace, Bool.or_eq_false_iff, Bool.and_eq_false_iff, decide_eq_false_iff_not,
    beq_eq_false_iff_ne]
  omega

theorem parseI64_toString {n : ℤ} (hlow : -2 ^ 63 ≤ n) (hhigh : n < 2 ^ 63) :
    parseI64 (toString n) = some n := by
  cases n with
  | ofNat m =>
      have htext : toString (Int.ofNat m) = .ofList (Nat.toDigits 10 m) := rfl
      have hminus : startsWith (.ofList (Nat.toDigits 10 m)) "-" = false :=
        startsWith_toDigits '-' rfl m
      have hplus : startsWith (.ofList (Nat.toDigits 10 m)) "+" = false :=
        startsWith_toDigits '+' rfl m
      have hne : Nat.toDigits 10 m ≠ [] := Nat.toDigits_ne_nil
      have hlt : m < 2 ^ 63 := by
        have hcast : (m : ℤ) < 2 ^ 63 := hhigh
        omega
      simp only [parseI64, htext, hminus, hplus, Bool.or_self, Bool.false_eq_true, if_false,
        String.toList_ofList, ne_eq, hne, not_false_eq_true, all_isDigit_toDigits, and_self,
        if_true, Nat.ofDigitChars_ten_toDigits, hlt]
      rfl
  | negSucc m =>
      have htext : toString (Int.negSucc m) = "-" ++ .ofList (Nat.toDigits 10 (m + 1)) := rfl
      have hminus : startsWith ("-" ++ .ofList (Nat.toDigits 10 (m + 1))) "-" = true := by
        simp [startsWith]
      have hne : Nat.toDigits 10 (m + 1) ≠ [] := Nat.toDigits_ne_nil
      have hdrop : ("-" ++ String.ofList (Nat.toDigits 10 (m + 1))).toList.drop 1 =
          Nat.toDigits 10 (m + 1) := by simp
      have hle : m + 1 ≤ 2 ^ 63 := by
        rw [Int.negSucc_eq] at hlow
        omega
      simp only [parseI64, htext, hminus, Bool.true_or, if_true, hdrop, ne_eq, hne,
        not_false_eq_true, all_isDigit_toDigits, and_self, Nat.ofDigitChars_ten_toDigits, hle]
      rfl

/-- `str::to_lowercase`. -/
structure Lowercase where
  apply : String → String
  ascii : ∀ s, (∀ c ∈ s.toList, c.toNat < 128) → apply s = s.map Char.toLower
  no_capital : ∀ s, ∀ c ∈ (apply s).toList, c.isUpper = false

theorem isUpper_toLower (c : Char) : c.toLower.isUpper = false := by
  rw [Char.isUpper, Char.toLower]
  split
  · rename_i h
    have hle := UInt32.le_iff_toNat_le.mp h.1
    simp only [decide_eq_false_iff_not, UInt32.le_iff_toNat_le, UInt32.toNat_add]
    intro hcap
    have hshift : ('a'.val - 'A'.val).toNat = 32 := rfl
    have hA : 'A'.val.toNat = 65 := rfl
    have hZ : 'Z'.val.toNat = 90 := rfl
    have hZ' := UInt32.le_iff_toNat_le.mp h.2
    omega
  · rename_i h
    simpa using h

/-- Lowercasing that leaves everything but the ASCII capitals alone. -/
def asciiLowercase : Lowercase where
  apply s := s.map Char.toLower
  ascii _ _ := rfl
  no_capital s c h := by
    rw [String.toList_map] at h
    obtain ⟨d, -, rfl⟩ := List.mem_map.mp h
    exact isUpper_toLower d

/-! ### Decimal and hexadecimal texts -/

def hexDigit (n : ℕ) : Char :=
  ['0', '1', '2', '3', '4', '5', '6', '7', '8', '9', 'a', 'b', 'c', 'd', 'e', 'f'].getD n '0'

def hexEncode (bytes : List UInt8) : String :=
  .ofList (bytes.flatMap fun b => [hexDigit (b.toNat / 16), hexDigit (b.toNat % 16)])

theorem hexDigit_injective {m n : ℕ} (hm : m < 16) (hn : n < 16)
    (h : hexDigit m = hexDigit n) : m = n := by
  have hall : ∀ m < 16, ∀ n < 16, hexDigit m = hexDigit n → m = n := by decide
  exact hall m hm n hn h

@[simp] theorem toList_hexEncode_cons (b : UInt8) (bytes : List UInt8) :
    (hexEncode (b :: bytes)).toList =
      hexDigit (b.toNat / 16) :: hexDigit (b.toNat % 16) :: (hexEncode bytes).toList := by
  simp [hexEncode]

theorem hexEncode_injective {xs ys : List UInt8} (h : hexEncode xs = hexEncode ys) : xs = ys := by
  induction xs generalizing ys with
  | nil =>
      cases ys with
      | nil => rfl
      | cons y ys =>
          have := congrArg String.toList h
          simp [hexEncode] at this
  | cons x xs ih =>
      cases ys with
      | nil =>
          have := congrArg String.toList h
          simp [hexEncode] at this
      | cons y ys =>
          have hlist := congrArg String.toList h
          simp only [toList_hexEncode_cons, List.cons.injEq] at hlist
          obtain ⟨hhi, hlo, htail⟩ := hlist
          have hx := x.toNat_lt
          have hy := y.toNat_lt
          have hdiv := hexDigit_injective (by omega) (by omega) hhi
          have hmod := hexDigit_injective (Nat.mod_lt _ (by omega)) (Nat.mod_lt _ (by omega)) hlo
          have hxy : x = y := UInt8.toNat_inj.mp (by omega)
          rw [hxy, ih (String.toList_injective htail)]

theorem hexDigit_mem (n : ℕ) :
    hexDigit n ∈ ['0', '1', '2', '3', '4', '5', '6', '7', '8', '9', 'a', 'b', 'c', 'd', 'e',
      'f'] := by
  rw [hexDigit, List.getD_eq_getElem?_getD]
  cases h : ['0', '1', '2', '3', '4', '5', '6', '7', '8', '9', 'a', 'b', 'c', 'd', 'e',
      'f'][n]? with
  | none => simp
  | some c => exact List.mem_of_getElem? h

theorem mem_hexEncode {bytes : List UInt8} {c : Char} (h : c ∈ (hexEncode bytes).toList) :
    ∃ n, c = hexDigit n := by
  rw [hexEncode, String.toList_ofList] at h
  obtain ⟨b, -, hc⟩ := List.mem_flatMap.mp h
  rcases List.mem_pair.mp hc with rfl | rfl
  · exact ⟨_, rfl⟩
  · exact ⟨_, rfl⟩

theorem not_mem_hexEncode (bytes : List UInt8) {c : Char} (h : c = ':' ∨ c.isUpper = true) :
    c ∉ (hexEncode bytes).toList := by
  intro hmem
  obtain ⟨n, rfl⟩ := mem_hexEncode hmem
  have hall : ∀ d ∈ ['0', '1', '2', '3', '4', '5', '6', '7', '8', '9', 'a', 'b', 'c', 'd', 'e',
      'f'], ¬(d = ':' ∨ d.isUpper = true) := by simp [Char.isUpper]
  exact hall _ (hexDigit_mem n) h

theorem length_hexEncode (bytes : List UInt8) :
    (hexEncode bytes).toList.length = 2 * bytes.length := by
  induction bytes with
  | nil => rfl
  | cons b bytes ih =>
      rw [toList_hexEncode_cons, List.length_cons, List.length_cons, ih, List.length_cons]
      omega

theorem length_toDigits_le (n : UInt32) : (Nat.toDigits 10 n.toNat).length ≤ 10 := by
  rw [Nat.length_toDigits_le_iff (by omega) (by omega)]
  have := n.toNat_lt
  omega

/-- `f` does not confuse `a` with `b`. -/
def Distinguishes {α β : Type*} (f : α → β) (a b : α) : Prop := f a = f b → a = b

end SereinGateway.Lib

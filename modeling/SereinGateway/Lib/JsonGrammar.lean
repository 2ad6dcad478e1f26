import Mathlib
import SereinGateway.Lib.JsonText

/-!
The grammar of JSON over scanned texts.

`step` is a pushdown automaton: the stack says for each open object or array
which of the two it is, and a document may not be nested deeper than a limit.
Strings are of any type and never looked at, so the automaton commutes with
every map of strings: `parse_map`.
-/

namespace SereinGateway.Lib.JsonText

/-! ### Tokens -/

inductive Token (σ : Type*) where
  | str (s : σ)
  | punct (c : Char)
  | scalar (text : List Char)
  | space

def punctuation : List Char := ['{', '}', '[', ']', ':', ',']

def spaces : List Char := [' ', '\t', '\n', '\r']

/-- The characters of numbers and of `null`, `true` and `false`. -/
def scalarChars : List Char :=
  ['0', '1', '2', '3', '4', '5', '6', '7', '8', '9', '+', '-', '.', 'e', 'E', 't', 'r', 'u', 'f',
    'a', 'l', 's', 'n']

/-- Group what stands outside of literals. -/
@[grind =] def tokens : List Piece → List (Token (List Item))
  | [] => []
  | .str items :: ps => .str items :: tokens ps
  | .raw c :: ps =>
      if c ∈ spaces then .space :: tokens ps
      else if c ∈ punctuation then .punct c :: tokens ps
      else
        match tokens ps with
        | .scalar text :: rest => .scalar (c :: text) :: rest
        | rest => .scalar [c] :: rest

/-- After the integer part of a number. -/
def isFraction (text : List Char) : Bool :=
  let exponent (text : List Char) : Bool :=
    match text with
    | [] => true
    | c :: text =>
        let digits := if text.head? = some '+' ∨ text.head? = some '-' then text.tail else text
        (c == 'e' || c == 'E') && (digits ≠ [] && digits.all Char.isDigit)
  match text with
  | '.' :: text =>
      text.takeWhile Char.isDigit ≠ [] && exponent (text.dropWhile Char.isDigit)
  | text => exponent text

def isNumber (text : List Char) : Bool :=
  let unsigned := if text.head? = some '-' then text.tail else text
  match unsigned with
  | [] => false
  | '0' :: text => isFraction text
  | c :: text => c.isDigit && isFraction (text.dropWhile Char.isDigit)

def isScalar (text : List Char) : Bool :=
  text.all (· ∈ scalarChars) &&
    (text = ['n', 'u', 'l', 'l'] || text = ['t', 'r', 'u', 'e'] ||
      text = ['f', 'a', 'l', 's', 'e'] || isNumber text)

example : isScalar ['-', '0', '.', '5', 'e', '+', '3'] = true ∧ isScalar ['0', '1'] = false := by
  decide

/-! ### The automaton -/

inductive Expect where
  | value
  | valueOrClose
  | key
  | keyOrClose
  | colon
  | separator
  | done
  deriving DecidableEq

/-- A value of the outermost object or array. -/
inductive Value (σ : Type*) where
  | str (s : σ)
  | scalar (text : List Char)
  | composite

inductive Kind where
  | object
  | array
  | plain
  deriving DecidableEq

/-- What is kept of a document. An element of an array has no key. -/
structure Document (σ : Type*) where
  kind : Kind
  entries : List (Option σ × Value σ)

/-- The stack has `true` for an object, the innermost first. -/
structure JsonState (σ : Type*) where
  stack : List Bool
  expect : Expect
  kind : Kind
  key : Option σ
  entries : List (Option σ × Value σ)

namespace JsonState

variable {σ : Type*}

def start : JsonState σ := ⟨[], .value, .plain, none, []⟩

/-- A value has been read. -/
def complete (v : Value σ) (st : JsonState σ) : JsonState σ :=
  match st.stack with
  | [] => { st with expect := .done }
  | [_] => { st with expect := .separator, key := none, entries := st.entries ++ [(st.key, v)] }
  | _ :: _ :: _ => { st with expect := .separator }

def enter (limit : ℕ) (object : Bool) (st : JsonState σ) : Option (JsonState σ) :=
  if st.stack.length < limit then
    some { st with
      stack := object :: st.stack
      expect := if object then .keyOrClose else .valueOrClose
      kind := if st.stack = [] then if object then .object else .array else st.kind }
  else none

def leave (object : Bool) (st : JsonState σ) : Option (JsonState σ) :=
  match st.stack with
  | [] => none
  | top :: stack =>
      if top = object then some (complete .composite { st with stack := stack }) else none

def step (limit : ℕ) (st : JsonState σ) : Token σ → Option (JsonState σ)
  | .space => some st
  | .str s =>
      if st.expect = .value ∨ st.expect = .valueOrClose then some (st.complete (.str s))
      else if st.expect = .key ∨ st.expect = .keyOrClose then
        some { st with
          expect := .colon
          key := if st.stack.length = 1 then some s else st.key }
      else none
  | .scalar text =>
      if (st.expect = .value ∨ st.expect = .valueOrClose) ∧ isScalar text = true then
        some (st.complete (.scalar text))
      else none
  | .punct c =>
      if c = '{' then
        if st.expect = .value ∨ st.expect = .valueOrClose then st.enter limit true else none
      else if c = '[' then
        if st.expect = .value ∨ st.expect = .valueOrClose then st.enter limit false else none
      else if c = '}' then
        if st.expect = .keyOrClose ∨ st.expect = .separator then st.leave true else none
      else if c = ']' then
        if st.expect = .valueOrClose ∨ st.expect = .separator then st.leave false else none
      else if c = ':' then
        if st.expect = .colon then some { st with expect := .value } else none
      else if st.expect = .separator then
        st.stack.head?.map fun object =>
          { st with expect := if object then .key else .value }
      else none

end JsonState

def parse {σ : Type*} (limit : ℕ) (toks : List (Token σ)) : Option (Document σ) :=
  (toks.foldlM (JsonState.step limit) .start).bind fun st =>
    if st.expect = .done then some ⟨st.kind, st.entries⟩ else none

/-! ### Strings are not looked at -/

section Map

variable {σ τ : Type*} (f : σ → τ)

def Token.map : Token σ → Token τ
  | .str s => .str (f s)
  | .punct c => .punct c
  | .scalar text => .scalar text
  | .space => .space

def Value.map : Value σ → Value τ
  | .str s => .str (f s)
  | .scalar text => .scalar text
  | .composite => .composite

def mapEntry (e : Option σ × Value σ) : Option τ × Value τ := (e.1.map f, e.2.map f)

def Document.map (d : Document σ) : Document τ := ⟨d.kind, d.entries.map (mapEntry f)⟩

def JsonState.map (st : JsonState σ) : JsonState τ :=
  ⟨st.stack, st.expect, st.kind, st.key.map f, st.entries.map (mapEntry f)⟩

def Piece.map (f : List Item → List Item) : Piece → Piece
  | .raw c => .raw c
  | .str items => .str (f items)

variable {f}

theorem JsonState.complete_map (v : Value σ) (st : JsonState σ) :
    (st.map f).complete (v.map f) = (st.complete v).map f := by
  obtain ⟨stack, expect, kind, key, entries⟩ := st
  rcases stack with _ | ⟨top, _ | ⟨next, stack⟩⟩
  · rfl
  · simp [complete, JsonState.map, mapEntry]
  · rfl

theorem JsonState.enter_map (limit : ℕ) (object : Bool) (st : JsonState σ) :
    (st.map f).enter limit object = (st.enter limit object).map (JsonState.map f) := by
  unfold enter
  rw [apply_ite (Option.map (JsonState.map f))]
  rfl

theorem JsonState.leave_map (object : Bool) (st : JsonState σ) :
    (st.map f).leave object = (st.leave object).map (JsonState.map f) := by
  obtain ⟨stack, expect, kind, key, entries⟩ := st
  cases stack with
  | nil => rfl
  | cons top stack =>
      show (if top = object then _ else _) = Option.map _ (if top = object then _ else _)
      rw [apply_ite (Option.map (JsonState.map f)), Option.map_some,
        ← JsonState.complete_map (v := .composite)]
      rfl

theorem JsonState.step_map (limit : ℕ) (st : JsonState σ) (t : Token σ) :
    (st.map f).step limit (t.map f) = (st.step limit t).map (JsonState.map f) := by
  have hexpect : (st.map f).expect = st.expect := rfl
  have hstack : (st.map f).stack = st.stack := rfl
  cases t with
  | space => rfl
  | str s =>
      simp only [step, Token.map, hexpect, hstack, apply_ite (Option.map (JsonState.map f)),
        Option.map_some, Option.map_none, ← JsonState.complete_map]
      congr 2
      simp only [JsonState.map, Option.some.injEq, JsonState.mk.injEq, true_and, and_true]
      split <;> rfl
  | scalar text =>
      simp only [step, Token.map, hexpect, apply_ite (Option.map (JsonState.map f)),
        Option.map_some, Option.map_none, ← JsonState.complete_map]
      rfl
  | punct c =>
      simp only [step, Token.map, hexpect, hstack, apply_ite (Option.map (JsonState.map f)),
        Option.map_some, Option.map_none, ← JsonState.enter_map, ← JsonState.leave_map,
        Option.map_map]
      rfl

theorem foldlM_step_map (limit : ℕ) (toks : List (Token σ)) (st : JsonState σ) :
    (toks.map (Token.map f)).foldlM (JsonState.step limit) (st.map f) =
      (toks.foldlM (JsonState.step limit) st).map (JsonState.map f) := by
  induction toks generalizing st with
  | nil => rfl
  | cons t toks ih =>
      rw [List.map_cons, List.foldlM_cons, List.foldlM_cons, JsonState.step_map]
      cases JsonState.step limit st t with
      | none => rfl
      | some st' => exact ih st'

theorem parse_map (limit : ℕ) (toks : List (Token σ)) :
    parse limit (toks.map (Token.map f)) = (parse limit toks).map (Document.map f) := by
  have hstart : (JsonState.start : JsonState τ) = JsonState.start.map f := rfl
  rw [parse, parse, hstart, foldlM_step_map]
  cases toks.foldlM (JsonState.step limit) JsonState.start with
  | none => rfl
  | some st =>
      simp only [Option.map_some, Option.bind_some, apply_ite (Option.map (Document.map f)),
        Option.map_none]
      rfl

theorem tokens_map (f : List Item → List Item) (pieces : List Piece) :
    tokens (pieces.map (Piece.map f)) = (tokens pieces).map (Token.map f) := by
  induction pieces with
  | nil => rfl
  | cons p pieces ih =>
      cases p with
      | str items => simp [tokens, Piece.map, Token.map, ih]
      | raw c =>
          rw [List.map_cons, Piece.map, tokens, tokens, ih]
          split
          · rfl
          · split
            · rfl
            · rcases tokens pieces with _ | ⟨t, rest⟩
              · rfl
              · cases t <;> rfl

end Map

/-! ### What may stand outside of literals -/

theorem isScalar_of_step {σ : Type*} {limit : ℕ} {st st' : JsonState σ} {text : List Char}
    (h : st.step limit (.scalar text) = some st') : isScalar text = true := by
  simp only [JsonState.step, Option.ite_none_right_eq_some] at h
  exact h.1.2

theorem isScalar_of_foldlM {σ : Type*} {limit : ℕ} {toks : List (Token σ)}
    {st st' : JsonState σ} (h : toks.foldlM (JsonState.step limit) st = some st') :
    ∀ text, .scalar text ∈ toks → isScalar text = true := by
  induction toks generalizing st with
  | nil => simp
  | cons t toks ih =>
      rw [List.foldlM_cons] at h
      obtain ⟨next, hnext, hrest⟩ := Option.bind_eq_some_iff.mp h
      intro text hmem
      rcases List.mem_cons.mp hmem with rfl | hmem
      · exact isScalar_of_step hnext
      · exact ih hrest text hmem

/-- Every character outside of literals is a space, a punctuation mark, or
belongs to a scalar. -/
theorem raw_mem_tokens {pieces : List Piece} {c : Char} (h : .raw c ∈ pieces) :
    c ∈ spaces ∨ c ∈ punctuation ∨ ∃ text, .scalar text ∈ tokens pieces ∧ c ∈ text := by
  induction pieces with
  | nil => simp at h
  | cons p pieces ih =>
      have htail : ∀ text, .scalar text ∈ tokens pieces →
          ∃ text', .scalar text' ∈ tokens (p :: pieces) ∧ text ⊆ text' := by
        intro text htext
        cases p with
        | str items => exact ⟨text, List.mem_cons_of_mem _ htext, List.Subset.refl text⟩
        | raw d =>
            rw [tokens]
            split
            · exact ⟨text, List.mem_cons_of_mem _ htext, List.Subset.refl text⟩
            · split
              · exact ⟨text, List.mem_cons_of_mem _ htext, List.Subset.refl text⟩
              · split
                · rename_i text' rest heq
                  rw [heq, List.mem_cons] at htext
                  rcases htext with htext | htext
                  · cases htext
                    exact ⟨_, List.mem_cons_self, List.subset_cons_self d text⟩
                  · exact ⟨text, List.mem_cons_of_mem _ htext, List.Subset.refl text⟩
                · exact ⟨text, List.mem_cons_of_mem _ htext, List.Subset.refl text⟩
      rcases List.mem_cons.mp h with rfl | hmem
      · rw [tokens]
        by_cases hspace : c ∈ spaces
        · exact .inl hspace
        · by_cases hpunct : c ∈ punctuation
          · exact .inr (.inl hpunct)
          · rw [if_neg hspace, if_neg hpunct]
            right
            right
            split
            · exact ⟨_, List.mem_cons_self, List.mem_cons_self⟩
            · exact ⟨_, List.mem_cons_self, List.mem_cons_self⟩
      · rcases ih hmem with hspace | hpunct | ⟨text, htext, hc⟩
        · exact .inl hspace
        · exact .inr (.inl hpunct)
        · obtain ⟨text', htext', hsub⟩ := htail text htext
          exact .inr (.inr ⟨text', htext', hsub hc⟩)

theorem raw_alphabet {limit : ℕ} {pieces : List Piece} {d : Document (List Item)}
    (h : parse limit (tokens pieces) = some d) {c : Char} (hc : .raw c ∈ pieces) :
    c ∈ spaces ∨ c ∈ punctuation ∨ c ∈ scalarChars := by
  obtain ⟨st, hrun, -⟩ := Option.bind_eq_some_iff.mp h
  rcases raw_mem_tokens hc with hspace | hpunct | ⟨text, htext, hmem⟩
  · exact .inl hspace
  · exact .inr (.inl hpunct)
  · have hscalar := isScalar_of_foldlM hrun text htext
    rw [isScalar, Bool.and_eq_true] at hscalar
    have hall := List.all_eq_true.mp hscalar.1 c hmem
    exact .inr (.inr (of_decide_eq_true hall))

theorem ne_nil_of_parse {σ : Type*} {limit : ℕ} {toks : List (Token σ)} {d : Document σ}
    (h : parse limit toks = some d) : toks ≠ [] := by
  rintro rfl
  simp [parse, JsonState.start] at h

end SereinGateway.Lib.JsonText

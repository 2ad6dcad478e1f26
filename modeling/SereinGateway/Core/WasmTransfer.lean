import Mathlib
import SereinGateway.Lib.Text

/-!
`sanitize_for_wasm_transfer`: texts for a WASM guest.

White space is trimmed, marks that are not seen are stripped from the beginning, and
control characters become spaces, which are trimmed once more. Nothing is stripped
after that, so a mark behind white space or control characters, and these behind the
beginning or behind other marks, comes to the front and stays.
-/

namespace SereinGateway.Core

open SereinGateway.Lib

def isControl (c : Char) : Bool := c.toNat < 0x20 || (0x7F ≤ c.toNat && c.toNat < 0xA0)

/-- A byte-order mark or a zero-width space. -/
def isMark (c : Char) : Bool := c == '\uFEFF' || c == '\u200B'

/-- A control character that becomes a space. -/
def isReplaced (c : Char) : Bool := isControl c && c != '\n' && c != '\r' && c != '\t'

def spaced (c : Char) : Char := if isReplaced c then ' ' else c

def sanitizeForWasmTransfer (input : String) : String :=
  let stripped := (trim input).toList.dropWhile isMark
  trim (.ofList (stripped.map spaced))

example : sanitizeForWasmTransfer "\uFEFF\u200B  \x7b\"key\": \"value\"\x7d  \x00\x01" =
    "\x7b\"key\": \"value\"\x7d" := by decide

/-- What a guest may be given. -/
structure Transferable (s : String) : Prop where
  mark : ∀ c ∈ s.toList.head?, isMark c = false
  control : ∀ c ∈ s.toList, isReplaced c = false
  trimmed : trim s = s

def isBlank (c : Char) : Bool := isWhitespace c || isControl c

/-- The text behind the white space and the marks at its beginning, and the blank
characters that follow them. -/
def behindMarks (s : String) : List Char :=
  ((s.toList.dropWhile isWhitespace).dropWhile isMark).dropWhile isBlank

/-! ### Characters -/

section Characters

variable {c : Char}

theorem isWhitespace_spaced (c : Char) : isWhitespace (spaced c) = isBlank c := by
  unfold spaced isBlank
  split
  · rename_i hreplaced
    rw [isReplaced, Bool.and_eq_true, Bool.and_eq_true, Bool.and_eq_true] at hreplaced
    rw [hreplaced.1.1.1, Bool.or_true]
    decide
  · rename_i hkept
    cases hcontrol : isControl c with
    | false => rw [Bool.or_false]
    | true =>
        rw [isReplaced, hcontrol, Bool.true_and] at hkept
        have hline : c = '\n' ∨ c = '\r' ∨ c = '\t' := by
          by_contra hother
          rw [not_or, not_or] at hother
          exact hkept (by simp [hother])
        rw [Bool.or_true]
        rcases hline with rfl | rfl | rfl <;> decide

theorem isReplaced_spaced (c : Char) : isReplaced (spaced c) = false := by
  unfold spaced
  split
  · decide
  · rename_i hkept
    exact Bool.eq_false_iff.mpr hkept

theorem spaced_of_not_replaced (h : isReplaced c = false) : spaced c = c := by
  rw [spaced, h]
  rfl

theorem isReplaced_of_not_blank (h : isBlank c = false) : isReplaced c = false := by
  rw [isBlank, Bool.or_eq_false_iff] at h
  rw [isReplaced, h.2]
  rfl

theorem isMark_of_isWhitespace (h : isWhitespace c = true) : isMark c = false := by
  unfold isMark
  rw [Bool.or_eq_false_iff, beq_eq_false_iff_ne, beq_eq_false_iff_ne]
  constructor <;> rintro rfl <;> revert h <;> decide

end Characters

/-! ### The beginning of the result -/

section Beginning

variable {x t : List Char}

/-- White space at the end of a text is not behind its marks. -/
theorem head?_dropWhile_append (ht : ∀ c ∈ t, isWhitespace c = true) :
    (((x ++ t).dropWhile isMark).dropWhile isBlank).head? =
      ((x.dropWhile isMark).dropWhile isBlank).head? := by
  have hblank : t.dropWhile isBlank = [] := by
    rw [List.dropWhile_eq_nil_iff]
    intro c hc
    rw [isBlank, ht c hc, Bool.true_or]
  have hmark : t.dropWhile isMark = t := by
    cases t with
    | nil => rfl
    | cons c t =>
        have hfirst := isMark_of_isWhitespace (ht c List.mem_cons_self)
        exact List.dropWhile_cons_of_neg (by simp [hfirst])
  rw [List.dropWhile_append]
  split
  · rename_i hempty
    rw [hmark, hblank, List.isEmpty_iff.mp hempty]
    rfl
  · rw [List.dropWhile_append]
    split
    · rename_i hempty
      rw [hblank, List.isEmpty_iff.mp hempty]
    · rename_i hne
      exact List.head?_append_of_ne_nil _ (by simpa using hne)

/-- A text that is trimmed begins as it does without white space in front. -/
theorem head?_rdropWhile (hx : x.dropWhile isWhitespace = x) :
    (x.rdropWhile isWhitespace).head? = x.head? := by
  cases x with
  | nil => rfl
  | cons c x =>
      have hc : isWhitespace c = false := by
        by_contra hspace
        rw [Bool.not_eq_false] at hspace
        rw [List.dropWhile_cons_of_pos hspace] at hx
        have hlen := (List.dropWhile_sublist (l := x) isWhitespace).length_le
        rw [hx, List.length_cons] at hlen
        omega
      have hsplit : (c :: x).rdropWhile isWhitespace ++ (c :: x).rtakeWhile isWhitespace = c :: x :=
        List.rdropWhile_append_rtakeWhile
      cases hkept : (c :: x).rdropWhile isWhitespace with
      | nil =>
          have hall := List.rdropWhile_eq_nil_iff.mp hkept c List.mem_cons_self
          rw [hc] at hall
          cases hall
      | cons d y =>
          rw [hkept] at hsplit
          rw [List.head?_cons, List.head?_cons, (List.cons.inj hsplit).1]

end Beginning

/-! ### The result -/

section Result

variable {s : String}

theorem toList_sanitize (s : String) : (sanitizeForWasmTransfer s).toList =
    ((((trim s).toList.dropWhile isMark).dropWhile isBlank).map spaced).rdropWhile
      isWhitespace := by
  have hblank : (isWhitespace ∘ spaced) = isBlank := funext isWhitespace_spaced
  simp only [sanitizeForWasmTransfer]
  rw [trim, trimEnd, trimStart, String.toList_ofList, String.toList_ofList, String.toList_ofList,
    List.dropWhile_map, hblank]

theorem head?_sanitize (s : String) :
    (sanitizeForWasmTransfer s).toList.head? = (behindMarks s).head? := by
  have htrim : (trim s).toList = (s.toList.dropWhile isWhitespace).rdropWhile isWhitespace := by
    rw [trim, trimEnd, trimStart, String.toList_ofList, String.toList_ofList]
  have hkept := head?_dropWhile_append
    (x := (s.toList.dropWhile isWhitespace).rdropWhile isWhitespace)
    (t := (s.toList.dropWhile isWhitespace).rtakeWhile isWhitespace) fun _ =>
      List.mem_rtakeWhile_imp
  rw [List.rdropWhile_append_rtakeWhile, ← htrim] at hkept
  rw [behindMarks, hkept, toList_sanitize]
  generalize (trim s).toList.dropWhile isMark = y
  have hstart : ((y.dropWhile isBlank).map spaced).dropWhile isWhitespace =
      (y.dropWhile isBlank).map spaced := by
    have hblank : (isWhitespace ∘ spaced) = isBlank := funext isWhitespace_spaced
    rw [List.dropWhile_map, hblank, List.dropWhile_idempotent]
  rw [head?_rdropWhile hstart, List.head?_map]
  have hfirst := List.head?_dropWhile_not isBlank y
  cases hhead : (y.dropWhile isBlank).head? with
  | none => rfl
  | some c =>
      rw [hhead] at hfirst
      rw [Option.map_some, spaced_of_not_replaced (isReplaced_of_not_blank hfirst)]

theorem not_replaced_of_mem {c : Char} (hc : c ∈ (sanitizeForWasmTransfer s).toList) :
    isReplaced c = false := by
  rw [toList_sanitize] at hc
  obtain ⟨d, -, rfl⟩ := List.mem_map.mp ((List.rdropWhile_prefix _ _).subset hc)
  exact isReplaced_spaced d

theorem trim_sanitize (s : String) :
    trim (sanitizeForWasmTransfer s) = sanitizeForWasmTransfer s := trim_trim _

theorem Transferable.sanitize_eq (h : Transferable s) : sanitizeForWasmTransfer s = s := by
  have hmark : s.toList.dropWhile isMark = s.toList := by
    cases hlist : s.toList with
    | nil => rfl
    | cons c rest =>
        have hfirst := h.mark c (by rw [hlist]; rfl)
        exact List.dropWhile_cons_of_neg (by simp [hfirst])
  have hspaced : s.toList.map spaced = s.toList :=
    (List.map_congr_left fun c hc => spaced_of_not_replaced (h.control c hc)).trans
      (List.map_id _)
  simp only [sanitizeForWasmTransfer]
  rw [h.trimmed, hmark, hspaced, String.ofList_toList, h.trimmed]

/-- The result may be given to a guest, and stays as it is, exactly if no mark comes
behind the first ones and what is blank behind them. -/
theorem sanitizeForWasmTransfer_stable_iff (s : String) :
    (Transferable (sanitizeForWasmTransfer s) ∧
        sanitizeForWasmTransfer (sanitizeForWasmTransfer s) = sanitizeForWasmTransfer s) ↔
      ∀ c ∈ (behindMarks s).head?, isMark c = false := by
  rw [← head?_sanitize]
  constructor
  · intro h
    exact h.1.mark
  · intro hmark
    have hclean : Transferable (sanitizeForWasmTransfer s) :=
      ⟨hmark, fun _ => not_replaced_of_mem, trim_sanitize s⟩
    exact ⟨hclean, hclean.sanitize_eq⟩

/-- A mark, a space and another mark. -/
theorem sanitizeForWasmTransfer_second_mark :
    ¬∀ s : String, Transferable (sanitizeForWasmTransfer s) ∧
      sanitizeForWasmTransfer (sanitizeForWasmTransfer s) = sanitizeForWasmTransfer s := by
  intro h
  have hmark := (h "\uFEFF \uFEFFx").1.mark '\uFEFF' (by decide)
  revert hmark
  decide

end Result

end SereinGateway.Core

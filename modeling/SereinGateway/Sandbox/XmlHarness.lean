import Mathlib
import SereinGateway.Lib.Matcher
import SereinGateway.Lib.Replace

/-!
`XmlHarnessExtractor`: tool invocations as tags.

The name of a tool is a word, so a name with other characters in it is not read back.
The body goes to the first closing tag, of whatever tool, and the names of the two
tags are compared after the match.
-/

namespace SereinGateway.Sandbox

open SereinGateway.Lib

inductive XmlHarnessError where
  | noInvocationTagFound
  | malformedTag (message : String)
  deriving DecidableEq

structure XmlInvocation where
  toolName : List Char
  /-- With one entry for each key. -/
  parameters : List (List Char × List Char)
  rawXml : List Char
  body : List Char
  deriving DecidableEq

/-- `<invoke_` -/
def openingMark : List Char := ['<', 'i', 'n', 'v', 'o', 'k', 'e', '_']

/-- `</invoke_` -/
def closingMark : List Char := ['<', '/', 'i', 'n', 'v', 'o', 'k', 'e', '_']

/-- The groups of `opening_tag_regex`. -/
structure InvocationCaptures where
  tool : List Char
  attrs : List Char
  body : List Char
  closingTool : List Char

/-- `caps.get(0)` -/
def InvocationCaptures.text (caps : InvocationCaptures) : List Char :=
  openingMark ++ (caps.tool ++ (caps.attrs ++ ['>'] ++
    (caps.body ++ (closingMark ++ (caps.closingTool ++ ['>'])))))

/-- `</invoke_(?P<closing_tool>\w+)>` -/
def closingTag (cls : CharClasses) : Matcher Char (List Char) := do
  .literal closingMark
  let closingTool ← .many1 cls.word
  .literal ['>']
  pure closingTool

/-- `(?s)<invoke_(?P<tool>\w+)(?P<attrs>[^>]*)>(?P<body>.*?)</invoke_(?P<closing_tool>\w+)>` -/
def openingTagRegex (cls : CharClasses) : Matcher Char InvocationCaptures := do
  .literal openingMark
  let tool ← .many1 cls.word
  let attrs ← .many fun c => c != '>'
  .literal ['>']
  let (body, closingTool) ← (closingTag cls).lazily
  pure ⟨tool, attrs, body, closingTool⟩

/-- `(?P<key>\w+)\s*=\s*"(?P<value>[^"]*)"` -/
def paramRegex (cls : CharClasses) : Matcher Char (List Char × List Char) := do
  let key ← .many1 cls.word
  let _ ← .many isWhitespace
  .literal ['=']
  let _ ← .many isWhitespace
  .literal ['"']
  let value ← .many fun c => c != '"'
  .literal ['"']
  pure (key, value)

/-- `HashMap::insert` -/
def insertParam (params : List (List Char × List Char)) (param : List Char × List Char) :
    List (List Char × List Char) :=
  params.filter (fun p => p.1 != param.1) ++ [param]

theorem mem_paramRegex {cls : CharClasses} {k v s t : List Char}
    (h : ((k, v), t) ∈ paramRegex cls s) : k ≠ [] ∧ ∃ gap gap',
      s = k ++ (gap ++ '=' :: (gap' ++ '"' :: (v ++ '"' :: t))) := by
  obtain ⟨key, s₁, hkey, h₁⟩ := Matcher.mem_bind.mp h
  obtain ⟨gap, s₂, hgap, h₂⟩ := Matcher.mem_bind.mp h₁
  obtain ⟨_, s₃, heq, h₃⟩ := Matcher.mem_bind.mp h₂
  obtain ⟨gap', s₄, hgap', h₄⟩ := Matcher.mem_bind.mp h₃
  obtain ⟨_, s₅, hopen, h₅⟩ := Matcher.mem_bind.mp h₄
  obtain ⟨value, s₆, hvalue, h₆⟩ := Matcher.mem_bind.mp h₅
  obtain ⟨_, s₇, hclose, h₇⟩ := Matcher.mem_bind.mp h₆
  cases Matcher.mem_pure.mp h₇
  refine ⟨(Matcher.mem_many1.mp hkey).2.1, gap, gap', ?_⟩
  rw [(Matcher.mem_many1.mp hkey).1, (Matcher.mem_many.mp hgap).1, Matcher.mem_literal.mp heq,
    (Matcher.mem_many.mp hgap').1, Matcher.mem_literal.mp hopen, (Matcher.mem_many.mp hvalue).1,
    Matcher.mem_literal.mp hclose]
  rfl

theorem consumes_paramRegex (cls : CharClasses) : (paramRegex cls).Consumes := by
  rintro s ⟨⟨k, v⟩, t⟩ h
  obtain ⟨-, gap, gap', rfl⟩ := mem_paramRegex h
  simp only [List.length_append, List.length_cons]
  omega

/-- `captures_iter` -/
def capturedParams (cls : CharClasses) (text : List Char) : List (List Char × List Char) :=
  (((paramRegex cls).finder (consumes_paramRegex cls)).scan [] text).filterMap fun
    | .plain _ => none
    | .hit found => some found.1

/-- `replace(['\n', '\r', '\t'], " ")` -/
def oneLine (body : List Char) : List Char :=
  body.map fun c => if c = '\n' ∨ c = '\r' ∨ c = '\t' then ' ' else c

def extractParameters (cls : CharClasses) (body : List Char) : List (List Char × List Char) :=
  let params := (capturedParams cls body).foldl insertParam []
  let trimmed := trim (.ofList body)
  if params.isEmpty ∧ ¬trimmed.isEmpty then
    let stripped := trim (.ofList (oneLine trimmed.toList))
    if stripped.isEmpty then params else insertParam params ("_raw_body".toList, stripped.toList)
  else params

def extractInvocation (cls : CharClasses) (llmOutput : String) :
    Except XmlHarnessError XmlInvocation :=
  match (openingTagRegex cls).search (trim llmOutput).toList with
  | none => .error .noInvocationTagFound
  | some (caps, _) =>
      if caps.tool ≠ caps.closingTool then
        .error (.malformedTag ("Tag mismatch: opening <invoke_" ++ .ofList caps.tool ++
          "> does not match closing </invoke_" ++ .ofList caps.closingTool ++ ">"))
      else if caps.tool.isEmpty then
        .error (.malformedTag "Empty tool name in invocation tag")
      else
        let parameters := extractParameters cls caps.body
        .ok ⟨caps.tool, (capturedParams cls caps.attrs).foldl insertParam parameters, caps.text,
          caps.body⟩

/-! ### The documented format -/

def paramLine (param : List Char × List Char) : List Char :=
  ' ' :: ' ' :: (param.1 ++ '=' :: '"' :: (param.2 ++ ['"', '\n']))

def renderedBody (params : List (List Char × List Char)) : List Char :=
  '\n' :: params.flatMap paramLine

/-- The invocation as the prompt asks for it. -/
def renderInvocation (tool : List Char) (params : List (List Char × List Char)) : List Char :=
  openingMark ++ (tool ++ '>' :: (renderedBody params ++ (closingMark ++ (tool ++ ['>']))))

/-- `\w+` -/
def IsWord (cls : CharClasses) (w : List Char) : Prop := w ≠ [] ∧ ∀ c ∈ w, cls.word c = true

/-- The parameters that the format is for. -/
structure Renderable (cls : CharClasses) (params : List (List Char × List Char)) : Prop where
  keys : (params.map (·.1)).Nodup
  word : ∀ p ∈ params, IsWord cls p.1
  quoted : ∀ p ∈ params, '"' ∉ p.2
  closed : ∀ p ∈ params, ¬closingMark <:+: p.2

variable {cls : CharClasses} {tool key value s t : List Char}
  {params : List (List Char × List Char)} {caps : InvocationCaptures}

/-! ### Reading a line back -/

theorem head?_paramRegex (hkey : IsWord cls key) (hvalue : '"' ∉ value) :
    (paramRegex cls (key ++ '=' :: '"' :: (value ++ '"' :: t))).head? = some ((key, value), t) := by
  have heq : cls.word '=' = false := cls.ascii_word '=' (by decide)
  have hclosed : ∀ d ∈ value, (d != '"') = true := fun d hd =>
    bne_iff_ne.mpr fun h => hvalue (h ▸ hd)
  refine Matcher.head?_bind (Matcher.head?_many1 hkey.1 hkey.2 heq) ?_
  refine Matcher.head?_bind (Matcher.head?_many (w := []) (List.forall_mem_nil _) (by decide)) ?_
  refine Matcher.head?_bind (Matcher.head?_literal (l := ['='])) ?_
  refine Matcher.head?_bind (Matcher.head?_many (w := []) (List.forall_mem_nil _) (by decide)) ?_
  refine Matcher.head?_bind (Matcher.head?_literal (l := ['"'])) ?_
  refine Matcher.head?_bind (Matcher.head?_many hclosed (by decide)) ?_
  exact Matcher.head?_bind (Matcher.head?_literal (l := ['"'])) rfl

theorem capturedParams_nil : capturedParams cls [] = [] := rfl

/-- A search goes past what is no part of a word. -/
theorem scan_param_plain {left : List Char} {c : Char} (hc : cls.word c = false) (s : List Char) :
    ((paramRegex cls).finder (consumes_paramRegex cls)).scan left (c :: s) =
      .plain c :: ((paramRegex cls).finder (consumes_paramRegex cls)).scan (c :: left) s := by
  refine Finder.scan_plain ?_
  change Option.map _ (((Matcher.many1 cls.word (c :: s)).flatMap _).head?) = none
  rw [Matcher.many1_eq_nil hc]
  rfl

theorem scan_param_hit {left : List Char} (hkey : IsWord cls key) (hvalue : '"' ∉ value)
    (t : List Char) : ∃ left',
    ((paramRegex cls).finder (consumes_paramRegex cls)).scan left
        (key ++ '=' :: '"' :: (value ++ '"' :: t)) =
      .hit ((key, value), key ++ '=' :: '"' :: (value ++ ['"'])) ::
        ((paramRegex cls).finder (consumes_paramRegex cls)).scan left' t := by
  have htext : key ++ '=' :: '"' :: (value ++ '"' :: t) =
      (key ++ '=' :: '"' :: (value ++ ['"'])) ++ t := by simp
  have hfind : ((paramRegex cls).finder (consumes_paramRegex cls)).find left
      (key ++ '=' :: '"' :: (value ++ '"' :: t)) =
      some ((key, value), key ++ '=' :: '"' :: (value ++ ['"'])) := by
    change Option.map _ (paramRegex cls _).head? = _
    rw [head?_paramRegex hkey hvalue, Option.map_some, htext, List.length_append,
      Nat.add_sub_cancel, List.take_left]
  rw [htext] at hfind ⊢
  exact ⟨_, Finder.scan_hit (b := ((key, value), key ++ '=' :: '"' :: (value ++ ['"']))) hfind⟩

theorem Renderable.tail {p : List Char × List Char} (h : Renderable cls (p :: params)) :
    Renderable cls params where
  keys := (List.nodup_cons.mp h.keys).2
  word q hq := h.word q (List.mem_cons_of_mem p hq)
  quoted q hq := h.quoted q (List.mem_cons_of_mem p hq)
  closed q hq := h.closed q (List.mem_cons_of_mem p hq)

/-- The parameters of a body are read line by line. -/
theorem capturedParams_renderedBody (hparams : Renderable cls params) :
    capturedParams cls (renderedBody params) = params := by
  have hnewline : cls.word '\n' = false := cls.ascii_word '\n' (by decide)
  have hspace : cls.word ' ' = false := cls.ascii_word ' ' (by decide)
  unfold capturedParams
  generalize ([] : List Char) = left
  induction params generalizing left with
  | nil =>
      rw [renderedBody, scan_param_plain hnewline]
      rfl
  | cons p params ih =>
      obtain ⟨key, value⟩ := p
      have hbody : renderedBody ((key, value) :: params) =
          '\n' :: ' ' :: ' ' :: (key ++ '=' :: '"' :: (value ++ '"' :: renderedBody params)) := by
        simp [renderedBody, paramLine]
      obtain ⟨left', hhit⟩ := @scan_param_hit cls key value (' ' :: ' ' :: '\n' :: left)
        (hparams.word _ List.mem_cons_self) (hparams.quoted _ List.mem_cons_self)
        (renderedBody params)
      rw [hbody, scan_param_plain hnewline, scan_param_plain hspace, scan_param_plain hspace, hhit]
      exact congrArg ((key, value) :: ·) (ih hparams.tail left')

theorem foldl_insertParam (seen : List (List Char × List Char))
    (hkeys : ((seen ++ params).map (·.1)).Nodup) :
    params.foldl insertParam seen = seen ++ params := by
  induction params generalizing seen with
  | nil => exact (List.append_nil seen).symm
  | cons p params ih =>
      have hnew : ∀ q ∈ seen, (q.1 != p.1) = true := by
        intro q hq
        rw [List.map_append, List.map_cons] at hkeys
        refine bne_iff_ne.mpr fun heq => ?_
        exact (List.nodup_append.mp hkeys).2.2 _ (List.mem_map_of_mem hq) _ List.mem_cons_self heq
      rw [List.foldl_cons, insertParam, List.filter_eq_self.mpr hnew]
      rw [ih (seen ++ [p]) (by rwa [List.append_assoc]), List.append_assoc]
      rfl

theorem extractParameters_renderedBody (hparams : Renderable cls params) :
    extractParameters cls (renderedBody params) = params := by
  unfold extractParameters
  rw [capturedParams_renderedBody hparams, foldl_insertParam [] hparams.keys, List.nil_append]
  refine if_neg fun h => ?_
  obtain rfl : params = [] := List.isEmpty_iff.mp h.1
  exact h.2 (by decide)

/-! ### The closing tag -/

theorem not_infix_of_notMem {x : List Char} (h : '<' ∉ x) : ¬closingMark <:+: x := fun hfound =>
  h (hfound.subset List.mem_cons_self)

theorem not_mem_of_isWord (hword : IsWord cls key) {c : Char} (hc : cls.word c = false) : c ∉ key :=
  fun hmem => by simp [hword.2 c hmem] at hc

theorem not_infix_renderedBody (hparams : Renderable cls params) :
    ¬closingMark <:+: renderedBody params := by
  induction params with
  | nil => exact not_infix_of_notMem (by decide)
  | cons p params ih =>
      obtain ⟨key, value⟩ := p
      have hbody : renderedBody ((key, value) :: params) =
          ('\n' :: ' ' :: ' ' :: (key ++ ['='])) ++
            '"' :: (value ++ '"' :: renderedBody params) := by
        simp [renderedBody, paramLine]
      have hangle : '<' ∉ key := not_mem_of_isWord (hparams.word _ List.mem_cons_self)
        (cls.ascii_word '<' (by decide))
      rw [hbody]
      intro h
      rcases infix_append_cons (by decide) h with hkey | h
      · exact not_infix_of_notMem (by simp [hangle]) hkey
      · rcases infix_append_cons (by decide) h with hvalue | hrest
        · exact hparams.closed _ List.mem_cons_self hvalue
        · exact ih hparams.tail hrest

theorem last_renderedBody (params : List (List Char × List Char)) :
    ∃ x, renderedBody params = x ++ ['\n'] := by
  induction params using List.reverseRecOn with
  | nil => exact ⟨[], rfl⟩
  | append_singleton params p _ =>
      refine ⟨renderedBody params ++ ' ' :: ' ' :: (p.1 ++ '=' :: '"' :: (p.2 ++ ['"'])), ?_⟩
      simp [renderedBody, paramLine]

theorem head?_closingTag (htool : IsWord cls tool) :
    (closingTag cls (closingMark ++ (tool ++ ['>']))).head? = some (tool, []) := by
  have hangle : cls.word '>' = false := cls.ascii_word '>' (by decide)
  refine Matcher.head?_bind Matcher.head?_literal ?_
  refine Matcher.head?_bind (Matcher.head?_many1 htool.1 htool.2 hangle) ?_
  exact Matcher.head?_bind (Matcher.head?_literal (l := ['>'])) rfl

theorem closingTag_eq_nil (hparams : Renderable cls params) {x y : List Char}
    (hbody : renderedBody params = x ++ y) (hy : y ≠ []) : closingTag cls (y ++ s) = [] := by
  obtain ⟨z, d, rfl⟩ := (List.eq_nil_or_concat y).resolve_left hy
  obtain ⟨w, hw⟩ := last_renderedBody params
  rw [hw, List.concat_eq_append, ← List.append_assoc] at hbody
  obtain ⟨rfl⟩ : ['\n'] = [d] := List.append_inj_right' hbody rfl
  have hmark : ¬closingMark <+: z.concat '\n' ++ s := by
    intro hstarts
    rw [List.concat_eq_append, List.append_assoc] at hstarts
    have hz : closingMark <+: z := prefix_of_prefix_append_cons (by decide) hstarts
    refine not_infix_renderedBody hparams ?_
    rw [hw, hbody, List.append_assoc]
    exact hz.isInfix.trans ((List.prefix_append z _).isInfix.trans (List.suffix_append x _).isInfix)
  change (Matcher.literal closingMark (z.concat '\n' ++ s)).flatMap _ = []
  rw [Matcher.literal_eq_nil hmark]
  rfl

theorem head?_openingTagRegex (htool : IsWord cls tool) (hparams : Renderable cls params) :
    (openingTagRegex cls (renderInvocation tool params)).head? =
      some (⟨tool, [], renderedBody params, tool⟩, []) := by
  have hangle : cls.word '>' = false := cls.ascii_word '>' (by decide)
  have hbody : ((closingTag cls).lazily
      (renderedBody params ++ (closingMark ++ (tool ++ ['>'])))).head? =
        some ((renderedBody params, tool), []) :=
    Matcher.head?_lazily (fun x y hbody hy => closingTag_eq_nil hparams hbody hy)
      (head?_closingTag htool)
  refine Matcher.head?_bind Matcher.head?_literal ?_
  refine Matcher.head?_bind (Matcher.head?_many1 htool.1 htool.2 hangle) ?_
  refine Matcher.head?_bind (Matcher.head?_many (w := []) (List.forall_mem_nil _) (by decide)) ?_
  refine Matcher.head?_bind (Matcher.head?_literal (l := ['>'])) ?_
  exact Matcher.head?_bind hbody rfl

theorem trim_renderInvocation {before after : String} (hbefore : Blank before)
    (hafter : Blank after) (tool : List Char) (params : List (List Char × List Char)) :
    (trim (before ++ .ofList (renderInvocation tool params) ++ after)).toList =
      renderInvocation tool params := by
  have htext : (String.ofList (renderInvocation tool params)).toList =
      '<' :: (['i', 'n', 'v', 'o', 'k', 'e', '_'] ++ (tool ++ '>' :: (renderedBody params ++
        (closingMark ++ tool))) ++ ['>']) := by
    simp [renderInvocation, openingMark]
  have hself := trim_eq_self htext (by decide) (by decide)
  rw [trim_padded hbefore _ hafter, hself, String.toList_ofList]

/-! ### What is extracted -/

theorem mem_closingTag {name : List Char} : (name, t) ∈ closingTag cls s ↔
    s = closingMark ++ (name ++ '>' :: t) ∧ IsWord cls name := by
  constructor
  · intro h
    obtain ⟨_, s₁, hmark, h₁⟩ := Matcher.mem_bind.mp h
    obtain ⟨name', s₂, hname, h₂⟩ := Matcher.mem_bind.mp h₁
    obtain ⟨_, s₃, hangle, h₃⟩ := Matcher.mem_bind.mp h₂
    cases Matcher.mem_pure.mp h₃
    obtain ⟨hname, hword⟩ := Matcher.mem_many1.mp hname
    rw [Matcher.mem_literal.mp hmark, hname, Matcher.mem_literal.mp hangle]
    exact ⟨rfl, hword⟩
  · rintro ⟨rfl, hword⟩
    refine Matcher.mem_bind.mpr ⟨(), _, Matcher.mem_literal.mpr rfl, ?_⟩
    refine Matcher.mem_bind.mpr ⟨name, _, Matcher.mem_many1.mpr ⟨rfl, hword⟩, ?_⟩
    exact Matcher.mem_bind.mpr ⟨(), _, Matcher.mem_literal.mpr rfl, Matcher.mem_pure.mpr rfl⟩

/-- What is captured behind the name of the tool. -/
def restOfTag (cls : CharClasses) (tool : List Char) : Matcher Char InvocationCaptures := do
  let attrs ← .many fun c => c != '>'
  .literal ['>']
  let (body, closingTool) ← (closingTag cls).lazily
  pure ⟨tool, attrs, body, closingTool⟩

theorem mem_restOfTag : (caps, t) ∈ restOfTag cls tool s ↔ caps.tool = tool ∧
    s = caps.attrs ++ '>' :: (caps.body ++ (closingMark ++ (caps.closingTool ++ '>' :: t))) ∧
      '>' ∉ caps.attrs ∧ IsWord cls caps.closingTool := by
  constructor
  · intro h
    obtain ⟨attrs, s₁, hattrs, h₁⟩ := Matcher.mem_bind.mp h
    obtain ⟨_, s₂, hangle, h₂⟩ := Matcher.mem_bind.mp h₁
    obtain ⟨⟨body, closingTool⟩, s₃, hbody, h₃⟩ := Matcher.mem_bind.mp h₂
    cases Matcher.mem_pure.mp h₃
    obtain ⟨s₄, hrest, hclosing⟩ := Matcher.mem_lazily.mp hbody
    obtain ⟨hmark, hword⟩ := mem_closingTag.mp hclosing
    obtain ⟨hattrs, hall⟩ := Matcher.mem_many.mp hattrs
    rw [hattrs, Matcher.mem_literal.mp hangle, hrest, hmark]
    exact ⟨rfl, rfl, fun hmem => absurd rfl (bne_iff_ne.mp (hall _ hmem)), hword⟩
  · rintro ⟨rfl, rfl, hattrs, hword⟩
    have hall : ∀ c ∈ caps.attrs, (c != '>') = true := fun c hc =>
      bne_iff_ne.mpr fun h => hattrs (h ▸ hc)
    refine Matcher.mem_bind.mpr ⟨caps.attrs, _, Matcher.mem_many.mpr ⟨rfl, hall⟩, ?_⟩
    refine Matcher.mem_bind.mpr ⟨(), _, Matcher.mem_literal.mpr rfl, ?_⟩
    refine Matcher.mem_bind.mpr ⟨(caps.body, caps.closingTool), _, ?_, Matcher.mem_pure.mpr rfl⟩
    exact Matcher.mem_lazily.mpr ⟨_, rfl, mem_closingTag.mpr ⟨rfl, hword⟩⟩

/-- What the groups of a match say about the text. The name of the tool goes as far as
it can. -/
theorem openingTagRegex_spec (h : (openingTagRegex cls s).head? = some (caps, t)) :
    s = caps.text ++ t ∧ IsWord cls caps.tool ∧ '>' ∉ caps.attrs ∧
      ∀ c ∈ caps.attrs.head?, cls.word c = false := by
  have hmark : openingMark <+: s := by
    by_contra hnot
    change ((Matcher.literal openingMark s).flatMap _).head? = _ at h
    rw [Matcher.literal_eq_nil hnot] at h
    cases h
  obtain ⟨s₁, rfl⟩ := hmark
  have htool : ((Matcher.many1 cls.word >>= restOfTag cls) s₁).head? = some (caps, t) := by
    rw [openingTagRegex, Matcher.literal_bind] at h
    exact h
  obtain ⟨tool, s₂, hmem, hhead, hmax⟩ := Matcher.exists_longest htool
  obtain ⟨rfl, rfl, hattrs, hclosing⟩ := mem_restOfTag.mp (List.mem_of_mem_head? hhead)
  obtain ⟨rfl, hword⟩ := Matcher.mem_many1.mp hmem
  refine ⟨by simp [InvocationCaptures.text], hword, hattrs, fun c hc => ?_⟩
  by_contra hlonger
  obtain ⟨rest, hrest⟩ := List.head?_eq_some_iff.mp hc
  -- The name could have been one character longer.
  have hmem' : (caps.tool ++ [c], rest ++ '>' :: (caps.body ++ (closingMark ++
      (caps.closingTool ++ '>' :: t)))) ∈ Matcher.many1 cls.word (caps.tool ++ (caps.attrs ++
        '>' :: (caps.body ++ (closingMark ++ (caps.closingTool ++ '>' :: t))))) := by
    refine Matcher.mem_many1.mpr ⟨by simp [hrest], by simp, fun d hd => ?_⟩
    rcases List.mem_append.mp hd with hd | hd
    · exact hword.2 d hd
    · obtain rfl := List.mem_singleton.mp hd
      exact Bool.of_not_eq_false hlonger
  have hrestOf : ((⟨caps.tool ++ [c], rest, caps.body, caps.closingTool⟩ : InvocationCaptures), t) ∈
      restOfTag cls (caps.tool ++ [c]) (rest ++ '>' :: (caps.body ++ (closingMark ++
        (caps.closingTool ++ '>' :: t)))) :=
    mem_restOfTag.mpr ⟨rfl, rfl, fun h => hattrs (hrest ▸ List.mem_cons_of_mem c h), hclosing⟩
  rw [hmax _ _ hmem' (by simp)] at hrestOf
  exact absurd hrestOf List.not_mem_nil

/-- The text begins and ends with tags of the same tool. -/
def NamesAgree (cls : CharClasses) (tool rawXml : List Char) : Prop :=
  IsWord cls tool ∧ ∃ attrs body, rawXml = openingMark ++ (tool ++ (attrs ++ ['>'] ++
    (body ++ (closingMark ++ (tool ++ ['>']))))) ∧ '>' ∉ attrs ∧
      ∀ c ∈ attrs.head?, cls.word c = false

theorem namesAgree_of_extractInvocation {text : String} {invocation : XmlInvocation}
    (h : extractInvocation cls text = .ok invocation) :
    NamesAgree cls invocation.toolName invocation.rawXml := by
  unfold extractInvocation at h
  split at h
  · cases h
  · rename_i caps rest hsearch
    split at h
    · cases h
    · rename_i hnames
      split at h
      · cases h
      · cases h
        obtain ⟨-, y, -, hy⟩ := Matcher.exists_of_search hsearch
        obtain ⟨-, hword, hattrs, hlongest⟩ := openingTagRegex_spec hy
        refine ⟨hword, caps.attrs, caps.body, ?_, hattrs, hlongest⟩
        rw [InvocationCaptures.text, ← of_not_not hnames]

theorem extractInvocation_of_isWord {before after : String} (hparams : Renderable cls params)
    (hbefore : Blank before) (hafter : Blank after) (htool : IsWord cls tool) :
    extractInvocation cls (before ++ .ofList (renderInvocation tool params) ++ after) =
      .ok ⟨tool, params, renderInvocation tool params, renderedBody params⟩ := by
  have hsearch := Matcher.search_of_head? (head?_openingTagRegex htool hparams)
  unfold extractInvocation
  rw [trim_renderInvocation hbefore hafter, hsearch]
  have hne : tool.isEmpty = false := List.isEmpty_eq_false_iff.mpr htool.1
  have htext : (⟨tool, [], renderedBody params, tool⟩ : InvocationCaptures).text =
      renderInvocation tool params := rfl
  simp only [ne_eq, not_true_eq_false, if_false, hne, htext, capturedParams_nil, List.foldl_nil,
    extractParameters_renderedBody hparams, Bool.false_eq_true]

/-- An invocation in the documented format is read back exactly if the name of the tool
is a word, and what is extracted has the same name at both ends. -/
theorem extractInvocation_round_trip (cls : CharClasses) :
    (∀ (tool : List Char) (params : List (List Char × List Char)) (before after : String),
      Renderable cls params → Blank before → Blank after →
      ((∃ invocation, extractInvocation cls
          (before ++ .ofList (renderInvocation tool params) ++ after) = .ok invocation ∧
            invocation.toolName = tool ∧ invocation.parameters = params) ↔ IsWord cls tool)) ∧
      ∀ (text : String) (invocation : XmlInvocation),
        extractInvocation cls text = .ok invocation →
          NamesAgree cls invocation.toolName invocation.rawXml := by
  refine ⟨fun tool params before after hparams hbefore hafter => ⟨?_, fun htool => ?_⟩,
    fun text invocation => namesAgree_of_extractInvocation⟩
  · rintro ⟨invocation, hok, rfl, -⟩
    exact (namesAgree_of_extractInvocation hok).1
  · exact ⟨_, extractInvocation_of_isWord hparams hbefore hafter htool, rfl, rfl⟩

/-- A dash in the name of a tool. -/
theorem dashed_tool_not_read_back : ¬∀ (cls : CharClasses) (tool : List Char)
    (params : List (List Char × List Char)) (before after : String),
    Renderable cls params → Blank before → Blank after →
      ∃ invocation, extractInvocation cls
        (before ++ .ofList (renderInvocation tool params) ++ after) = .ok invocation ∧
          invocation.toolName = tool ∧ invocation.parameters = params := by
  intro hall
  have hnone : Renderable asciiClasses [] :=
    ⟨List.nodup_nil, List.forall_mem_nil _, List.forall_mem_nil _, List.forall_mem_nil _⟩
  obtain ⟨invocation, hok, htool, -⟩ := hall asciiClasses ['m', 'y', '-', 't', 'o', 'o', 'l'] []
    "" "" hnone (List.forall_mem_nil _) (List.forall_mem_nil _)
  have hword := (namesAgree_of_extractInvocation hok).1.2
  rw [htool] at hword
  exact absurd (hword '-' (by decide)) (by decide)

end SereinGateway.Sandbox

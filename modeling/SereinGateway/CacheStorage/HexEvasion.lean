import Mathlib
import SereinGateway.Lib.Occurrences
import SereinGateway.Lib.Replace
import SereinGateway.Lib.Search

/-!
`HexEvasionEngine`: entities are encoded before a text is sent, and put back in the
answer.

`encode` goes over the text once for the pattern of person names and once for each
registered entity, so a later pass works on a text with encodings in it. `decode`
puts the originals back entry by entry, the last one first, and replaces every
occurrence of an encoding, wherever it comes from.

An entity is looked for in the text in small letters, and cut out of the text
itself by the byte positions found there. `none` is the panic when these are no
boundaries of characters.
-/

namespace SereinGateway.CacheStorage

open SereinGateway.Lib

inductive EncodingFormat where
  | fromCharCode
  | hexEscape
  | unicodeEscape
  deriving DecidableEq

inductive SensitivityClass where
  | politicalEntity
  | geographicRegion
  | organizationName
  | personName
  | restrictedTerm
  | custom (name : String)
  deriving DecidableEq

structure EncodingEntry where
  original : List Char
  encoded : List Char
  encodingFormat : EncodingFormat
  entityClass : SensitivityClass
  deriving DecidableEq

structure EncodeResult where
  processedText : List Char
  entries : List EncodingEntry
  entitiesFound : ℕ
  deriving DecidableEq

/-- The patterns of an engine are the default ones. -/
structure HexEvasionEngine where
  /-- In the order in which the map is iterated. -/
  customEntities : List (List Char × SensitivityClass)
  defaultFormat : EncodingFormat

def HexEvasionEngine.new : HexEvasionEngine := ⟨[], .fromCharCode⟩

/-! ### Strings -/

/-- `str::replace`. The empty pattern is found before and behind each character. -/
def strReplace (pat new s : List Char) : List Char :=
  if pat.isEmpty then new ++ s.flatMap fun c => c :: new else replaceAll pat new s

/-- `str::find`, in bytes. -/
@[grind =] def strFind (pat : List Char) : List Char → Option ℕ
  | [] => if pat.isEmpty then some 0 else none
  | c :: s => if pat.isPrefixOf (c :: s) then some 0 else (strFind pat s).map (· + c.utf8Size)

def byteLen (s : List Char) : ℕ := (s.map Char.utf8Size).sum

/-- The text cut at a number of bytes, if that is a boundary of characters. -/
@[grind =] def splitAtByte : ℕ → List Char → Option (List Char × List Char)
  | 0, s => some ([], s)
  | _ + 1, [] => none
  | n + 1, c :: s =>
      if c.utf8Size ≤ n + 1 then
        (splitAtByte (n + 1 - c.utf8Size) s).map fun parts => (c :: parts.1, parts.2)
      else none

/-- `&s[pos..pos + len]` -/
def sliceBytes (s : List Char) (pos len : ℕ) : Option (List Char) := do
  let (_, rest) ← splitAtByte pos s
  let (slice, _) ← splitAtByte len rest
  some slice

/-- `{:0wX}` -/
def hexUpper (width n : ℕ) : List Char :=
  ((Nat.toDigits 16 n).map Char.toUpper).leftpad width '0'

/-! ### The engine -/

/-- `\b[A-Z][a-z]+(?:\s+[A-Z][a-z]+){1,3}\b` -/
def personName (cls : CharClasses) : Regex Char :=
  let name : Regex Char := .seq (.one Char.isUpper) (.atLeast Char.isLower 1)
  let more : Regex Char := .seq (.atLeast isWhitespace 1) name
  .seq (.boundary cls.word) (.seq name (.seq (.seq more (.optional (.seq more (.optional more))))
    (.boundary cls.word)))

def personNames (cls : CharClasses) : Finder Char (List Char) :=
  (personName cls).finder rfl

namespace HexEvasionEngine

variable (engine : HexEvasionEngine)

def encodeEntity (entity : List Char) : List Char :=
  match engine.defaultFormat with
  | .fromCharCode =>
      "String.fromCharCode(".toList ++
        (", ".toList).intercalate (entity.map fun c => "0x".toList ++ hexUpper 0 c.toNat) ++ [')']
  | .hexEscape => entity.flatMap fun c => "\\x".toList ++ hexUpper 2 (c.toNat % 256)
  | .unicodeEscape => entity.flatMap fun c => "\\u".toList ++ hexUpper 4 c.toNat

def entry (original : List Char) (entityClass : SensitivityClass) : EncodingEntry :=
  ⟨original, engine.encodeEntity original, engine.defaultFormat, entityClass⟩

/-- What a piece of the text is recorded as. -/
def patternEntry : Chunk Char (List Char) → Option EncodingEntry
  | .plain _ => none
  | .hit original => some (engine.entry original .personName)

/-- The pass over the patterns. -/
def encodePatterns (cls : CharClasses) (input : List Char) : EncodeResult :=
  let pieces := (personNames cls).scan [] input
  let entries := pieces.filterMap engine.patternEntry
  ⟨pieces.flatMap (Chunk.replaced engine.encodeEntity), entries, entries.length⟩

/-- The pass for one registered entity. -/
def encodeCustom (lowercase : Lowercase) (state : EncodeResult)
    (custom : List Char × SensitivityClass) : Option EncodeResult :=
  let lowerInput := (lowercase.apply (.ofList state.processedText)).toList
  match strFind custom.1 lowerInput with
  | none => some state
  | some pos => do
      let original ← sliceBytes state.processedText pos (byteLen custom.1)
      let encoded := engine.encodeEntity original
      some ⟨strReplace original encoded state.processedText,
        state.entries ++ [engine.entry original custom.2], state.entitiesFound + 1⟩

def encode (cls : CharClasses) (lowercase : Lowercase) (input : List Char) : Option EncodeResult :=
  engine.customEntities.foldlM (engine.encodeCustom lowercase) (engine.encodePatterns cls input)

def decode (_engine : HexEvasionEngine) (encodedText : List Char) (entries : List EncodingEntry) :
    List Char :=
  entries.reverse.foldl (fun result entry => strReplace entry.encoded entry.original result)
    encodedText

/-! ### Where encodings begin -/

/-- The names that the pattern finds in a text. -/
def names (cls : CharClasses) (input : List Char) : List (List Char) :=
  ((personNames cls).scan [] input).filterMap fun
    | .plain _ => none
    | .hit name => some name

/-- A piece of the text in which the names in `kept` are left alone, and the others are
encoded: the places are those of the name `original`. -/
def markName (kept : List (List Char)) (original : List Char) :
    Chunk Char (List Char) → List (Chunk Char Unit)
  | .plain c => [.plain c]
  | .hit name =>
      if name ∈ kept then name.map .plain
      else if name = original then [.hit ()]
      else (engine.encodeEntity name).map .plain

/-- For each name that the pattern finds: its encoding begins in the places of the name and
nowhere else, in the text in which the names behind it are as they were. -/
def NamesInPlace (cls : CharClasses) (input : List Char) : Prop :=
  ∀ earlier original later, names cls input = earlier ++ original :: later →
    BeginsInPlace (engine.encodeEntity original)
      (((personNames cls).scan [] input).flatMap (engine.markName later original))

/-- Where `str::replace` finds a text. -/
def placesOf (pat s : List Char) : List (Chunk Char Unit) :=
  if pat.isEmpty then .hit () :: s.flatMap fun c => [.plain c, .hit ()] else cutAt pat s

/-- For each registered entity that is found: it is cut out at boundaries of characters, and
its encoding begins in its places and nowhere else, in the text in which it is encoded. -/
inductive EntitiesInPlace (lowercase : Lowercase) :
    List (List Char × SensitivityClass) → List Char → Prop
  | nil (text : List Char) : EntitiesInPlace lowercase [] text
  | absent {custom : List Char × SensitivityClass} {customs text} :
      strFind custom.1 (lowercase.apply (.ofList text)).toList = none →
      EntitiesInPlace lowercase customs text → EntitiesInPlace lowercase (custom :: customs) text
  | found {custom : List Char × SensitivityClass} {customs text} {pos : ℕ}
      {original : List Char} :
      strFind custom.1 (lowercase.apply (.ofList text)).toList = some pos →
      sliceBytes text pos (byteLen custom.1) = some original →
      (engine.encodeEntity original ≠ [] →
        BeginsInPlace (engine.encodeEntity original) (placesOf original text)) →
      EntitiesInPlace lowercase customs
        (strReplace original (engine.encodeEntity original) text) →
      EntitiesInPlace lowercase (custom :: customs) text

/-- The encodings of the names and of the entities of a text begin in their places only. -/
structure InPlace (cls : CharClasses) (lowercase : Lowercase) (input : List Char) : Prop where
  names : engine.NamesInPlace cls input
  entities : engine.EntitiesInPlace lowercase engine.customEntities
    (((personNames cls).scan [] input).flatMap (Chunk.replaced engine.encodeEntity))

/-! ### The round trip -/

section RoundTrip

variable {engine} {cls : CharClasses} {lowercase : Lowercase} {input original text : List Char}
  {state : EncodeResult} {entry : EncodingEntry} {entries entries' : List EncodingEntry}

theorem eq_nil_of_encodeEntity (h : engine.encodeEntity original = []) : original = [] := by
  cases original with
  | nil => rfl
  | cons c original =>
      unfold encodeEntity at h
      split at h <;> simp at h

theorem strReplace_nil_nil (s : List Char) : strReplace [] [] s = s := by
  simp [strReplace]

theorem filled_placesOf (pat new s : List Char) : filled new (placesOf pat s) =
    strReplace pat new s := by
  cases pat with
  | nil => simp [placesOf, strReplace, filled, Chunk.replaced, List.flatMap_assoc]
  | cons c pat => exact filled_cutAt (List.cons_ne_nil c pat) new s

theorem filled_placesOf_self (pat s : List Char) : filled pat (placesOf pat s) = s := by
  cases pat with
  | nil => rw [filled_placesOf, strReplace_nil_nil]
  | cons c pat => exact filled_cutAt_self (List.cons_ne_nil c pat) s

/-- Each step of `decode` puts an original back in its places. -/
theorem strReplace_filled {β : Type} {ps : List (Chunk Char β)}
    (h : engine.encodeEntity original ≠ [] → BeginsInPlace (engine.encodeEntity original) ps) :
    strReplace (engine.encodeEntity original) original
      (filled (engine.encodeEntity original) ps) = filled original ps := by
  by_cases hnil : engine.encodeEntity original = []
  · obtain rfl := eq_nil_of_encodeEntity hnil
    rw [hnil, strReplace_nil_nil]
  · rw [strReplace, if_neg (by simpa using hnil)]
    exact replaceAll_filled hnil (h hnil) original

theorem decode_cons (text : List Char) : engine.decode text (entry :: entries) =
    strReplace entry.encoded entry.original (engine.decode text entries) := by
  rw [decode, List.reverse_cons, List.foldl_append]
  rfl

theorem decode_append (text : List Char) :
    engine.decode text (entries ++ entries') =
      engine.decode (engine.decode text entries') entries := by
  rw [decode, List.reverse_append, List.foldl_append]
  rfl

/-- The passes for registered entities go through, and `decode` undoes them. -/
theorem decode_encodeCustoms {customs : List (List Char × SensitivityClass)}
    (h : engine.EntitiesInPlace lowercase customs state.processedText) :
    ∃ result entries, customs.foldlM (engine.encodeCustom lowercase) state = some result ∧
      result.entries = state.entries ++ entries ∧
        engine.decode result.processedText entries = state.processedText := by
  generalize htext : state.processedText = text at h
  induction h generalizing state with
  | nil text => exact ⟨state, [], rfl, (List.append_nil _).symm, htext⟩
  | absent hfind _ ih =>
      obtain ⟨result, entries, hfold, hentries, hdecode⟩ := ih htext
      refine ⟨result, entries, ?_, hentries, hdecode⟩
      rw [List.foldlM_cons, encodeCustom]
      dsimp only
      rw [htext, hfind]
      exact hfold
  | @found custom customs text pos original hfind hslice hplaces _ ih =>
      let state' : EncodeResult := ⟨strReplace original (engine.encodeEntity original) text,
        state.entries ++ [engine.entry original custom.2], state.entitiesFound + 1⟩
      obtain ⟨result, entries, hfold, hentries, hdecode⟩ := @ih state' rfl
      have hback : strReplace (engine.encodeEntity original) original
          (strReplace original (engine.encodeEntity original) text) = text := by
        rw [← filled_placesOf original (engine.encodeEntity original) text,
          strReplace_filled hplaces, filled_placesOf_self]
      refine ⟨result, engine.entry original custom.2 :: entries, ?_, ?_, ?_⟩
      · rw [List.foldlM_cons, encodeCustom]
        dsimp only
        rw [htext, hfind]
        dsimp only
        rw [hslice]
        exact hfold
      · rw [hentries, List.append_assoc]
        rfl
      · rw [decode_cons, hdecode]
        exact hback

/-- The text with the names in `kept` left alone. -/
def leaving (engine : HexEvasionEngine) (cls : CharClasses) (input : List Char)
    (kept : List (List Char)) : List Char :=
  ((personNames cls).scan [] input).flatMap
    (Chunk.replaced fun name => if name ∈ kept then name else engine.encodeEntity name)

theorem filled_markName (kept : List (List Char)) (original : List Char) :
    filled (engine.encodeEntity original)
        (((personNames cls).scan [] input).flatMap (engine.markName kept original)) =
      engine.leaving cls input kept := by
  rw [filled, List.flatMap_assoc]
  refine List.flatMap_congr fun piece _ => ?_
  cases piece with
  | plain c => rfl
  | hit name =>
      simp only [markName, Chunk.replaced]
      split
      · exact filled_map_plain name
      · split
        · rename_i heq
          rw [heq]
          exact List.append_nil _
        · exact filled_map_plain _

theorem filled_markName_self (kept : List (List Char)) (original : List Char) :
    filled original (((personNames cls).scan [] input).flatMap (engine.markName kept original)) =
      engine.leaving cls input (original :: kept) := by
  rw [filled, List.flatMap_assoc]
  refine List.flatMap_congr fun piece _ => ?_
  cases piece with
  | plain c => rfl
  | hit name =>
      simp only [markName, Chunk.replaced, List.mem_cons]
      by_cases hkept : name ∈ kept
      · rw [if_pos hkept, if_pos (.inr hkept)]
        exact filled_map_plain name
      · by_cases heq : name = original
        · rw [if_neg hkept, if_pos heq, if_pos (.inl heq), heq]
          exact List.append_nil _
        · rw [if_neg hkept, if_neg heq, if_neg (not_or.mpr ⟨heq, hkept⟩)]
          exact filled_map_plain _

theorem leaving_nil :
    engine.leaving cls input [] = (engine.encodePatterns cls input).processedText := by
  simp [leaving, encodePatterns]

theorem leaving_names : engine.leaving cls input (names cls input) = input := by
  rw [leaving]
  conv_rhs => rw [← Finder.textOf_scan (F := personNames cls) [] input]
  refine List.flatMap_congr fun piece hpiece => ?_
  cases piece with
  | plain c => rfl
  | hit name =>
      have hmem : name ∈ names cls input :=
        List.mem_filterMap.mpr ⟨Chunk.hit name, hpiece, rfl⟩
      exact if_pos hmem

theorem entries_encodePatterns : (engine.encodePatterns cls input).entries =
    (names cls input).map fun name => engine.entry name .personName := by
  rw [names, List.map_filterMap]
  refine List.filterMap_congr fun piece _ => ?_
  cases piece <;> rfl

theorem decode_encodePatterns (h : engine.NamesInPlace cls input) :
    engine.decode (engine.encodePatterns cls input).processedText
      (engine.encodePatterns cls input).entries = input := by
  -- the names behind a point of the list are put back
  have hsteps : ∀ later earlier, names cls input = earlier ++ later →
      engine.decode (engine.encodePatterns cls input).processedText
        (later.map fun name => engine.entry name .personName) =
          engine.leaving cls input later := by
    intro later
    induction later with
    | nil => exact fun _ _ => leaving_nil.symm
    | cons original later ih =>
        intro earlier hsplit
        have hrest := ih (earlier ++ [original]) (by rw [hsplit, List.append_assoc]; rfl)
        rw [List.map_cons, decode_cons, hrest, ← filled_markName later original,
          ← filled_markName_self later original]
        exact strReplace_filled fun _ => h earlier original later hsplit
  rw [entries_encodePatterns, hsteps (names cls input) [] rfl]
  exact leaving_names

/-- A text comes back if the encodings of its names and entities begin in their places. -/
theorem decode_encode (h : engine.InPlace cls lowercase input) :
    ∃ result, engine.encode cls lowercase input = some result ∧
      engine.decode result.processedText result.entries = input := by
  obtain ⟨result, entries, hencode, hentries, hdecode⟩ :=
    @decode_encodeCustoms engine lowercase (engine.encodePatterns cls input) _ h.entities
  refine ⟨result, hencode, ?_⟩
  rw [hentries, decode_append, hdecode]
  exact decode_encodePatterns h.names

theorem encodePatterns_of_names_eq_nil (h : names cls input = []) :
    engine.encodePatterns cls input = ⟨input, [], 0⟩ := by
  have hentries : (engine.encodePatterns cls input).entries = [] := by
    rw [entries_encodePatterns, h]
    rfl
  have htext : (engine.encodePatterns cls input).processedText = input := by
    rw [← leaving_nil, ← h]
    exact leaving_names
  have hfound : (engine.encodePatterns cls input).entitiesFound = 0 := congrArg List.length hentries
  cases hresult : engine.encodePatterns cls input
  rw [hresult] at htext hentries hfound
  exact (EncodeResult.mk.injEq ..).mpr ⟨htext, hentries, hfound⟩

theorem decode_encode_iff_of_single {custom : List Char × SensitivityClass} {pos : ℕ}
    (hnames : names cls input = []) (hcustoms : engine.customEntities = [custom])
    (hfind : strFind custom.1 (lowercase.apply (.ofList input)).toList = some pos)
    (hslice : sliceBytes input pos (byteLen custom.1) = some original) (hne : original ≠ []) :
    (∃ result, engine.encode cls lowercase input = some result ∧
        engine.decode result.processedText result.entries = input) ↔
      BeginsInPlace (engine.encodeEntity original) (cutAt original input) := by
  have hencode : engine.encode cls lowercase input =
      some ⟨strReplace original (engine.encodeEntity original) input,
        [engine.entry original custom.2], 1⟩ := by
    rw [encode, hcustoms, encodePatterns_of_names_eq_nil hnames, List.foldlM_cons, encodeCustom]
    dsimp only
    rw [hfind]
    dsimp only
    rw [hslice]
    rfl
  have hdecode : ∀ text, engine.decode text [engine.entry original custom.2] =
      strReplace (engine.encodeEntity original) original text := fun _ => rfl
  have hencoded : engine.encodeEntity original ≠ [] := fun h => hne (eq_nil_of_encodeEntity h)
  rw [← replaceAll_replaceAll_iff hne hencoded, hencode]
  simp [hdecode, strReplace, hne, hencoded]

end RoundTrip

/-- The converse fails: `a` is put back inside the encoding of `ab` too, where it does not
belong, and the next step makes that good with the `b` behind it. -/
example : let engine : HexEvasionEngine := ⟨[("ab".toList, .restrictedTerm),
      ("b".toList, .restrictedTerm), ("a".toList, .restrictedTerm)], .hexEscape⟩
    ((engine.encode asciiClasses asciiLowercase "ab b a".toList).map fun result =>
        engine.decode result.processedText result.entries) = some "ab b a".toList ∧
      ¬BeginsInPlace (engine.encodeEntity "a".toList)
        (placesOf "a".toList "\\x61\\x62 \\x62 a".toList) := by
  decide +kernel

def acmeEngine : HexEvasionEngine := ⟨[("acme".toList, .organizationName)], .fromCharCode⟩

/-- The round trip of a text with a name and an entity. -/
theorem decode_encode_acme :
    ∃ result, acmeEngine.encode asciiClasses asciiLowercase "Jo Do at Acme".toList = some result ∧
      acmeEngine.decode result.processedText result.entries = "Jo Do at Acme".toList := by
  have hname := toList_of_eq_ofList (s := "Jo Do") rfl
  have htext := toList_of_eq_ofList (s := "Jo Do at Acme") rfl
  have hentity := toList_of_eq_ofList (s := "acme") rfl
  have hlower (cs : List Char) : (asciiLowercase.apply (.ofList cs)).toList =
      cs.map Char.toLower := by
    rw [asciiLowercase, String.toList_map, String.toList_ofList]
  have hnames : names asciiClasses "Jo Do at Acme".toList = ["Jo Do".toList] := by
    rw [htext, hname]
    decide +kernel
  refine decode_encode ⟨fun earlier original later hsplit => ?_, ?_⟩
  · rw [hnames, List.singleton_eq_append_iff] at hsplit
    obtain ⟨-, hsingle⟩ | ⟨-, hnil⟩ := hsplit
    · obtain ⟨rfl, rfl⟩ := List.cons.inj hsingle
      rw [htext, hname]
      decide +kernel
    · exact absurd hnil (List.cons_ne_nil _ _)
  · have hfind : strFind "acme".toList (asciiLowercase.apply (.ofList
        (((personNames asciiClasses).scan [] "Jo Do at Acme".toList).flatMap
          (Chunk.replaced acmeEngine.encodeEntity)))).toList = some 53 := by
      rw [hlower, htext, hentity]
      decide +kernel
    have hslice : sliceBytes (((personNames asciiClasses).scan [] "Jo Do at Acme".toList).flatMap
        (Chunk.replaced acmeEngine.encodeEntity)) 53 (byteLen "acme".toList) =
        some "Acme".toList := by
      rw [htext, hentity]
      decide +kernel
    refine .found hfind hslice (fun _ => ?_) (.nil _)
    rw [htext]
    decide +kernel

/-- A text that has the encoding of a name in it. -/
theorem encoding_in_text_decoded : ¬∀ (engine : HexEvasionEngine) (cls : CharClasses)
    (lowercase : Lowercase) (input : List Char), ∃ result,
    engine.encode cls lowercase input = some result ∧
      engine.decode result.processedText result.entries = input := by
  have hname := toList_of_eq_ofList (s := "Jo Do") rfl
  have htext := toList_of_eq_ofList
    (s := "Jo Do: String.fromCharCode(0x4A, 0x6F, 0x20, 0x44, 0x6F)") rfl
  have hfirst := toList_of_eq_ofList
    (s := "String.fromCharCode(0x4A, 0x6F, 0x20, 0x44, 0x6F): ") rfl
  have hsecond := toList_of_eq_ofList
    (s := "String.fromCharCode(0x4A, 0x6F, 0x20, 0x44, 0x6F)") rfl
  intro h
  obtain ⟨result, hencode, hdecode⟩ := h .new asciiClasses asciiLowercase
    "Jo Do: String.fromCharCode(0x4A, 0x6F, 0x20, 0x44, 0x6F)".toList
  have hresult : HexEvasionEngine.new.encode asciiClasses asciiLowercase
      "Jo Do: String.fromCharCode(0x4A, 0x6F, 0x20, 0x44, 0x6F)".toList =
      some ⟨("String.fromCharCode(0x4A, 0x6F, 0x20, 0x44, 0x6F): " ++
        "String.fromCharCode(0x4A, 0x6F, 0x20, 0x44, 0x6F)").toList,
        [HexEvasionEngine.new.entry "Jo Do".toList .personName], 1⟩ := by
    rw [String.toList_append, htext, hfirst, hsecond, hname]
    decide +kernel
  rw [hresult] at hencode
  cases hencode
  rw [String.toList_append, htext, hfirst, hsecond, hname] at hdecode
  exact absurd hdecode (by decide +kernel)

end HexEvasionEngine

end SereinGateway.CacheStorage

import SereinGateway.Router.Quorum
import SereinGateway.Router.Undisturbed

/-!
The table of masking maps under interleaved and dropped requests.

A dispatch stores its map under the request key and takes out whatever is
there when it is done, with no guard in between. Two requests with one key
may both lead, since look-up and insertion of `dedup` are separate, and then
the second map overwrites the first; a request dropped while it awaits leaves
its map behind. These are the only two ways in which the table goes wrong:
a dispatch restores with its own map as long as no other dispatch with the
same key holds one when a map is stored, and the table is empty between
dispatches as long as no request is dropped while it holds one.
-/

namespace SereinGateway.Router

open SereinGateway.Lib SereinGateway.Interfaces SereinGateway.Worker

/-- The dispatch has stored its map and not yet taken it out. -/
def DispatchPc.stored : DispatchPc → Bool
  | .awaitProviders | .awaitFallback _ | .awaitRefund _ | .unmask _ => true
  | .masking _ _ | .restored _ _ => false

/-- The request has a live dispatch whose map is in the table. -/
structure Request.HoldsMap (c : Request) : Prop where
  live : c.dispatching
  stored : c.dispatch.stored = true

/-- No other live dispatch with this key holds a map when one is stored. -/
def storesAlone (p : Pool RouterState Request) (a : ℕ × RequestAction) : Prop :=
  a.2 = .store → ∀ j, (p.task j).HoldsMap → (p.task j).key ≠ (p.task a.1).key

/-- A request that holds a map is not dropped. -/
def keepsHolders (p : Pool RouterState Request) (a : ℕ × RequestAction) : Prop :=
  a.2 = .dropFuture → ¬(p.task a.1).HoldsMap

/-! ### Steps and the table -/

section Steps

variable {orch : TmrOrchestrator} {deps : RouterDeps} {i : ℕ} {s s' : RouterState} {c c' : Request}
variable {a : RequestAction}

theorem stored_afterResult (orch : TmrOrchestrator) (result : TmrConsensusResult) :
    (orch.afterResult result).stored = true := by
  rw [TmrOrchestrator.afterResult]
  split <;> rfl

/-- A step that leaves the table alone: the request keeps its own map, does
not start to hold one, and stops holding it only by being dropped. -/
structure TableKept (a : RequestAction) (s s' : RouterState) (c c' : Request) : Prop where
  maps : s'.maskingMaps = s.maskingMaps
  ownMap : c'.ownMap = c.ownMap
  holds : c'.HoldsMap → c.HoldsMap
  held : c.HoldsMap → a ≠ .dropFuture → c'.HoldsMap

structure TableStored (a : RequestAction) (s s' : RouterState) (c c' : Request)
    (map : MaskingMap) : Prop where
  action : a = .store
  holds : c'.HoldsMap
  ownMap : c'.ownMap = some map
  maps : s'.maskingMaps = Function.update s.maskingMaps c.key (some map)

/-- The request takes out what is under its key. -/
structure TableTaken (s s' : RouterState) (c c' : Request) : Prop where
  held : c.HoldsMap
  released : ¬c'.HoldsMap
  maps : s'.maskingMaps = Function.update s.maskingMaps c.key none

theorem RequestMove.key_eq (h : RequestMove orch deps i s c a s' c') : c'.key = c.key := by
  cases h <;> rfl

theorem RequestMove.table_cases (hwf : c.Wf) (h : RequestMove orch deps i s c a s' c') :
    TableKept a s s' c c' ∨ (∃ map, TableStored a s s' c c' map) ∨ TableTaken s s' c c' := by
  cases h with
  | miss | served | abandon | flush | lose | expire =>
      exact .inl ⟨rfl, rfl, fun h => ⟨h.1, h.2⟩, fun h _ => ⟨h.1, h.2⟩⟩
  | @flight a b sf pc hab hdrop hflight =>
      refine .inl ⟨rfl, rfl, fun h => ?_, fun h hnodrop => ?_⟩
      · -- A call that starts to lead has not begun its dispatch.
        have hbefore := hwf.idle (.inr (hflight.to_running h.live))
        have hstored : c.dispatch.stored = true := h.stored
        cases hpc : c.dispatch <;>
          simp [hpc, DispatchPc.beforeStore, DispatchPc.stored] at hbefore hstored
      · -- Completion is no step of `dedup` alone, which leaves being dropped.
        rcases hflight.of_running h.live with ⟨r, rfl⟩ | rfl
        · cases a <;> simp [RequestAction.flight] at hab
        · cases a <;> simp [RequestAction.flight] at hab hnodrop
  | mask hrun hpc =>
      refine .inl ⟨rfl, rfl, fun h => ?_, fun h => ?_⟩
      · simpa [DispatchPc.stored] using h.stored
      · simpa [hpc, DispatchPc.stored] using h.stored
  | store hrun hpc => exact .inr (.inl ⟨_, rfl, ⟨hrun, rfl⟩, rfl, rfl⟩)
  | consensus hrun hpc =>
      exact .inl ⟨rfl, rfl, fun _ => ⟨hrun, by rw [hpc]; rfl⟩,
        fun _ _ => ⟨hrun, by simp [stored_afterResult]⟩⟩
  | stasis hrun hpc =>
      exact .inl ⟨rfl, rfl, fun _ => ⟨hrun, by rw [hpc]; rfl⟩, fun _ _ => ⟨hrun, rfl⟩⟩
  | fallback hrun hpc =>
      exact .inl ⟨rfl, rfl, fun _ => ⟨hrun, by rw [hpc]; rfl⟩,
        fun _ _ => ⟨hrun, by simp [stored_afterResult]⟩⟩
  | refund hrun hpc =>
      exact .inl ⟨rfl, rfl, fun _ => ⟨hrun, by rw [hpc]; rfl⟩, fun _ _ => ⟨hrun, rfl⟩⟩
  | unmask hrun hpc =>
      refine .inr (.inr ⟨⟨hrun, by rw [hpc]; rfl⟩, fun h => ?_, rfl⟩)
      simpa [DispatchPc.stored] using h.stored
  | finish hrun hpc =>
      refine .inl ⟨rfl, rfl, fun h => ?_, fun h => ?_⟩
      · have hlive := h.live
        simp [Request.dispatching] at hlive
      · simpa [hpc, DispatchPc.stored] using h.stored

end Steps

/-! ### Restoring with the own map -/

/-- A dispatch that holds a map finds its own one under its key. -/
def FindsOwnMap (s : RouterState) (c : Request) : Prop :=
  c.HoldsMap → ∃ map, c.ownMap = some map ∧ s.maskingMaps c.key = some map

/-- The invariant of runs in which maps are stored alone. -/
structure StoredAlone (p : Pool RouterState Request) : Prop where
  unique : ∀ i j, (p.task i).HoldsMap → (p.task j).HoldsMap →
    (p.task i).key = (p.task j).key → i = j
  own : ∀ i, FindsOwnMap p.shared (p.task i)

theorem not_holdsMap_start (deps : RouterDeps) (reqs : ℕ → ProviderRequest) (i : ℕ) :
    ¬((requestStart deps reqs).task i).HoldsMap := by
  intro h
  simpa [requestStart, Request.new, DispatchPc.stored] using h.stored

/-- Holders of maps stay apart when the request that moves held one before,
or no holder has its key. -/
theorem unique_update {task : ℕ → Request} {i : ℕ} {c : Request}
    (h : ∀ j k, (task j).HoldsMap → (task k).HoldsMap → (task j).key = (task k).key → j = k)
    (hkey : c.key = (task i).key)
    (hnew : c.HoldsMap → (task i).HoldsMap ∨ ∀ j, (task j).HoldsMap → (task j).key ≠ (task i).key) :
    ∀ j k, (Function.update task i c j).HoldsMap → (Function.update task i c k).HoldsMap →
      (Function.update task i c j).key = (Function.update task i c k).key → j = k := by
  have hmoved : ∀ k, k ≠ i → c.HoldsMap → (task k).HoldsMap → c.key = (task k).key → i = k := by
    intro k hk hc hkholds heq
    rcases hnew hc with hold | halone
    · exact h i k hold hkholds (hkey.symm.trans heq)
    · exact absurd (heq.symm.trans hkey) (halone k hkholds)
  intro j k hj hk heq
  by_cases hji : j = i
  · by_cases hki : k = i
    · rw [hji, hki]
    · subst hji
      rw [Function.update_self] at hj heq
      rw [Function.update_of_ne hki] at hk heq
      exact hmoved k hki hj hk heq
  · rw [Function.update_of_ne hji] at hj heq
    by_cases hki : k = i
    · subst hki
      rw [Function.update_self] at hk heq
      exact (hmoved j hji hk hj heq.symm).symm
    · rw [Function.update_of_ne hki] at hk heq
      exact h j k hj hk heq

theorem FindsOwnMap.of_key_ne {s s' : RouterState} {c : Request} {key : String}
    {m : Option MaskingMap} (h : FindsOwnMap s c)
    (hmaps : s'.maskingMaps = Function.update s.maskingMaps key m)
    (hne : c.HoldsMap → c.key ≠ key) : FindsOwnMap s' c := by
  intro hc
  rw [hmaps, Function.update_of_ne (hne hc)]
  exact h hc

theorem storedAlone_step {orch : TmrOrchestrator} {deps : RouterDeps}
    {p q : Pool RouterState Request} {a : ℕ × RequestAction} (hwf : ∀ i, (p.task i).Wf)
    (h : StoredAlone p) (hok : storesAlone p a)
    (hstep : p.step (orch.requestStep deps) a = some q) : StoredAlone q := by
  obtain ⟨s, c, hact, rfl⟩ := Pool.step_eq_some.mp hstep
  have hmove := requestStep_move hact
  have hkey := hmove.key_eq
  rcases hmove.table_cases (hwf a.1) with hkept | ⟨map, hstored⟩ | htaken
  · refine ⟨unique_update h.unique hkey (fun hc => .inl (hkept.holds hc)), ?_⟩
    refine Pool.forall_task (Q := fun s _ c => FindsOwnMap s c) h.own (fun hc => ?_) ?_
    · rw [hkept.maps, hkept.ownMap, hkey]
      exact h.own a.1 (hkept.holds hc)
    · intro j _ hj hc
      rw [hkept.maps]
      exact hj hc
  · have halone := hok hstored.action
    refine ⟨unique_update h.unique hkey (fun _ => .inr halone), ?_⟩
    refine Pool.forall_task (Q := fun s _ c => FindsOwnMap s c) h.own (fun _ => ?_) ?_
    · refine ⟨map, hstored.ownMap, ?_⟩
      rw [hstored.maps, hkey, Function.update_self]
    · intro j _ hj
      exact hj.of_key_ne hstored.maps (halone j)
  · refine ⟨unique_update h.unique hkey (fun hc => absurd hc htaken.released), ?_⟩
    refine Pool.forall_task (Q := fun s _ c => FindsOwnMap s c) h.own (fun hc => ?_) ?_
    · exact absurd hc htaken.released
    · -- Whoever takes a map out under a key is the only holder of that key.
      intro j hja hj
      refine hj.of_key_ne htaken.maps (fun hc heq => ?_)
      exact hja (h.unique j a.1 hc htaken.held heq)

/-! ### An empty table between dispatches -/

/-- Every map in the table belongs to a live dispatch. -/
def TableHeld (p : Pool RouterState Request) : Prop :=
  ∀ key, p.shared.maskingMaps key ≠ none → ∃ i, (p.task i).HoldsMap ∧ (p.task i).key = key

theorem tableHeld_step {orch : TmrOrchestrator} {deps : RouterDeps}
    {p q : Pool RouterState Request} {a : ℕ × RequestAction} (hwf : ∀ i, (p.task i).Wf)
    (h : TableHeld p) (hok : keepsHolders p a)
    (hstep : p.step (orch.requestStep deps) a = some q) : TableHeld q := by
  obtain ⟨s, c, hact, rfl⟩ := Pool.step_eq_some.mp hstep
  have hmove := requestStep_move hact
  have hkey := hmove.key_eq
  intro key hne
  change s.maskingMaps key ≠ none at hne
  -- A holder that is not the moving request is still one.
  have hother : ∀ i, i ≠ a.1 → (p.task i).HoldsMap → (p.task i).key = key →
      ∃ j, (Function.update p.task a.1 c j).HoldsMap ∧
        (Function.update p.task a.1 c j).key = key := by
    intro i hi hholds hk
    refine ⟨i, ?_⟩
    rw [Function.update_of_ne hi]
    exact ⟨hholds, hk⟩
  have hown : c.HoldsMap → c.key = key →
      ∃ j, (Function.update p.task a.1 c j).HoldsMap ∧
        (Function.update p.task a.1 c j).key = key := by
    intro hholds hk
    refine ⟨a.1, ?_⟩
    rw [Function.update_self]
    exact ⟨hholds, hk⟩
  -- Under another key nothing changes, and its holder is another request.
  have hrest : key ≠ (p.task a.1).key → p.shared.maskingMaps key ≠ none →
      ∃ j, (Function.update p.task a.1 c j).HoldsMap ∧
        (Function.update p.task a.1 c j).key = key := by
    intro hk hbefore
    obtain ⟨i, hholds, hki⟩ := h key hbefore
    have hi : i ≠ a.1 := by
      rintro rfl
      exact hk hki.symm
    exact hother i hi hholds hki
  rcases hmove.table_cases (hwf a.1) with hkept | ⟨map, hstored⟩ | htaken
  · rw [hkept.maps] at hne
    obtain ⟨i, hholds, hk⟩ := h key hne
    by_cases hi : i = a.1
    · subst hi
      have hnodrop : a.2 ≠ .dropFuture := fun heq => hok heq hholds
      exact hown (hkept.held hholds hnodrop) (hkey.trans hk)
    · exact hother i hi hholds hk
  · by_cases hk : key = (p.task a.1).key
    · exact hown hstored.holds (hkey.trans hk.symm)
    · rw [hstored.maps, Function.update_of_ne hk] at hne
      exact hrest hk hne
  · by_cases hk : key = (p.task a.1).key
    · rw [hk, htaken.maps, Function.update_self] at hne
      exact absurd rfl hne
    · rw [htaken.maps, Function.update_of_ne hk] at hne
      exact hrest hk hne

/-! ### Hygiene of the table -/

/-- In runs in which no dispatch stores its map while another live dispatch
with its key holds one, every dispatch restores its output with the map its
own `mask` call produced; in runs in which no request is dropped while its
map is in the table, the table is empty whenever no dispatch is in progress. -/
theorem masking_map_hygiene (orch : TmrOrchestrator) (deps : RouterDeps)
    (reqs : ℕ → ProviderRequest) :
    (∀ p, Reach (Pool.step (orch.requestStep deps)) storesAlone (requestStart deps reqs) p →
      ∀ i iter result q, (p.task i).dispatch = .unmask result →
        p.step (orch.requestStep deps) (i, .unmask iter) = some q →
        ∃ map, (p.task i).ownMap = some map ∧
          (q.task i).dispatch =
            .restored (some map) (TmrOrchestrator.restoreOutput iter (some map) result)) ∧
    (∀ p, Reach (Pool.step (orch.requestStep deps)) keepsHolders (requestStart deps reqs) p →
      (∀ i, ¬(p.task i).dispatching) → ∀ key, p.shared.maskingMaps key = none) := by
  constructor
  · intro p hp i iter result q hpc hstep
    have hinv : (∀ i, (p.task i).Wf) ∧ StoredAlone p := by
      refine hp.invariant (I := fun p => (∀ i, (p.task i).Wf) ∧ StoredAlone p) ?_ ?_
      · exact ⟨fun i => Request.wf_new deps (reqs i), fun i _ hi => absurd hi
          (not_holdsMap_start deps reqs i), fun i hi => absurd hi (not_holdsMap_start deps reqs i)⟩
      · intro t a u ht hok hnext
        exact ⟨wf_step ht.1 hnext, storedAlone_step ht.1 ht.2 hok hnext⟩
    obtain ⟨s, c, hact, rfl⟩ := Pool.step_eq_some.mp hstep
    have hmove := requestStep_move hact
    cases hmove with
    | flight hab => simp [RequestAction.flight] at hab
    | unmask hrun hpc' =>
        rw [hpc, DispatchPc.unmask.injEq] at hpc'
        obtain ⟨map, hown, hfound⟩ := hinv.2.own i ⟨hrun, by rw [hpc]; rfl⟩
        refine ⟨map, hown, ?_⟩
        simp only [Function.update_self, hfound, hpc']
  · intro p hp hidle key
    have hinv : (∀ i, (p.task i).Wf) ∧ TableHeld p := by
      refine hp.invariant (I := fun p => (∀ i, (p.task i).Wf) ∧ TableHeld p) ?_ ?_
      · exact ⟨fun i => Request.wf_new deps (reqs i), fun key hne => absurd rfl hne⟩
      · intro t a u ht hok hnext
        exact ⟨wf_step ht.1 hnext, tableHeld_step ht.1 ht.2 hok hnext⟩
    by_contra hne
    obtain ⟨i, hholds, -⟩ := hinv.2 key hne
    exact hidle i hholds.live

/-! ### How the table goes wrong -/

/-- A prompt with an address in it. -/
def mailRequest : ProviderRequest := ⟨"Mail ann@acme.io", "acme"⟩

/-- The answer to the masked prompt, with the placeholder in it. -/
def mailAnswer : String :=
  "\x7b\"network_id\":\"SMTP\",\"task_type\":\"MAIL\",\"max_gas_limit\":0," ++
    "\"confidence_score\":1,\"source_url\":\"[MASKED_EMAIL_0]\"\x7d"

/-- Patterns, digest and parsers as they act on that prompt and that answer. -/
def mailDeps : RouterDeps :=
  { swapRouterDeps with
    parser :=
      { swapDeps.parser with
        simdJson := fun bytes =>
          if bytes = mailAnswer.toByteArray then
            (bytes, some ⟨"SMTP", "MAIL", 0, 1, "[MASKED_EMAIL_0]"⟩)
          else (bytes, none) }
    sha256 := fun _ =>
      #v[0xb6, 0x25, 0x70, 0x5d, 0x62, 0xb8, 0x4d, 0x97, 0xe4, 0xc9, 0x5d, 0xde, 0xc6, 0x73,
      0x61, 0x5f, 0x90, 0x07, 0x3a, 0x59, 0x14, 0x37, 0x74, 0xe6, 0x62, 0x15, 0xe5,
      0x34, 0x57, 0x90, 0xcf, 0xdf]
    patterns :=
      { segments := fun s =>
          if s = "Mail ann@acme.io" then [.plain "Mail ", .pii "ann@acme.io"] else [.plain s]
        segments_text := fun s => by
          by_cases h : s = "Mail ann@acme.io"
          · rw [if_pos h, h]
            decide
          · rw [if_neg h]
            simp [Segment.text, String.join]
        email := fun s => s = "ann@acme.io"
        financial := fun _ => false
        identity := fun _ => false
        phone := fun _ => false } }

theorem toList_mailAnswer :
    ∃ mid, mailAnswer.toList = '\x7b' :: (mid ++ ['\x7d']) ∧ '`' ∉ mid := by
  refine ⟨("\"network_id\":\"SMTP\",\"task_type\":\"MAIL\",\"max_gas_limit\":0," ++
    "\"confidence_score\":1,\"source_url\":\"[MASKED_EMAIL_0]\"").toList, ?_, ?_⟩
  · unfold mailAnswer
    simp only [String.toList_append]
    rw [String.toList_ofList, String.toList_ofList, String.toList_ofList, String.toList_ofList]
    simp only [List.cons_append, List.nil_append]
  · rw [String.toList_append, String.toList_ofList, String.toList_ofList]
    decide

theorem mailAnswer_ne_empty : mailAnswer ≠ "" := by
  intro h
  obtain ⟨mid, heq, -⟩ := toList_mailAnswer
  rw [h] at heq
  simp at heq

theorem fromLlmOutput_mail :
    IntermediatePayload.fromLlmOutput mailDeps.parser mailAnswer =
      .ok ⟨"SMTP", "MAIL", 0, 1, "[MASKED_EMAIL_0]"⟩ := by
  obtain ⟨mid, heq, hplain⟩ := toList_mailAnswer
  refine IntermediatePayload.fromLlmOutput_of_simdJson ?_ (trim_eq_self heq rfl rfl) ?_
  · rw [heq]
    simp [hplain]
  · unfold mailDeps
    exact congrArg Prod.snd (if_pos rfl)

theorem voteKey_mail_declined : mailDeps.voteKey "Sorry" = "" := by
  have hne : "Sorry".toByteArray ≠ mailAnswer.toByteArray := by
    intro h
    obtain ⟨mid, heq, -⟩ := toList_mailAnswer
    rw [← String.toByteArray_inj.mp h, String.toList_ofList] at heq
    simp at heq
  have hsimd : mailDeps.parser.simdJson "Sorry".toByteArray = ("Sorry".toByteArray, none) := by
    unfold mailDeps
    dsimp only
    rw [if_neg hne]
  rw [RouterDeps.voteKey, fromLlmOutput_declined_of_simdJson hsimd rfl]

/-- All three providers answer alike. -/
def mailEnv : DispatchEnv := ⟨0, splitRound 3 mailAnswer "Sorry", .overloaded, 20, .id⟩

theorem adjudicate_mail :
    ∃ result, strictOrchestrator.adjudicate mailDeps mailEnv.round = some (.consensus result) := by
  have horch : strictOrchestrator = .withProviders mailDeps.lower (strategySettings "strict")
      stubFallback shippedProviders := rfl
  obtain ⟨result, hresult, -⟩ := adjudicate_splitRound horch mailAnswer_ne_empty (by decide)
    (voteKey_ne_empty fromLlmOutput_mail) voteKey_mail_declined (by decide) (v := 3) (by decide)
    (by decide) (by decide +kernel)
  exact ⟨result, hresult⟩

/-- The steps of a leader up to its stored map. -/
def leadAndStore (i : ℕ) : List (ℕ × RequestAction) :=
  [(i, .proceed), (i, .mask), (i, .mask), (i, .store)]

/-- Two requests with one key both find it absent; both lead and store their maps. -/
def overwritten : List (ℕ × RequestAction) :=
  [(0, .cacheGet false), (1, .cacheGet false), (0, .proceed), (1, .proceed)] ++ leadAndStore 0 ++
    leadAndStore 1

/-- The request awaits its providers, and the table does not hold its own map. -/
def mapOverwritten (s : RouterState) (c : Request) : Bool :=
  match c.dispatch with
  | .awaitProviders =>
      decide c.dispatching && c.ownMap.map AList.keys ≠ (s.maskingMaps c.key).map AList.keys
  | _ => false

/-- A request is dropped while it awaits its providers. -/
def droppedWhileHolding : List (ℕ × RequestAction) :=
  [(0, .cacheGet false), (0, .proceed)] ++ leadAndStore 0 ++ [(0, .dropFuture), (0, .proceed)]

theorem idle_of_single {orch : TmrOrchestrator} {deps : RouterDeps} {reqs : ℕ → ProviderRequest}
    {as : List (ℕ × RequestAction)} {p : Pool RouterState Request}
    (h : exec (Pool.step (orch.requestStep deps)) (requestStart deps reqs) as = some p)
    (has : ∀ e ∈ as, e.1 = 0) (hzero : ¬(p.task 0).dispatching) :
    ∀ i, ¬(p.task i).dispatching := by
  intro i
  by_cases hi : i = 0
  · rw [hi]
    exact hzero
  · rw [Pool.exec_task_of_ne h fun e he heq => hi (heq.symm.trans (has e he))]
    simp [requestStart, Request.new, Request.dispatching]

theorem exists_unmask (orch : TmrOrchestrator) (deps : RouterDeps) {p : Pool RouterState Request}
    {i : ℕ} (iter : Shuffle (Σ _ : String, String)) {result : TmrConsensusResult}
    (hrun : (p.task i).dispatching) (hpc : (p.task i).dispatch = .unmask result) :
    ∃ q, p.step (orch.requestStep deps) (i, .unmask iter) = some q ∧
      (q.task i).dispatch = .restored (p.shared.maskingMaps (p.task i).key)
        (TmrOrchestrator.restoreOutput iter (p.shared.maskingMaps (p.task i).key) result) := by
  have hstep := step_unmask orch deps i (s := p.shared) iter hrun hpc
  refine ⟨_, Pool.step_eq_some.mpr ⟨_, _, hstep, rfl⟩, ?_⟩
  simp only [Function.update_self]

/-- A dispatch can restore with the map of another request, and the map of a
dropped request stays in the table. -/
theorem masking_maps_confused_and_leaked :
    (¬∀ p, Reach (Pool.step (strictOrchestrator.requestStep mailDeps)) anyStep
        (requestStart mailDeps fun _ => mailRequest) p →
      ∀ i iter result q, (p.task i).dispatch = .unmask result →
        p.step (strictOrchestrator.requestStep mailDeps) (i, .unmask iter) = some q →
        ∃ map, (p.task i).ownMap = some map ∧
          (q.task i).dispatch =
            .restored (some map) (TmrOrchestrator.restoreOutput iter (some map) result)) ∧
    (¬∀ p, Reach (Pool.step (strictOrchestrator.requestStep mailDeps)) anyStep
        (requestStart mailDeps fun _ => mailRequest) p →
      (∀ i, ¬(p.task i).dispatching) → ∀ key, p.shared.maskingMaps key = none) := by
  have hany : ∀ (x : RouterState × Request) (a : RequestAction), a.calm = true → anyStep x a :=
    fun _ _ _ => trivial
  constructor
  · intro hall
    have hcheck : (exec (Pool.step (strictOrchestrator.requestStep mailDeps))
        (requestStart mailDeps fun _ => mailRequest) overwritten).map
          (fun p => mapOverwritten p.shared (p.task 0)) = some true := by
      decide +kernel
    obtain ⟨p, hp, hforeign⟩ := Option.map_eq_some_iff.mp hcheck
    rw [mapOverwritten] at hforeign
    split at hforeign
    · rename_i hpc
      rw [Bool.and_eq_true, decide_eq_true_eq, decide_eq_true_eq] at hforeign
      obtain ⟨hrun, hforeign⟩ := hforeign
      obtain ⟨result, hverdict⟩ := adjudicate_mail
      have hanswer := reach_answer strictOrchestrator mailDeps 0 hany (s := p.shared)
        mailEnv.attempt mailEnv.elapsedMs hrun hpc hverdict (fun _ _ => trivial)
      obtain ⟨p₁, hreach, hshared, htask, -⟩ :=
        Pool.reach_of_alone hanswer (fun q a _ _ _ _ => show anyStep q (0, a) from trivial)
      obtain ⟨q, hq, hrestored⟩ := exists_unmask strictOrchestrator mailDeps .id
        (p := p₁) (i := 0) (by rw [htask]; exact hrun) (by rw [htask])
      obtain ⟨own, hown, hsame⟩ :=
        hall p₁ ((Reach.of_exec _ hp).trans hreach) 0 .id _ q (by rw [htask]) hq
      rw [hrestored, DispatchPc.restored.injEq, hshared, htask] at hsame
      rw [htask] at hown
      have hkeys : (p.task 0).ownMap = p.shared.maskingMaps (p.task 0).key :=
        hown.trans hsame.1.symm
      exact hforeign (by rw [hkeys])
    · simp at hforeign
  · intro hall
    have hcheck : (exec (Pool.step (strictOrchestrator.requestStep mailDeps))
        (requestStart mailDeps fun _ => mailRequest) droppedWhileHolding).map
          (fun p => decide ((p.task 0).flight.pc = .dropped) &&
            (p.shared.maskingMaps (p.task 0).key).isSome) = some true := by
      decide +kernel
    obtain ⟨p, hp, hleft⟩ := Option.map_eq_some_iff.mp hcheck
    rw [Bool.and_eq_true, decide_eq_true_eq] at hleft
    have hidle : ∀ i, ¬(p.task i).dispatching :=
      idle_of_single hp (by simp [droppedWhileHolding, leadAndStore])
        (by simp [Request.dispatching, hleft.1])
    rw [hall p (Reach.of_exec _ hp) hidle (p.task 0).key] at hleft
    simp at hleft

/-! Two tenants with one prompt. -/

def twoTenants (i : ℕ) : ProviderRequest :=
  if i = 0 then mailRequest else ⟨"Mail ann@acme.io", "globex"⟩

theorem storesAlone_of_key_ne {orch : TmrOrchestrator} {deps : RouterDeps}
    {p r : Pool RouterState Request} {i : ℕ} {a : RequestAction}
    (hother : ∀ j, j ≠ i → (p.task j).HoldsMap → (p.task j).key ≠ (p.task i).key)
    (hstep : p.step (orch.requestStep deps) (i, a) = some r) : storesAlone p (i, a) := by
  intro hstore j hholds
  by_cases hj : j = i
  · subst hj hstore
    obtain ⟨s, c, hact, -⟩ := Pool.step_eq_some.mp hstep
    have hmove := requestStep_move hact
    cases hmove with
    | flight hab => simp [RequestAction.flight] at hab
    | store _ hpc => simpa [hpc, DispatchPc.stored] using hholds.stored
  · exact hother j hj hholds

theorem keepsHolders_of_calm {p : Pool RouterState Request} {i : ℕ} {a : RequestAction}
    (h : a.calm = true) : keepsHolders p (i, a) := by
  intro hdrop
  change a = .dropFuture at hdrop
  simp [hdrop, RequestAction.calm] at h

theorem reach_alone_key {orch : TmrOrchestrator} {deps : RouterDeps} {i : ℕ}
    {x y : RouterState × Request}
    (h : Reach (Pool.alone (orch.requestStep deps) i) anyStep x y) :
    Reach (Pool.alone (orch.requestStep deps) i) (fun z _ => z.2.key = x.2.key) x y := by
  refine (h.and_invariant (I := fun z => z.2.key = x.2.key) rfl ?_).mono fun _ _ hz => hz.2
  intro z a z' hz _ hstep
  exact (requestStep_move hstep).key_eq.trans hz

/-- `storesAlone`, as far as the first `n` requests are concerned. -/
def storesAloneBelow (n : ℕ) (p : Pool RouterState Request) (a : ℕ × RequestAction) : Bool :=
  match a.2 with
  | .store => (List.range n).all fun j =>
      !(decide (p.task j).dispatching && (p.task j).dispatch.stored &&
        decide ((p.task j).key = (p.task a.1).key))
  | _ => true

theorem storesAlone_of_below {n : ℕ} {p : Pool RouterState Request} {a : ℕ × RequestAction}
    {deps : RouterDeps} {req : ProviderRequest} (hidle : ∀ j, n ≤ j → p.task j = .new deps req)
    (h : storesAloneBelow n p a = true) : storesAlone p a := by
  intro hstore j hholds
  have hj : j < n := by
    by_contra hge
    rw [hidle j (not_lt.mp hge)] at hholds
    simpa [Request.new, DispatchPc.stored] using hholds.stored
  unfold storesAloneBelow at h
  rw [hstore] at h
  simpa [hholds.live, hholds.stored] using List.all_eq_true.mp h j (List.mem_range.mpr hj)

/-- Both requests hold their maps, and the first one awaits its providers. -/
structure BothStored (p : Pool RouterState Request) : Prop where
  live : (p.task 0).dispatching
  awaits : (p.task 0).dispatch = .awaitProviders
  holds : (p.task 1).HoldsMap
  key_ne : (p.task 1).key ≠ (p.task 0).key
  idle : ∀ j, 2 ≤ j → p.task j = .new mailDeps ⟨"Mail ann@acme.io", "globex"⟩

theorem exists_bothStored :
    ∃ p, Reach (Pool.step (strictOrchestrator.requestStep mailDeps)) storesAlone
      (requestStart mailDeps twoTenants) p ∧ BothStored p := by
  have hcheck : (exec (guarded (Pool.step (strictOrchestrator.requestStep mailDeps))
      fun p a => storesAloneBelow 2 p a = true) (requestStart mailDeps twoTenants)
      overwritten).map (fun p =>
        (match (p.task 0).dispatch with
          | .awaitProviders => decide (p.task 0).dispatching
          | _ => false) &&
        (decide (p.task 1).dispatching && (p.task 1).dispatch.stored &&
          decide ((p.task 1).key ≠ (p.task 0).key))) = some true := by
    decide +kernel
  obtain ⟨p, hguarded, hstate⟩ := Option.map_eq_some_iff.mp hcheck
  have hidle : ∀ j, 2 ≤ j → (requestStart mailDeps twoTenants).task j =
      .new mailDeps ⟨"Mail ann@acme.io", "globex"⟩ := by
    intro j hj
    show Request.new mailDeps (twoTenants j) = _
    rw [twoTenants, if_neg (by omega)]
  have htasks : ∀ e ∈ overwritten, e.1 < 2 := by simp [overwritten, leadAndStore]
  refine ⟨p, Pool.reach_of_exec_below 2 _ hidle htasks
    (fun q e hnew hguard => storesAlone_of_below hnew hguard) hguarded, ?_⟩
  rw [Bool.and_eq_true, Bool.and_eq_true, Bool.and_eq_true, decide_eq_true_eq,
    decide_eq_true_eq] at hstate
  obtain ⟨hzero, ⟨hlive, hstored⟩, hkey⟩ := hstate
  split at hzero
  · rename_i hawaits
    refine ⟨of_decide_eq_true hzero, hawaits, ⟨hlive, hstored⟩, hkey, fun j hj => ?_⟩
    rw [Pool.exec_task_of_ne (exec_of_guarded _ hguarded) fun e he hej => ?_, hidle j hj]
    have hlt := htasks e he
    omega
  · cases hzero

/-- A second request has looked up its key, and a third one is dropped before it has. -/
structure DroppedEarly (p : Pool RouterState Request) : Prop where
  shared : p.shared = .new
  first : p.task 0 = .new mailDeps mailRequest
  second : (p.task 1).flight.pc = .insert
  third : (p.task 2).stage = .dropped
  idle : ∀ j, j ≠ 0 → ¬(p.task j).dispatching

theorem exists_droppedEarly :
    ∃ p, Reach (Pool.step (strictOrchestrator.requestStep mailDeps)) keepsHolders
      (requestStart mailDeps twoTenants) p ∧ DroppedEarly p := by
  let asked : Request := { Request.new mailDeps (twoTenants 1) with stage := .dedup }
  let looked : Request := { asked with flight := { asked.flight with pc := .insert } }
  let dropped : Request := { Request.new mailDeps (twoTenants 2) with stage := .dropped }
  let p := (requestStart mailDeps twoTenants).task
  have hreach : Reach (Pool.step (strictOrchestrator.requestStep mailDeps)) keepsHolders
      (requestStart mailDeps twoTenants)
      ⟨.new, Function.update (Function.update (Function.update p 1 asked) 1 looked) 2 dropped⟩ := by
    refine ((Reach.refl.tail (a := (1, .cacheGet false)) (keepsHolders_of_calm rfl) rfl).tail
      (a := (1, .proceed)) (keepsHolders_of_calm rfl) rfl).tail
      (a := (2, .dropFuture)) ?_ rfl
    intro _ hholds
    exact not_holdsMap_start mailDeps twoTenants 2 hholds
  refine ⟨_, hreach, rfl, rfl, rfl, rfl, fun j hj => ?_⟩
  match j with
  | 1 => exact nofun
  | 2 => exact nofun
  | j + 3 =>
    dsimp only
    rw [Function.update_of_ne (by omega), Function.update_of_ne (by omega),
      Function.update_of_ne (by omega)]
    exact nofun

/-- One tenant's request is served while the other one's map is in the table; and one is
served after another request was dropped. -/
theorem masking_map_hygiene_two_tenants :
    (∃ p q result map,
      Reach (Pool.step (strictOrchestrator.requestStep mailDeps)) storesAlone
        (requestStart mailDeps twoTenants) p ∧ (p.task 1).HoldsMap ∧
      (p.task 0).dispatch = .unmask result ∧ (p.task 0).ownMap = some map ∧
      p.step (strictOrchestrator.requestStep mailDeps) (0, .unmask .id) = some q ∧
      (q.task 0).dispatch =
        .restored (some map) (TmrOrchestrator.restoreOutput .id (some map) result)) ∧
    (∃ p, Reach (Pool.step (strictOrchestrator.requestStep mailDeps)) keepsHolders
        (requestStart mailDeps twoTenants) p ∧
      (∃ result, (p.task 0).flight.pc = .leaderReturned result) ∧
      (p.task 2).stage = .dropped ∧ ∀ key, p.shared.maskingMaps key = none) := by
  have hygiene := masking_map_hygiene strictOrchestrator mailDeps twoTenants
  obtain ⟨result, hverdict⟩ := adjudicate_mail
  constructor
  · obtain ⟨p, hp, hstored⟩ := exists_bothStored
    have hany : ∀ (x : RouterState × Request) (a : RequestAction), a.calm = true →
        anyStep x a := fun _ _ _ => trivial
    have hanswer := reach_answer strictOrchestrator mailDeps 0 hany (s := p.shared)
      mailEnv.attempt mailEnv.elapsedMs hstored.live hstored.awaits hverdict
      (fun _ _ => trivial)
    obtain ⟨p₁, hreach, hshared, htask, hother⟩ := Pool.reach_of_alone (reach_alone_key hanswer)
      fun q a r hkey hsame hstep => by
        refine storesAlone_of_key_ne (fun j hj hholds => ?_) hstep
        dsimp only at hkey
        rw [hkey]
        rw [hsame j hj] at hholds ⊢
        by_cases hone : j = 1
        · rw [hone]
          exact hstored.key_ne
        · rw [hstored.idle j (by omega)] at hholds
          simpa [Request.new, DispatchPc.stored] using hholds.stored
    obtain ⟨q, hq, -⟩ := exists_unmask strictOrchestrator mailDeps .id
      (p := p₁) (i := 0) (by rw [htask]; exact hstored.live) (by rw [htask])
    obtain ⟨map, hown, hrestored⟩ :=
      hygiene.1 p₁ (hp.trans hreach) 0 .id _ q (by rw [htask]) hq
    refine ⟨p₁, q, _, map, hp.trans hreach, ?_, by rw [htask], hown, hq, hrestored⟩
    rw [hother 1 one_ne_zero]
    exact hstored.holds
  · have hcalm : ∀ (x : RouterState × Request) (a : RequestAction), a.calm = true →
        a.calm = true := fun _ _ => id
    have hnostasis : strictOrchestrator.adjudicate mailDeps mailEnv.round ≠ some .stasis := by
      simp [hverdict]
    obtain ⟨p, hp, hdropped⟩ := exists_droppedEarly
    obtain ⟨res, hres, -⟩ := dispatch_of_consensus hverdict mailRequest
    obtain ⟨s, c, hreach, hflight, -⟩ := undisturbed_request strictOrchestrator mailDeps 0 _ hcalm
      (s := .new) rfl rfl (fun hstasis => absurd hstasis hnostasis) hres
    rw [← hdropped.shared, ← hdropped.first] at hreach
    obtain ⟨q, hq, -, htask, hother⟩ := Pool.reach_of_alone hreach
      (fun _ _ _ hcalm _ _ => keepsHolders_of_calm hcalm)
    have hreturned : (q.task 0).flight.pc = .leaderReturned res := by
      rw [htask, hflight]
    refine ⟨q, hp.trans hq, ⟨res, hreturned⟩, ?_, hygiene.2 q (hp.trans hq) fun i => ?_⟩
    · rw [hother 2 two_ne_zero]
      exact hdropped.third
    · by_cases hi : i = 0
      · simp [hi, Request.dispatching, hreturned]
      · rw [hother i hi]
        exact hdropped.idle i hi

end SereinGateway.Router

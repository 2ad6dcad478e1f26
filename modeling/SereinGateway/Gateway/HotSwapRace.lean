import Mathlib
import SereinGateway.Gateway.HotSwap
import SereinGateway.Lib.Exchange
import SereinGateway.Lib.Transition

/-!
Hot swaps that overlap.

`handle_hot_swap` replaces the bytes by an atomic exchange, compiles them, and puts
the component in place under the write lock of the kernel. These are two atomic
steps of a handler with a compilation of any length between them, and the steps of
the handlers interleave. While it waits for the compilation a handler can be dropped,
by the timeout of the server or because the client has gone; then its bytes stay and
its component is never put in place.

The bytes and the component are each accounted for in every interleaving
(`hot_swaps_accounted`). That the component is made from the bytes holds when
handlers do not overlap, and not otherwise.
-/

namespace SereinGateway.Gateway

open SereinGateway.Lib

variable {κ : Type*}

/-- Where a handler stands. Calls are numbered in the order in which they replace
the bytes. -/
inductive SwapTask where
  | idle
  | compiling (call : ℕ) (body : List UInt8) (previousSizeBytes : ℕ)
  | dropped
  | answered (response : HotSwapResponse)

/-- The call that is between its two steps. -/
def SwapTask.call? : SwapTask → Option ℕ
  | .compiling call _ _ => some call
  | _ => none

/-- What the handlers share; the lists are not in the program. -/
structure SwapShared (κ : Type*) where
  wasmModule : List UInt8
  kernel : Kernel κ
  /-- The bodies, and the bytes that they replaced, by the number of the call. -/
  stored : List (List UInt8)
  replaced : List (List UInt8)
  /-- The calls whose component was put in place, in this order. -/
  installed : List ℕ
  failed : List ℕ
  /-- The calls whose handler was dropped. -/
  abandoned : List ℕ

inductive SwapStep where
  /-- `wasm_module.swap(…)`, after the checks. -/
  | swapBytes (body : List UInt8)
  /-- The end of `reload_component`. -/
  | reload
  /-- The handler is dropped in the `await` of `reload_component`. -/
  | drop

def SwapStep.body? : SwapStep → Option (List UInt8)
  | .swapBytes body => some body
  | _ => none

namespace SwapShared

def start (bytes : List UInt8) (kernel : Kernel κ) : SwapShared κ where
  wasmModule := bytes
  kernel := kernel
  stored := []
  replaced := []
  installed := []
  failed := []
  abandoned := []

/-- The calls that are over. -/
def settled (s : SwapShared κ) : List ℕ := s.installed ++ s.failed ++ s.abandoned

def act (compile : List UInt8 → Compilation κ) (_ : ℕ) (s : SwapShared κ) (t : SwapTask) :
    SwapStep → Option (SwapShared κ × SwapTask)
  | .swapBytes body =>
      match t with
      | .compiling _ _ _ => none
      | _ =>
          if body.length ≤ maxModuleSize ∧ magicNumber <+: body then
            some ({ s with
              wasmModule := body
              stored := s.stored ++ [body]
              replaced := s.replaced ++ [s.wasmModule] },
              .compiling s.stored.length body s.wasmModule.length)
          else none
  | .reload =>
      match t with
      | .compiling call body previousSizeBytes =>
          match s.kernel.reloadComponent (compile body) with
          | .error e =>
              some ({ s with failed := s.failed ++ [call] },
                .answered (.error ⟨500, "WASM compilation failed: " ++ e, "WASM_COMPILE_ERROR"⟩))
          | .ok kernel =>
              some ({ s with kernel := kernel, installed := s.installed ++ [call] },
                .answered (.swapped previousSizeBytes body.length))
      | _ => none
  | .drop =>
      match t with
      | .compiling call _ _ => some ({ s with abandoned := s.abandoned ++ [call] }, .dropped)
      | _ => none

end SwapShared

abbrev SwapPool (κ : Type*) := Pool (SwapShared κ) SwapTask

def swapStart (bytes : List UInt8) (kernel : Kernel κ) : SwapPool κ :=
  ⟨.start bytes kernel, fun _ => .idle⟩

/-- The two steps of a handler that nobody disturbs are the handler. -/
theorem swapModule_of_alone {compile : List UInt8 → Compilation κ} {i : ℕ} {s s' : SwapShared κ}
    {t t' : SwapTask} {body : List UInt8}
    (h : exec (Pool.alone (SwapShared.act compile) i) (s, t) [.swapBytes body, .reload] =
      some (s', t')) (tenantId : String) (state : AppState κ)
    (hbytes : state.wasmModule = s.wasmModule) (hkernel : state.kernel = s.kernel) :
    ∃ response, t' = .answered response ∧
      (swapModule compile tenantId body state).response = some response ∧
      (swapModule compile tenantId body state).state.wasmModule = s'.wasmModule ∧
      (swapModule compile tenantId body state).state.kernel = s'.kernel := by
  obtain ⟨⟨s₁, t₁⟩, hstore, hrest⟩ := Option.bind_eq_some_iff.mp h
  obtain ⟨⟨s₂, t₂⟩, hreload, hdone⟩ := Option.bind_eq_some_iff.mp hrest
  cases hdone
  obtain ⟨hsize, hmagic, hs₁, ht₁⟩ : body.length ≤ maxModuleSize ∧ magicNumber <+: body ∧
      s₁ = { s with
        wasmModule := body
        stored := s.stored ++ [body]
        replaced := s.replaced ++ [s.wasmModule] } ∧
      t₁ = .compiling s.stored.length body s.wasmModule.length := by
    unfold Pool.alone SwapShared.act at hstore
    dsimp only at hstore
    split at hstore
    · cases hstore
    · obtain ⟨⟨hsize, hmagic⟩, hact⟩ := Option.ite_none_right_eq_some.mp hstore
      cases hact
      exact ⟨hsize, hmagic, rfl, rfl⟩
  subst hs₁ ht₁
  have hlength : 4 ≤ body.length := hmagic.length_le
  have hne : body.isEmpty = false := by
    rw [List.isEmpty_eq_false_iff]
    rintro rfl
    cases hlength
  have htake := take_magicNumber_iff.mpr hmagic
  rw [swapModule, hne, if_neg Bool.false_ne_true, if_neg (by omega), if_neg (by omega),
    if_neg (not_not.mpr htake)]
  dsimp only
  rw [hkernel, hbytes]
  unfold Pool.alone SwapShared.act at hreload
  dsimp only at hreload
  cases hresult : s.kernel.reloadComponent (compile body) with
  | error e =>
    rw [hresult] at hreload
    cases hreload
    exact ⟨_, rfl, rfl, rfl, rfl⟩
  | ok kernel =>
    rw [hresult] at hreload
    cases hreload
    exact ⟨_, rfl, rfl, rfl, rfl⟩

/-! ### The books -/

def Compilation.component? : Compilation κ → Option κ
  | .compiled component => some component
  | _ => none

/-- The counter of the container after `n` components were put in place. -/
def Kernel.swapsAfter (kernel : Kernel κ) (n : ℕ) : Option UInt64 :=
  match kernel.tenantComponent with
  | some container => some (container.swapCount + .ofNat n)
  -- The first component makes the container.
  | none => if n = 0 then none else some (.ofNat (n - 1))

theorem swaps_of_reloadComponent {kernel kernel' first : Kernel κ} {compilation : Compilation κ}
    {n : ℕ} (h : kernel.reloadComponent compilation = .ok kernel')
    (hswaps : kernel.tenantComponent.map HotSwapContainer.swapCount = first.swapsAfter n) :
    kernel'.tenantComponent.map HotSwapContainer.swapCount = first.swapsAfter (n + 1) := by
  unfold Kernel.reloadComponent at h
  split at h
  · cases h
  · cases h
  · split at h
    · cases h
    · unfold Kernel.swapsAfter at hswaps ⊢
      split at h
      · rename_i container hcontainer
        cases h
        rw [hcontainer] at hswaps
        show some (container.swapCount + 1) = _
        rw [Option.map_some] at hswaps
        split
        · rename_i old hold
          rw [hold, Option.some.injEq] at hswaps
          rw [hswaps, add_assoc, UInt64.ofNat_add]
          rfl
        · rename_i hnone
          rw [hnone] at hswaps
          dsimp only at hswaps
          split at hswaps
          · cases hswaps
          · rename_i hn
            rw [Option.some.injEq] at hswaps
            rw [if_neg (Nat.succ_ne_zero n), hswaps, Nat.add_sub_cancel]
            obtain ⟨m, rfl⟩ := Nat.exists_eq_succ_of_ne_zero hn
            rw [Nat.succ_sub_one, Nat.succ_eq_add_one, UInt64.ofNat_add]
            rfl
      · rename_i hcontainer
        cases h
        rw [hcontainer] at hswaps
        split
        · rename_i old hold
          rw [hold] at hswaps
          cases hswaps
        · rename_i hnone
          rw [hnone] at hswaps
          dsimp only at hswaps
          split at hswaps
          · rename_i hn
            rw [hn]
            rfl
          · cases hswaps

/-- What the shared state has to do with the calls so far. -/
structure SwapsAccounted (compile : List UInt8 → Compilation κ) (bytes : List UInt8)
    (kernel : Kernel κ) (p : SwapPool κ) : Prop where
  exchanged : Exchanged bytes p.shared.stored p.shared.replaced p.shared.wasmModule
  /-- A call that compiles has its own body and the size of what it replaced. -/
  compiling : ∀ i call body size, p.task i = .compiling call body size →
    p.shared.stored[call]? = some body ∧
      p.shared.replaced[call]?.map List.length = some size
  own : ∀ i j call, (p.task i).call? = some call → (p.task j).call? = some call → i = j
  settled : p.shared.settled.Nodup
  /-- A call is settled, or it compiles. -/
  underway : ∀ i call, (p.task i).call? = some call → call ∉ p.shared.settled
  calls : ∀ call, call < p.shared.stored.length ↔
    call ∈ p.shared.settled ∨ ∃ i, (p.task i).call? = some call
  component : p.shared.kernel.component = p.shared.installed.getLast?.elim kernel.component
    fun call => p.shared.stored[call]?.bind fun body => (compile body).component?
  made : ∀ call ∈ p.shared.installed, ∃ body component, p.shared.stored[call]? = some body ∧
    compile body = .compiled component
  swaps : p.shared.kernel.tenantComponent.map HotSwapContainer.swapCount =
    kernel.swapsAfter p.shared.installed.length

section Books

variable {compile : List UInt8 → Compilation κ} {bytes : List UInt8} {kernel : Kernel κ}
  {p q : SwapPool κ}

theorem mem_settled {s : SwapShared κ} {call : ℕ} (h : call ∈ s.installed) : call ∈ s.settled :=
  List.mem_append_left _ (List.mem_append_left _ h)

theorem swapsAccounted_start (compile : List UInt8 → Compilation κ) (bytes : List UInt8)
    (kernel : Kernel κ) : SwapsAccounted compile bytes kernel (swapStart bytes kernel) where
  exchanged := .start bytes
  compiling _ _ _ _ h := nomatch h
  own _ _ _ h := nomatch h
  settled := .nil
  underway _ _ h := nomatch h
  calls call := iff_of_false (Nat.not_lt_zero call) (by
    rintro (h | ⟨i, hi⟩)
    · cases h
    · cases hi)
  component := rfl
  made _ h := nomatch h
  swaps := by
    unfold Kernel.swapsAfter
    show kernel.tenantComponent.map HotSwapContainer.swapCount = _
    cases kernel.tenantComponent with
    | none => rfl
    | some container =>
        show some container.swapCount = some (container.swapCount + 0)
        rw [add_zero]

theorem SwapsAccounted.swapBytes (h : SwapsAccounted compile bytes kernel p) {i : ℕ}
    (hidle : (p.task i).call? = none) (body : List UInt8) :
    SwapsAccounted compile bytes kernel
      ⟨{ p.shared with
          wasmModule := body
          stored := p.shared.stored ++ [body]
          replaced := p.shared.replaced ++ [p.shared.wasmModule] },
        Function.update p.task i
          (.compiling p.shared.stored.length body p.shared.wasmModule.length)⟩ := by
  have hlength := h.exchanged.length_returned
  -- The number of the new call has not been given before.
  have hfresh : ∀ call, call ∈ p.shared.settled ∨
      (∃ j, (p.task j).call? = some call) → call < p.shared.stored.length :=
    fun call hcall => (h.calls call).mpr hcall
  have htask : ∀ j call, (Function.update p.task i
      (.compiling p.shared.stored.length body p.shared.wasmModule.length) j).call? = some call ↔
      (j = i ∧ call = p.shared.stored.length) ∨ (p.task j).call? = some call := by
    intro j call
    by_cases hj : j = i
    · subst hj
      rw [Function.update_self, hidle]
      show some p.shared.stored.length = some call ↔ _
      simp [eq_comm]
    · rw [Function.update_of_ne hj]
      simp [hj]
  constructor
  · exact h.exchanged.exchange body
  · intro j call body' size hj
    dsimp only at hj
    by_cases hji : j = i
    · subst hji
      rw [Function.update_self] at hj
      cases hj
      refine ⟨List.getElem?_concat_length, ?_⟩
      show (p.shared.replaced ++ [p.shared.wasmModule])[p.shared.stored.length]?.map _ = _
      rw [← hlength, List.getElem?_concat_length]
      rfl
    · rw [Function.update_of_ne hji] at hj
      obtain ⟨hbody, hsize⟩ := h.compiling j call body' size hj
      have hcall : call < p.shared.stored.length := hfresh call (.inr ⟨j, by rw [hj]; rfl⟩)
      refine ⟨?_, ?_⟩
      · show (p.shared.stored ++ [body])[call]? = _
        rw [List.getElem?_append_left hcall, hbody]
      · show (p.shared.replaced ++ [p.shared.wasmModule])[call]?.map _ = _
        rw [List.getElem?_append_left (hlength ▸ hcall), hsize]
  · intro j k call hj hk
    rcases (htask j call).mp hj with ⟨hji, hcall⟩ | hj'
    · rcases (htask k call).mp hk with ⟨hki, -⟩ | hk'
      · rw [hji, hki]
      · exact absurd (hcall ▸ hfresh call (.inr ⟨k, hk'⟩)) (lt_irrefl _)
    · rcases (htask k call).mp hk with ⟨-, hcall⟩ | hk'
      · exact absurd (hcall ▸ hfresh call (.inr ⟨j, hj'⟩)) (lt_irrefl _)
      · exact h.own j k call hj' hk'
  · exact h.settled
  · intro j call hj
    rcases (htask j call).mp hj with ⟨-, rfl⟩ | hj
    · exact fun hmem => absurd (hfresh _ (.inl hmem)) (lt_irrefl _)
    · exact h.underway j call hj
  · intro call
    show call < (p.shared.stored ++ [body]).length ↔ _
    rw [List.length_append, List.length_singleton, Nat.lt_succ_iff_lt_or_eq, h.calls call]
    constructor
    · rintro ((hsettled | ⟨j, hj⟩) | rfl)
      · exact .inl hsettled
      · exact .inr ⟨j, (htask j call).mpr (.inr hj)⟩
      · exact .inr ⟨i, (htask i _).mpr (.inl ⟨rfl, rfl⟩)⟩
    · rintro (hsettled | ⟨j, hj⟩)
      · exact .inl (.inl hsettled)
      · rcases (htask j call).mp hj with ⟨-, rfl⟩ | hj
        · exact .inr rfl
        · exact .inl (.inr ⟨j, hj⟩)
  · show p.shared.kernel.component = p.shared.installed.getLast?.elim _ fun call =>
      (p.shared.stored ++ [body])[call]?.bind _
    rw [h.component]
    cases hlast : p.shared.installed.getLast? with
    | none => rfl
    | some call =>
        have hmem : call ∈ p.shared.settled := mem_settled (List.mem_of_getLast? hlast)
        rw [Option.elim_some, Option.elim_some,
          List.getElem?_append_left (hfresh call (.inl hmem))]
  · intro call hcall
    obtain ⟨body', component, hbody, hcompile⟩ := h.made call hcall
    refine ⟨body', component, ?_, hcompile⟩
    show (p.shared.stored ++ [body])[call]? = _
    rw [List.getElem?_append_left (hfresh call (.inl (mem_settled hcall))), hbody]
  · exact h.swaps

theorem SwapsAccounted.settle (h : SwapsAccounted compile bytes kernel p) {i call size : ℕ}
    {body : List UInt8} (htask : p.task i = .compiling call body size) {t : SwapTask}
    (ht : t.call? = none) {kernel' : Kernel κ} {installed failed abandoned : List ℕ}
    (hperm : (installed ++ failed ++ abandoned).Perm (call :: p.shared.settled))
    (hcomponent : kernel'.component = installed.getLast?.elim kernel.component
      fun call => p.shared.stored[call]?.bind fun body => (compile body).component?)
    (hmade : ∀ call ∈ installed, ∃ body component, p.shared.stored[call]? = some body ∧
      compile body = .compiled component)
    (hswaps : kernel'.tenantComponent.map HotSwapContainer.swapCount =
      kernel.swapsAfter installed.length) :
    SwapsAccounted compile bytes kernel
      ⟨{ p.shared with
          kernel := kernel'
          installed := installed
          failed := failed
          abandoned := abandoned },
        Function.update p.task i t⟩ := by
  have hcall : (p.task i).call? = some call := by rw [htask]; rfl
  have hrest : ∀ j c, (Function.update p.task i t j).call? = some c ↔
      j ≠ i ∧ (p.task j).call? = some c := by
    intro j c
    by_cases hj : j = i
    · subst hj
      rw [Function.update_self, ht]
      exact iff_of_false nofun fun h => h.1 rfl
    · rw [Function.update_of_ne hj]
      exact (and_iff_right hj).symm
  constructor
  · exact h.exchanged
  · intro j c body' size' hj
    dsimp only at hj
    by_cases hji : j = i
    · subst hji
      rw [Function.update_self] at hj
      rw [hj] at ht
      cases ht
    · rw [Function.update_of_ne hji] at hj
      exact h.compiling j c body' size' hj
  · intro j k c hj hk
    exact h.own j k c ((hrest j c).mp hj).2 ((hrest k c).mp hk).2
  · exact hperm.nodup_iff.mpr (List.nodup_cons.mpr ⟨h.underway i call hcall, h.settled⟩)
  · intro j c hj
    obtain ⟨hji, hc⟩ := (hrest j c).mp hj
    show c ∉ installed ++ failed ++ abandoned
    rw [hperm.mem_iff, List.mem_cons, not_or]
    refine ⟨?_, h.underway j c hc⟩
    rintro rfl
    exact hji (h.own j i c hc hcall)
  · intro c
    show c < p.shared.stored.length ↔ c ∈ installed ++ failed ++ abandoned ∨ _
    rw [h.calls c, hperm.mem_iff, List.mem_cons]
    constructor
    · rintro (hsettled | ⟨j, hj⟩)
      · exact .inl (.inr hsettled)
      · by_cases hji : j = i
        · subst hji
          rw [hcall, Option.some.injEq] at hj
          exact .inl (.inl hj.symm)
        · exact .inr ⟨j, (hrest j c).mpr ⟨hji, hj⟩⟩
    · rintro ((rfl | hsettled) | ⟨j, hj⟩)
      · exact .inr ⟨i, hcall⟩
      · exact .inl hsettled
      · exact .inr ⟨j, ((hrest j c).mp hj).2⟩
  · exact hcomponent
  · exact hmade
  · exact hswaps

theorem SwapsAccounted.step (h : SwapsAccounted compile bytes kernel p) {e : ℕ × SwapStep}
    (hstep : p.step (SwapShared.act compile) e = some q) :
    SwapsAccounted compile bytes kernel q := by
  obtain ⟨i, a⟩ := e
  obtain ⟨s, t, hact, rfl⟩ := Pool.step_eq_some.mp hstep
  unfold SwapShared.act at hact
  cases a with
  | swapBytes body =>
      dsimp only at hact
      split at hact
      · cases hact
      · rename_i hidle
        obtain ⟨-, hact⟩ := Option.ite_none_right_eq_some.mp hact
        cases hact
        refine h.swapBytes ?_ body
        cases htask : p.task i with
        | compiling call body size => exact absurd htask (hidle call body size)
        | idle => rfl
        | dropped => rfl
        | answered response => rfl
  | reload =>
      dsimp only at hact
      split at hact
      · rename_i call body size htask
        have hbody := (h.compiling i call body size htask).1
        split at hact
        · cases hact
          refine h.settle htask rfl ?_ h.component h.made h.swaps
          rw [← List.append_assoc, List.append_assoc, List.singleton_append]
          exact List.perm_middle
        · rename_i kernel' hreload
          cases hact
          obtain ⟨component, hcompile, hcomponent⟩ := component_of_reloadComponent hreload
          refine h.settle htask rfl ?_ ?_ ?_ ?_
          · rw [List.append_assoc, List.append_assoc, List.singleton_append, SwapShared.settled,
              List.append_assoc]
            exact List.perm_middle
          · rw [List.getLast?_concat, Option.elim_some, hbody, Option.bind_some, hcompile,
              hcomponent]
            rfl
          · intro c hc
            rcases List.mem_append.mp hc with hold | hnew
            · exact h.made c hold
            · rw [List.mem_singleton.mp hnew]
              exact ⟨body, component, hbody, hcompile⟩
          · rw [List.length_append, List.length_singleton]
            exact swaps_of_reloadComponent hreload h.swaps
      · cases hact
  | drop =>
      dsimp only at hact
      split at hact
      · rename_i call body size htask
        cases hact
        refine h.settle htask rfl ?_ h.component h.made h.swaps
        rw [← List.append_assoc]
        exact List.perm_append_singleton call p.shared.settled
      · cases hact

theorem swapsAccounted_of_reach {ok : SwapPool κ → ℕ × SwapStep → Prop}
    (h : Reach (Pool.step (SwapShared.act compile)) ok (swapStart bytes kernel) p) :
    SwapsAccounted compile bytes kernel p :=
  h.invariant (swapsAccounted_start compile bytes kernel) fun _ _ _ hq _ hstep => hq.step hstep

end Books

/-! ### The bytes and the component -/

/-- No handler replaces the bytes while another one compiles. -/
def Serial (p : SwapPool κ) (e : ℕ × SwapStep) : Prop :=
  ∀ body, e.2 = .swapBytes body → ∀ i, (p.task i).call? = none

/-- The call that replaced the bytes last is settled: its component is in place, its reload
has failed, or its handler was dropped. -/
structure InStep (compile : List UInt8 → Compilation κ) (p : SwapPool κ) : Prop where
  latest : ∀ i call, (p.task i).call? = some call → call + 1 = p.shared.stored.length
  settled : (∀ i, (p.task i).call? = none) → p.shared.stored ≠ [] →
    p.shared.installed.getLast? = some (p.shared.stored.length - 1) ∨
      p.shared.failed.getLast? = some (p.shared.stored.length - 1) ∨
        p.shared.abandoned.getLast? = some (p.shared.stored.length - 1)

section Agreement

variable {compile : List UInt8 → Compilation κ} {bytes : List UInt8} {kernel : Kernel κ}
  {p q : SwapPool κ}

theorem InStep.number (h : InStep compile p) {i call size : ℕ} {body : List UInt8}
    (htask : p.task i = .compiling call body size) : call = p.shared.stored.length - 1 := by
  have hcall := h.latest i call (by rw [htask]; rfl)
  omega

theorem InStep.latest_update (h : InStep compile p) {i : ℕ} {t : SwapTask} (ht : t.call? = none)
    (j c : ℕ) (hj : (Function.update p.task i t j).call? = some c) :
    c + 1 = p.shared.stored.length := by
  by_cases hji : j = i
  · subst hji
    rw [Function.update_self, ht] at hj
    cases hj
  · rw [Function.update_of_ne hji] at hj
    exact h.latest j c hj

theorem InStep.step (h : InStep compile p) {e : ℕ × SwapStep} (hserial : Serial p e)
    (hstep : p.step (SwapShared.act compile) e = some q) : InStep compile q := by
  obtain ⟨i, a⟩ := e
  obtain ⟨s, t, hact, rfl⟩ := Pool.step_eq_some.mp hstep
  unfold SwapShared.act at hact
  cases a with
  | swapBytes body =>
      have hrest := hserial body rfl
      dsimp only at hact
      split at hact
      · cases hact
      · obtain ⟨-, hact⟩ := Option.ite_none_right_eq_some.mp hact
        cases hact
        constructor
        · intro j call hj
          dsimp only at hj
          by_cases hji : j = i
          · subst hji
            rw [Function.update_self] at hj
            cases hj
            show p.shared.stored.length + 1 = (p.shared.stored ++ [body]).length
            rw [List.length_append, List.length_singleton]
          · rw [Function.update_of_ne hji, hrest j] at hj
            cases hj
        · intro hnone
          have hi := hnone i
          dsimp only at hi
          rw [Function.update_self] at hi
          cases hi
  | reload =>
      dsimp only at hact
      split at hact
      · rename_i call body size htask
        have hnumber := h.number htask
        split at hact
        · cases hact
          refine ⟨h.latest_update rfl, fun _ _ => .inr (.inl ?_)⟩
          rw [← hnumber]
          exact List.getLast?_concat
        · cases hact
          refine ⟨h.latest_update rfl, fun _ _ => .inl ?_⟩
          rw [← hnumber]
          exact List.getLast?_concat
      · cases hact
  | drop =>
      dsimp only at hact
      split at hact
      · rename_i call body size htask
        have hnumber := h.number htask
        cases hact
        refine ⟨h.latest_update rfl, fun _ _ => .inr (.inr ?_)⟩
        rw [← hnumber]
        exact List.getLast?_concat
      · cases hact

/-- When handlers do not overlap, then with none under way the component is made from
the bytes, unless nothing was swapped, or the last reload failed, or its handler was
dropped. -/
theorem component_of_bytes_of_serial (compile : List UInt8 → Compilation κ) (bytes : List UInt8)
    (kernel : Kernel κ)
    (h : Reach (Pool.step (SwapShared.act compile)) Serial (swapStart bytes kernel) p)
    (hrest : ∀ i, (p.task i).call? = none) (hswapped : p.shared.stored ≠ [])
    (hfailed : p.shared.failed.getLast? ≠ some (p.shared.stored.length - 1))
    (habandoned : p.shared.abandoned.getLast? ≠ some (p.shared.stored.length - 1)) :
    ∃ component, compile p.shared.wasmModule = .compiled component ∧
      p.shared.kernel.component = some component := by
  have hbooks := swapsAccounted_of_reach h
  have hinStep : InStep compile p := by
    refine h.invariant ⟨fun _ _ hi => (nomatch hi), fun _ hne => absurd rfl hne⟩ ?_
    intro q e r hq hserial hstep
    exact hq.step hserial hstep
  have hlast : p.shared.stored[p.shared.stored.length - 1]? = some p.shared.wasmModule := by
    rw [← List.getLast?_eq_getElem?, ← hbooks.exchanged.getLast?_eq,
      List.getLast?_cons_of_ne_nil hswapped]
  have hinstalled : p.shared.installed.getLast? = some (p.shared.stored.length - 1) := by
    rcases hinStep.settled hrest hswapped with hinstalled | hlost | hlost
    · exact hinstalled
    · exact absurd hlost hfailed
    · exact absurd hlost habandoned
  obtain ⟨body, component, hbody, hcompile⟩ :=
    hbooks.made _ (List.mem_of_getLast? hinstalled)
  rw [hlast, Option.some.injEq] at hbody
  refine ⟨component, hbody ▸ hcompile, ?_⟩
  rw [hbooks.component, hinstalled, Option.elim_some, hlast, Option.bind_some, hbody, hcompile]
  rfl

end Agreement

/-! Modules that are compiled to themselves. -/

def moduleOf (b : UInt8) : List UInt8 := magicNumber ++ [b]

/-- Two handlers overlap, one of them is dropped, and a third one is still compiling. -/
def threeCalls : List (ℕ × SwapStep) :=
  [(0, .swapBytes (moduleOf 0)), (1, .swapBytes (moduleOf 1)), (0, .drop), (1, .reload),
    (2, .swapBytes (moduleOf 2))]

/-- One module after the other; the handler of the first one is dropped. -/
def oneByOne : List (ℕ × SwapStep) :=
  [(0, .swapBytes (moduleOf 0)), (0, .drop), (1, .swapBytes (moduleOf 1)), (1, .reload)]

theorem component_of_bytes_of_serial_two_calls : ∃ p : SwapPool (List UInt8),
    p.shared.wasmModule = moduleOf 1 ∧ p.shared.abandoned = [0] ∧ ∃ component,
      Compilation.compiled p.shared.wasmModule = .compiled component ∧
      p.shared.kernel.component = some component := by
  have hrun : (exec (guarded (Pool.step (SwapShared.act .compiled)) fun p e =>
      e.2.body?.isSome → ∀ j : Fin 2, (p.task j).call? = none) (swapStart [] ⟨none, false⟩)
      oneByOne).map (fun p => decide (p.shared.wasmModule = moduleOf 1 ∧
        p.shared.abandoned = [0] ∧ p.shared.failed = [] ∧ p.shared.stored.length = 2 ∧
        ∀ j : Fin 2, (p.task j).call? = none)) = some true := by
    decide +kernel
  obtain ⟨p, hexec, hdecide⟩ := Option.map_eq_some_iff.mp hrun
  obtain ⟨hbytes, habandoned, hfailed, hstored, htwo⟩ := of_decide_eq_true hdecide
  have hbelow : ∀ q : SwapPool (List UInt8), (∀ j, 2 ≤ j → q.task j = .idle) →
      (∀ j : Fin 2, (q.task j).call? = none) → ∀ i, (q.task i).call? = none := by
    intro q hidle htwo i
    by_cases hi : i < 2
    · exact htwo ⟨i, hi⟩
    · rw [hidle i (by omega)]
      rfl
  have hreach : Reach (Pool.step (SwapShared.act .compiled)) Serial
      (swapStart [] ⟨none, false⟩) p := by
    refine Pool.reach_of_exec_below 2 (t := .idle) oneByOne (fun j _ => rfl) (by decide) ?_ hexec
    intro q e hidle hguard body hbody
    refine hbelow q hidle (hguard ?_)
    rw [hbody]
    rfl
  have hidle : ∀ j, 2 ≤ j → p.task j = .idle := fun j hj =>
    Pool.exec_task_of_ne (exec_of_guarded _ hexec) fun e he hej => by
      have hlt : ∀ e ∈ oneByOne, e.1 < 2 := by decide
      have hless := hlt e he
      omega
  refine ⟨p, hbytes, habandoned, component_of_bytes_of_serial .compiled [] ⟨none, false⟩ hreach
    (hbelow p hidle htwo) ?_ ?_ ?_⟩
  · intro hempty
    rw [hempty] at hstored
    cases hstored
  · rw [hfailed]
    exact nofun
  · rw [habandoned, hstored]
    decide

/-- Handlers that overlap can both be answered 200 and leave the bytes of the one and
the component of the other. -/
example : ∃ p : SwapPool (List UInt8),
    exec (Pool.step (SwapShared.act .compiled)) (swapStart [] ⟨none, false⟩)
      [(0, .swapBytes (moduleOf 0)), (1, .swapBytes (moduleOf 1)), (1, .reload), (0, .reload)] =
        some p ∧
    p.task 0 = .answered (.swapped 0 5) ∧ p.task 1 = .answered (.swapped 5 5) ∧
    p.shared.wasmModule = moduleOf 1 ∧ p.shared.kernel.component = some (moduleOf 0) :=
  ⟨_, rfl, rfl, rfl, rfl, rfl⟩

end SereinGateway.Gateway

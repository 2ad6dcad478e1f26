import Mathlib
import SereinGateway.Lib.Grouping
import SereinGateway.Lib.Journal

/-!
Cached values that may be served for a while after they are stale.

Times are readings of the wall clock in nanoseconds and may go back. Seconds
and generations are integers; where the code adds two of them the sum is
checked, because an overflow panics, and `none` is a panic. The manager keeps
values of any type behind `Any`: a type here is a code `ty` whose values are
those of `El ty`, and to downcast is to compare codes.
-/

namespace SereinGateway.CacheStorage

open SereinGateway.Lib

inductive FreshnessLevel
  | fresh
  | staleAcceptable (ageSeconds : ℤ)
  | expired (ageSeconds : ℤ)
  deriving DecidableEq, Repr

/-- A sum of two numbers of type `i64`, unless it overflows. -/
def checkedSum (a b : ℤ) : Option ℤ :=
  if -2 ^ 63 ≤ a + b ∧ a + b < 2 ^ 63 then some (a + b) else none

structure StaleCache (T : Type) where
  value : T
  cachedAt : ℤ
  ttlSeconds : ℤ
  gracePeriodSeconds : ℤ
  source : String
  generation : ℕ
  deriving DecidableEq, Repr

namespace StaleCache

variable {T : Type}

def new (value : T) (ttlSeconds gracePeriodSeconds : ℤ) (source : String) (now : ℤ) :
    StaleCache T :=
  ⟨value, now, ttlSeconds, gracePeriodSeconds, source, 1⟩

/-- `age_seconds`: whole seconds, rounded toward zero. -/
def ageSeconds (cache : StaleCache T) (now : ℤ) : ℤ :=
  (now - cache.cachedAt).tdiv 1000000000

def freshness (cache : StaleCache T) (now : ℤ) : Option FreshnessLevel :=
  let age := cache.ageSeconds now
  if age < cache.ttlSeconds then some .fresh
  else
    match checkedSum cache.ttlSeconds cache.gracePeriodSeconds with
    | none => none
    | some limit =>
        if age < limit then some (.staleAcceptable age) else some (.expired age)

def isServeable (cache : StaleCache T) (now : ℤ) : Option Bool :=
  (cache.freshness now).map fun
    | .expired _ => false
    | _ => true

def isFresh (cache : StaleCache T) (now : ℤ) : Option Bool :=
  (cache.freshness now).map fun
    | .fresh => true
    | _ => false

def refresh (cache : StaleCache T) (newValue : T) (now : ℤ) : Option (StaleCache T) :=
  if cache.generation + 1 < 2 ^ 64 then
    some { cache with value := newValue, cachedAt := now, generation := cache.generation + 1 }
  else none

def extendTtl (cache : StaleCache T) (additionalSeconds now : ℤ) : StaleCache T :=
  { cache with cachedAt := now, ttlSeconds := additionalSeconds }

/-- What a level says about the age of an entry. -/
def Describes (ttl grace age : ℤ) : FreshnessLevel → Prop
  | .fresh => age < ttl
  | .staleAcceptable a => a = age ∧ ttl ≤ age ∧ age < ttl + grace
  | .expired a => a = age ∧ ttl ≤ age ∧ ttl + grace ≤ age

/-- The end of the grace period is a number of type `i64`. -/
def LimitFits (ttl grace : ℤ) : Prop := -2 ^ 63 ≤ ttl + grace ∧ ttl + grace < 2 ^ 63

theorem checkedSum_eq_some {a b c : ℤ} : checkedSum a b = some c ↔ LimitFits a b ∧ c = a + b := by
  rw [checkedSum, Option.ite_none_right_eq_some, Option.some.injEq, eq_comm (a := c), LimitFits]

theorem checkedSum_eq_none {a b : ℤ} : checkedSum a b = none ↔ ¬LimitFits a b := by
  rw [checkedSum, ite_eq_right_iff, LimitFits]
  simp

theorem freshness_eq_some_iff {cache : StaleCache T} {now : ℤ} {level : FreshnessLevel} :
    cache.freshness now = some level ↔
      Describes cache.ttlSeconds cache.gracePeriodSeconds (cache.ageSeconds now) level ∧
        (level = .fresh ∨ LimitFits cache.ttlSeconds cache.gracePeriodSeconds) := by
  unfold freshness
  dsimp only
  split
  · rename_i hfresh
    cases level <;> simp [Describes] <;> omega
  · rename_i hstale
    split
    · rename_i hsum
      have hfits := checkedSum_eq_none.mp hsum
      cases level <;> simp [Describes, hfits]
      omega
    · rename_i limit hsum
      obtain ⟨hfits, rfl⟩ := checkedSum_eq_some.mp hsum
      split <;> cases level <;> simp [Describes, hfits] <;> omega

theorem freshness_eq_none_iff {cache : StaleCache T} {now : ℤ} : cache.freshness now = none ↔
    cache.ttlSeconds ≤ cache.ageSeconds now ∧
      ¬LimitFits cache.ttlSeconds cache.gracePeriodSeconds := by
  unfold freshness
  dsimp only
  split
  · rename_i hfresh
    simp
    omega
  · rename_i hstale
    split
    · rename_i hsum
      exact iff_of_true rfl ⟨not_lt.mp hstale, checkedSum_eq_none.mp hsum⟩
    · rename_i limit hsum
      have hfits := (checkedSum_eq_some.mp hsum).1
      split <;> simp [hfits]

theorem isServeable_iff {cache : StaleCache T} {now : ℤ} : cache.isServeable now = some true ↔
    cache.ageSeconds now < cache.ttlSeconds ∨
      cache.ageSeconds now < cache.ttlSeconds + cache.gracePeriodSeconds ∧
        LimitFits cache.ttlSeconds cache.gracePeriodSeconds := by
  have hlevel := @freshness_eq_some_iff T cache now
  unfold isServeable
  cases hfreshness : cache.freshness now with
  | none =>
      obtain ⟨hstale, hoverflow⟩ := freshness_eq_none_iff.mp hfreshness
      simp [hoverflow, hstale]
  | some level =>
      obtain ⟨hage, hfits⟩ := hlevel.mp hfreshness
      cases level <;> simp [Describes] at hage hfits ⊢ <;> grind

theorem isFresh_iff {cache : StaleCache T} {now : ℤ} :
    cache.isFresh now = some true ↔ cache.ageSeconds now < cache.ttlSeconds := by
  have hlevel := @freshness_eq_some_iff T cache now .fresh
  rw [isFresh, Option.map_eq_some_iff]
  constructor
  · rintro ⟨level, hfreshness, hfresh⟩
    cases level with
    | fresh => exact (hlevel.mp hfreshness).1
    | staleAcceptable a => cases hfresh
    | expired a => cases hfresh
  · intro hage
    exact ⟨.fresh, hlevel.mpr ⟨hage, .inl rfl⟩, rfl⟩

theorem ageSeconds_mono (cache : StaleCache T) {now later : ℤ} (h : now ≤ later) :
    cache.ageSeconds now ≤ cache.ageSeconds later :=
  Int.tdiv_le_tdiv (by norm_num) (sub_le_sub_right h cache.cachedAt)

/-- An entry that was touched is as fresh as its new time to live is long. -/
theorem isFresh_of_extendTtl {cache : StaleCache T} {seconds now : ℤ} :
    (cache.extendTtl seconds now).isFresh now = some true ↔ 0 < seconds := by
  rw [isFresh_iff, extendTtl, ageSeconds, sub_self, Int.zero_tdiv]

end StaleCache

/-! ### The manager -/

section Manager

variable {Ty : Type} {El : Ty → Type}

/-- A value behind `Any`. -/
abbrev Boxed (El : Ty → Type) : Type := Σ ty, StaleCache (El ty)

/-- `downcast_ref`. -/
def downcast [DecidableEq Ty] (ty : Ty) (boxed : Boxed El) : Option (StaleCache (El ty)) :=
  if h : boxed.1 = ty then some (h ▸ boxed.2) else none

theorem downcast_eq_some [DecidableEq Ty] {ty : Ty} {boxed : Boxed El}
    {cache : StaleCache (El ty)} :
    downcast ty boxed = some cache ↔ boxed = ⟨ty, cache⟩ := by
  obtain ⟨ty', cache'⟩ := boxed
  unfold downcast
  by_cases hty : ty' = ty
  · subst hty
    simp
  · simp [hty]

structure StalenessManager (El : Ty → Type) where
  caches : AList fun _ : String => Boxed El
  defaultTtlSeconds : ℤ
  defaultGraceSeconds : ℤ

namespace StalenessManager

def new (defaultTtlSeconds defaultGraceSeconds : ℤ) : StalenessManager El :=
  ⟨∅, defaultTtlSeconds, defaultGraceSeconds⟩

def put (manager : StalenessManager El) (key : String) (ty : Ty) (value : El ty)
    (source : String) (now : ℤ) : StalenessManager El :=
  let cache := StaleCache.new value manager.defaultTtlSeconds manager.defaultGraceSeconds source now
  { manager with caches := manager.caches.insert key ⟨ty, cache⟩ }

/-- `get`: what it answers, unless it panics. -/
def get [DecidableEq Ty] (manager : StalenessManager El) (ty : Ty) (key : String) (now : ℤ) :
    Option (Option (El ty × FreshnessLevel)) :=
  match (manager.caches.lookup key).bind (downcast ty) with
  | none => some none
  | some cache => (cache.freshness now).map fun level => some (cache.value, level)

def evict (manager : StalenessManager El) (key : String) : Bool × StalenessManager El :=
  ((manager.caches.lookup key).isSome, { manager with caches := manager.caches.erase key })

def len (manager : StalenessManager El) : ℕ := manager.caches.keys.length

def isEmpty (manager : StalenessManager El) : Bool := manager.caches.keys.isEmpty

end StalenessManager

/-- A call that changes the manager. -/
inductive ManagerCall (El : Ty → Type)
  | put (key : String) (ty : Ty) (value : El ty) (source : String) (now : ℤ)
  | evict (key : String)

def ManagerCall.apply (manager : StalenessManager El) : ManagerCall El → StalenessManager El
  | .put key ty value source now => manager.put key ty value source now
  | .evict key => (manager.evict key).2

def ManagerCall.write (ttl grace : ℤ) : ManagerCall El → String × Option (Boxed El)
  | .put key ty value source now => (key, some ⟨ty, .new value ttl grace source now⟩)
  | .evict key => (key, none)

def managerAfter (ttl grace : ℤ) (calls : List (ManagerCall El)) : StalenessManager El :=
  calls.foldl ManagerCall.apply (.new ttl grace)

theorem managerAfter_concat (ttl grace : ℤ) (calls : List (ManagerCall El))
    (call : ManagerCall El) :
    managerAfter ttl grace (calls ++ [call]) = call.apply (managerAfter ttl grace calls) := by
  rw [managerAfter, List.foldl_append]
  rfl

theorem managerAfter_spec (ttl grace : ℤ) (calls : List (ManagerCall El)) :
    (managerAfter ttl grace calls).defaultTtlSeconds = ttl ∧
      (managerAfter ttl grace calls).defaultGraceSeconds = grace ∧
      (fun key => (managerAfter ttl grace calls).caches.lookup key) =
        latest (calls.map (ManagerCall.write ttl grace)) := by
  induction calls using List.reverseRecOn with
  | nil => exact ⟨rfl, rfl, rfl⟩
  | append_singleton calls call ih =>
      obtain ⟨httl, hgrace, hlookup⟩ := ih
      rw [managerAfter_concat, List.map_append, List.map_singleton, latest_concat, ← hlookup]
      cases call with
      | put key ty value source now =>
          refine ⟨httl, hgrace, (lookup_insert_eq_update _ _ _).trans ?_⟩
          rw [ManagerCall.write, httl, hgrace]
      | evict key => exact ⟨httl, hgrace, lookup_erase_eq_update _ _⟩

/-- A call that puts `boxed` under a key, with no call for the key after it. -/
def PutLast (ttl grace : ℤ) (calls : List (ManagerCall El)) (key : String)
    (boxed : Boxed El) : Prop :=
  ∃ earlier call later, calls = earlier ++ call :: later ∧
    call.write ttl grace = (key, some boxed) ∧
    ∀ call ∈ later, (call.write ttl grace).1 ≠ key

theorem lookup_managerAfter_iff {ttl grace : ℤ} {calls : List (ManagerCall El)} {key : String}
    {boxed : Boxed El} : (managerAfter ttl grace calls).caches.lookup key = some boxed ↔
      PutLast ttl grace calls key boxed := by
  have hlookup := congrFun (managerAfter_spec ttl grace calls).2.2 key
  rw [hlookup, latest_eq_some_iff]
  constructor
  · rintro ⟨earlier, later, hwrites, hlater⟩
    obtain ⟨before, rest, rfl, -, hrest⟩ := List.map_eq_append_iff.mp hwrites
    obtain ⟨call, after, rfl, hcall, rfl⟩ := List.map_eq_cons_iff.mp hrest
    refine ⟨before, call, after, rfl, hcall, fun c hc => ?_⟩
    exact hlater _ (List.mem_map_of_mem hc)
  · rintro ⟨earlier, call, later, rfl, hcall, hlater⟩
    refine ⟨earlier.map (ManagerCall.write ttl grace), later.map (ManagerCall.write ttl grace),
      ?_, ?_⟩
    · rw [List.map_append, List.map_cons, hcall]
    · intro e he
      obtain ⟨c, hc, rfl⟩ := List.mem_map.mp he
      exact hlater c hc

theorem PutLast.eq_new {ttl grace : ℤ} {calls : List (ManagerCall El)} {key : String} {ty : Ty}
    {cache : StaleCache (El ty)} (h : PutLast ttl grace calls key ⟨ty, cache⟩) :
    ∃ value source now, cache = .new value ttl grace source now := by
  obtain ⟨-, call, -, -, hcall, -⟩ := h
  cases call with
  | evict key => cases hcall
  | put key ty' value source now =>
      cases hcall
      exact ⟨value, source, now, rfl⟩

section Answers

variable [DecidableEq Ty]

/-- `get` answers with a value at a level exactly when the value was put under the key last,
at the type that is asked for, and its age is at the level; it panics exactly when such a value is
past its time to live and the end of the grace period overflows. -/
theorem get_managerAfter (ttl grace : ℤ) (calls : List (ManagerCall El)) (ty : Ty)
    (key : String) (now : ℤ) :
    (∀ value level, (managerAfter ttl grace calls).get ty key now = some (some (value, level)) ↔
      ∃ source putAt, PutLast ttl grace calls key ⟨ty, .new value ttl grace source putAt⟩ ∧
        StaleCache.Describes ttl grace ((now - putAt).tdiv 1000000000) level ∧
        (level = .fresh ∨ StaleCache.LimitFits ttl grace)) ∧
    ((managerAfter ttl grace calls).get ty key now = none ↔
      ∃ value source putAt, PutLast ttl grace calls key ⟨ty, .new value ttl grace source putAt⟩ ∧
        ttl ≤ (now - putAt).tdiv 1000000000 ∧ ¬StaleCache.LimitFits ttl grace) := by
  have hfound (cache : StaleCache (El ty)) :
      ((managerAfter ttl grace calls).caches.lookup key).bind (downcast ty) = some cache ↔
        PutLast ttl grace calls key ⟨ty, cache⟩ := by
    rw [Option.bind_eq_some_iff, ← lookup_managerAfter_iff]
    constructor
    · rintro ⟨boxed, hboxed, hcache⟩
      rwa [← downcast_eq_some.mp hcache]
    · intro hboxed
      exact ⟨_, hboxed, downcast_eq_some.mpr rfl⟩
  unfold StalenessManager.get
  cases hlookup : ((managerAfter ttl grace calls).caches.lookup key).bind (downcast ty) with
  | none =>
      have hnone (cache : StaleCache (El ty)) : ¬PutLast ttl grace calls key ⟨ty, cache⟩ := by
        rw [← hfound, hlookup]
        rintro ⟨⟩
      refine ⟨fun value level => iff_of_false (by simp) ?_, iff_of_false (by simp) ?_⟩
      · rintro ⟨source, putAt, hput, -⟩
        exact hnone _ hput
      · rintro ⟨value, source, putAt, hput, -⟩
        exact hnone _ hput
  | some cache =>
      have hput := (hfound cache).mp hlookup
      have hunique {cache' : StaleCache (El ty)} (h : PutLast ttl grace calls key ⟨ty, cache'⟩) :
          cache' = cache := by
        rw [← hfound, hlookup] at h
        exact (Option.some.inj h).symm
      obtain ⟨value, source, putAt, rfl⟩ := hput.eq_new
      dsimp only
      refine ⟨fun value' level => ?_, ?_⟩
      · rw [Option.map_eq_some_iff]
        constructor
        · rintro ⟨level', hlevel, heq⟩
          cases heq
          exact ⟨source, putAt, hput, StaleCache.freshness_eq_some_iff.mp hlevel⟩
        · rintro ⟨source', putAt', hput', hlevel⟩
          have hcache := hunique hput'
          cases hcache
          exact ⟨level, StaleCache.freshness_eq_some_iff.mpr hlevel, rfl⟩
      · rw [Option.map_eq_none_iff, StaleCache.freshness_eq_none_iff]
        constructor
        · rintro ⟨hstale, hoverflow⟩
          exact ⟨value, source, putAt, hput, hstale, hoverflow⟩
        · rintro ⟨value', source', putAt', hput', hstale, hoverflow⟩
          have hcache := hunique hput'
          cases hcache
          exact ⟨hstale, hoverflow⟩

end Answers

end Manager

end SereinGateway.CacheStorage

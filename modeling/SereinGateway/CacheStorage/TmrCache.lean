import Mathlib
import SereinGateway.Core.AppConfig
import SereinGateway.Lib.Grouping
import SereinGateway.Lib.Hex
import SereinGateway.Lib.Journal
import SereinGateway.Lib.Text
import SereinGateway.Lib.Transition

/-!
The cache of consensus results, call after call.

Results are stored under the digest of the trimmed prompt. SHA-256 is not part
of this repository and is a variable here. Redis is a stub: to read answers
nothing and to write does nothing, whether it is configured or not. The
mutex makes every call atomic, so a run is a list of calls with the readings
of the monotonic clock, in nanoseconds; a sweep reads the clock once for each
entry it visits.

What a call of `put` leaves behind is a `HashMap` in which entries may be
missing, since a sweep of a full map drops what has expired. `get` does not
see it: what it answers is decided by the calls made so far.
-/

namespace SereinGateway.CacheStorage

open SereinGateway.Lib
open SereinGateway.Core

structure CachedConsensusResult where
  content : String
  agreeingNodes : UInt8
  totalNodes : UInt8
  adjudicationLogic : String
  cachedAt : Int64
  ttlSec : UInt64
  deriving DecidableEq

structure MemoryCacheEntry where
  result : CachedConsensusResult
  insertedAt : ℕ
  deriving DecidableEq

structure TmrResultCache where
  redisUrl : String
  ttlSec : ℕ
  memoryCache : AList fun _ : String => MemoryCacheEntry
  redisAvailable : Bool

def cacheKeyPrefix : String := "serein:tmr:"

/-- The length beyond which the map is swept. -/
def maxEntries : ℕ := 10000

/-- `inserted_at.elapsed() < Duration::from_secs(self.ttl_sec)`. -/
def MemoryCacheEntry.unexpired (ttlSec now : ℕ) (entry : MemoryCacheEntry) : Bool :=
  now - entry.insertedAt < ttlSec * 1000000000

namespace TmrResultCache

def new (redisUrl : String) (ttlSec : ℕ) : TmrResultCache where
  redisUrl := redisUrl
  ttlSec := ttlSec
  memoryCache := ∅
  redisAvailable := !redisUrl.isEmpty

/-- `from_env`, which is also the default. -/
def fromEnv (env : Env) : TmrResultCache :=
  new (env.getD "REDIS_URL" "redis://127.0.0.1:6379")
    (((env "CACHE_TTL_SEC").bind parseU64).getD 3600)

def getFromRedis (_ : TmrResultCache) (_ : String) : Option CachedConsensusResult := none

def putToRedis (cache : TmrResultCache) (_ : String) (_ : CachedConsensusResult) :
    TmrResultCache := cache

def getFromMemory (cache : TmrResultCache) (key : String) (now : ℕ) :
    Option CachedConsensusResult :=
  match cache.memoryCache.lookup key with
  | none => none
  | some entry => if entry.unexpired cache.ttlSec now then some entry.result else none

/-- `put_to_memory`: the clock reads `now` when the entry is made and
`swept key` when a sweep visits a key. -/
def putToMemory (cache : TmrResultCache) (key : String) (result : CachedConsensusResult)
    (now : ℕ) (swept : String → ℕ) : TmrResultCache :=
  let memoryCache := cache.memoryCache.insert key ⟨result, now⟩
  { cache with
    memoryCache :=
      if maxEntries < memoryCache.entries.length then
        retain (fun e => e.2.unexpired cache.ttlSec (swept e.1)) memoryCache
      else memoryCache }

section Key

variable (sha256 : List UInt8 → Vector UInt8 32)

def cacheKey (prompt : String) : String :=
  cacheKeyPrefix ++ hexEncode (sha256 (utf8Bytes (trim prompt))).toList

def get (cache : TmrResultCache) (prompt : String) (now : ℕ) : Option CachedConsensusResult :=
  let key := cacheKey sha256 prompt
  if cache.redisAvailable then
    match cache.getFromRedis key with
    | some cached => some cached
    | none => cache.getFromMemory key now
  else cache.getFromMemory key now

def put (cache : TmrResultCache) (prompt : String) (result : CachedConsensusResult) (now : ℕ)
    (swept : String → ℕ) : TmrResultCache :=
  let key := cacheKey sha256 prompt
  let cache := if cache.redisAvailable then cache.putToRedis key result else cache
  cache.putToMemory key result now swept

theorem cacheKey_eq_iff {p q : String} : cacheKey sha256 p = cacheKey sha256 q ↔
    sha256 (utf8Bytes (trim p)) = sha256 (utf8Bytes (trim q)) := by
  constructor
  · intro h
    have hhex := (String.append_right_inj cacheKeyPrefix).mp h
    exact Vector.toList_inj.mp (hexEncode_injective hhex)
  · intro h
    rw [cacheKey, cacheKey, h]

/-! ### One call -/

/-- Redis or not, the answer comes from the memory. -/
theorem get_eq (cache : TmrResultCache) (prompt : String) (now : ℕ) :
    cache.get sha256 prompt now =
      ((cache.memoryCache.lookup (cacheKey sha256 prompt)).filter
        (MemoryCacheEntry.unexpired cache.ttlSec now)).map MemoryCacheEntry.result := by
  have hmemory : cache.get sha256 prompt now =
      cache.getFromMemory (cacheKey sha256 prompt) now := ite_self _
  rw [hmemory, getFromMemory]
  cases cache.memoryCache.lookup (cacheKey sha256 prompt) with
  | none => rfl
  | some entry =>
      cases hlive : entry.unexpired cache.ttlSec now <;> simp [hlive]

theorem put_eq (cache : TmrResultCache) (prompt : String) (result : CachedConsensusResult)
    (now : ℕ) (swept : String → ℕ) : cache.put sha256 prompt result now swept =
      cache.putToMemory (cacheKey sha256 prompt) result now swept := by
  rw [put, putToRedis, ite_self]

end Key

/-- What the map holds after a call of `put`: the sweep is a filter that keeps
everything unless the map was full. -/
theorem lookup_putToMemory (cache : TmrResultCache) (key : String)
    (result : CachedConsensusResult) (now : ℕ) (swept : String → ℕ) : ∃ keep : String →
      MemoryCacheEntry → Bool,
    (∀ k e, keep k e = false → e.unexpired cache.ttlSec (swept k) = false) ∧
    ∀ k, (cache.putToMemory key result now swept).memoryCache.lookup k =
      (Function.update (fun k => cache.memoryCache.lookup k) key (some ⟨result, now⟩) k).filter
        (keep k) := by
  have hinsert (k : String) := congrFun (lookup_insert_eq_update cache.memoryCache key
    (⟨result, now⟩ : MemoryCacheEntry)) k
  unfold putToMemory
  dsimp only
  split
  · refine ⟨fun k e => e.unexpired cache.ttlSec (swept k), fun k e h => h, fun k => ?_⟩
    rw [lookup_retain_eq, hinsert]
  · refine ⟨fun _ _ => true, by simp, fun k => ?_⟩
    rw [hinsert]
    cases Function.update (fun k => cache.memoryCache.lookup k) key (some ⟨result, now⟩) k <;> rfl

/-- A sweep visits the new key and those that were there. -/
theorem mem_keys_of_update {cache : TmrResultCache} {key k : String}
    {result : CachedConsensusResult} {now : ℕ} {e : MemoryCacheEntry}
    (h : Function.update (fun k => cache.memoryCache.lookup k) key (some ⟨result, now⟩) k =
      some e) : k ∈ key :: cache.memoryCache.keys := by
  by_cases hk : k = key
  · exact hk ▸ List.mem_cons_self
  · rw [Function.update_of_ne hk] at h
    refine List.mem_cons_of_mem _ (AList.mem_keys.mpr (AList.lookup_isSome.mp ?_))
    rw [h]
    rfl

theorem bounded_putToMemory (cache : TmrResultCache) (key : String)
    (result : CachedConsensusResult) (now : ℕ) (swept : String → ℕ) :
    (cache.putToMemory key result now swept).memoryCache.entries.length ≤ maxEntries ∨
      ∀ e ∈ (cache.putToMemory key result now swept).memoryCache.entries,
        e.2.unexpired cache.ttlSec (swept e.1) = true := by
  unfold putToMemory
  dsimp only
  split
  · right
    intro e he
    exact (List.mem_filter.mp he).2
  · left
    omega

end TmrResultCache

/-! ### Runs -/

inductive CacheCall
  | get (prompt : String) (now : ℕ)
  | put (prompt : String) (result : CachedConsensusResult) (now : ℕ) (swept : String → ℕ)
      (done : ℕ)

/-- The cache and the last reading of its clock. -/
structure CacheRun where
  cache : TmrResultCache
  clock : ℕ

section Runs

variable (sha256 : List UInt8 → Vector UInt8 32)

namespace CacheRun

/-- The clock does not go back, neither between calls nor in a sweep. -/
def step (run : CacheRun) : CacheCall → Option CacheRun
  | .get _ now => if run.clock ≤ now then some { run with clock := now } else none
  | .put prompt result now swept done =>
      let cache := run.cache.put sha256 prompt result now swept
      if run.clock ≤ now ∧ now ≤ done ∧
          ∀ k ∈ TmrResultCache.cacheKey sha256 prompt :: run.cache.memoryCache.keys,
            now ≤ swept k ∧ swept k ≤ done then
        some ⟨cache, done⟩
      else none

def start (redisUrl : String) (ttlSec : ℕ) : CacheRun := ⟨.new redisUrl ttlSec, 0⟩

end CacheRun

/-- The entries that the calls made. -/
def journal (calls : List CacheCall) : List (String × Option MemoryCacheEntry) :=
  calls.flatMap fun
    | .get _ _ => []
    | .put prompt result now _ _ =>
        [(TmrResultCache.cacheKey sha256 prompt, some ⟨result, now⟩)]

/-- The entry that the last call of `put` made for a prompt with this key. -/
def lastPut (calls : List CacheCall) (prompt : String) : Option MemoryCacheEntry :=
  latest (journal sha256 calls) (TmrResultCache.cacheKey sha256 prompt)

/-- The map answers for the calls, what has expired aside. -/
structure CacheRun.Faithful (ttlSec : ℕ) (calls : List CacheCall) (run : CacheRun) : Prop where
  ttl : run.cache.ttlSec = ttlSec
  answers : AnswersFor (fun e => MemoryCacheEntry.unexpired ttlSec run.clock e = false)
    (journal sha256 calls) fun k => run.cache.memoryCache.lookup k

theorem unexpired_antitone {ttlSec now later : ℕ} {e : MemoryCacheEntry} (h : now ≤ later)
    (hdead : e.unexpired ttlSec now = false) : e.unexpired ttlSec later = false := by
  unfold MemoryCacheEntry.unexpired at hdead ⊢
  rw [decide_eq_false_iff_not] at hdead ⊢
  omega

theorem faithful_step {ttlSec : ℕ} {calls : List CacheCall} {run run' : CacheRun}
    {call : CacheCall} (h : run.Faithful sha256 ttlSec calls)
    (hstep : run.step sha256 call = some run') :
    run'.Faithful sha256 ttlSec (calls ++ [call]) := by
  cases call with
  | get prompt now =>
      obtain ⟨hclock, hrun⟩ := Option.ite_none_right_eq_some.mp hstep
      cases hrun
      have hjournal : journal sha256 (calls ++ [.get prompt now]) = journal sha256 calls := by
        simp [journal]
      refine ⟨h.ttl, ?_⟩
      rw [hjournal]
      exact h.answers.mono fun e => unexpired_antitone hclock
  | put prompt result now swept done =>
      obtain ⟨⟨hclock, hdone, hswept⟩, hrun⟩ := Option.ite_none_right_eq_some.mp hstep
      cases hrun
      have hjournal : journal sha256 (calls ++ [.put prompt result now swept done]) =
          journal sha256 calls ++
            [(TmrResultCache.cacheKey sha256 prompt, some ⟨result, now⟩)] := by
        simp [journal]
      rw [TmrResultCache.put_eq]
      refine ⟨h.ttl, ?_⟩
      obtain ⟨keep, hkeep, hlookup⟩ := run.cache.lookup_putToMemory
        (TmrResultCache.cacheKey sha256 prompt) result now swept
      rw [hjournal, funext hlookup]
      have hwritten := (h.answers.mono fun e => unexpired_antitone (hclock.trans hdone)).write
        (TmrResultCache.cacheKey sha256 prompt) (some ⟨result, now⟩)
      refine hwritten.forget fun k e hentry hdropped => ?_
      have hmem := TmrResultCache.mem_keys_of_update hentry
      have hexpired := hkeep k e hdropped
      rw [h.ttl] at hexpired
      exact unexpired_antitone (hswept k hmem).2 hexpired

theorem faithful_of_exec {redisUrl : String} {ttlSec : ℕ} {calls : List CacheCall}
    {run : CacheRun}
    (h : exec (CacheRun.step sha256) (.start redisUrl ttlSec) calls = some run) :
    run.Faithful sha256 ttlSec calls := by
  have hstart : CacheRun.Faithful sha256 ttlSec [] (.start redisUrl ttlSec) := ⟨rfl, .empty⟩
  exact exec_history (I := CacheRun.Faithful sha256 ttlSec)
    (fun _ _ _ _ hrun hstep => faithful_step sha256 hrun hstep) calls hstart h

/-- At any time, `get` answers with the result that was put last for the
prompt, or for one with the same digest, unless the cache's own time to live
is over. Neither sweeps nor the times in the result make a difference. -/
theorem get_of_exec {redisUrl : String} {ttlSec : ℕ} {calls : List CacheCall} {run : CacheRun}
    (h : exec (CacheRun.step sha256) (.start redisUrl ttlSec) calls = some run)
    (prompt : String) {now : ℕ} (hnow : run.clock ≤ now) :
    run.cache.get sha256 prompt now = ((lastPut sha256 calls prompt).filter
      (MemoryCacheEntry.unexpired ttlSec now)).map MemoryCacheEntry.result := by
  have hrun := faithful_of_exec sha256 h
  have hnow := hrun.answers.mono fun e => unexpired_antitone hnow
  rw [TmrResultCache.get_eq, hrun.ttl, hnow.filter_lookup fun e he => he]
  rfl

end Runs

/-- A digest for evaluation, the same for every text. -/
def constantDigest (_ : List UInt8) : Vector UInt8 32 := Vector.replicate 32 0

def sampleResult (content : String) : CachedConsensusResult := ⟨content, 2, 3, "majority", 0, 0⟩

/-- Two prompts with one digest, the second stored over the first. -/
def sampleCalls : List CacheCall :=
  [.put "p" (sampleResult "a") 5 (fun _ => 6) 7, .get "p" 8,
    .put " q" (sampleResult "b") 9 (fun _ => 9) 9]

example : ∃ run,
    exec (CacheRun.step constantDigest) (.start "" 60) sampleCalls = some run ∧
      run.cache.get constantDigest "p" 10 = ((lastPut constantDigest sampleCalls "p").filter
        (MemoryCacheEntry.unexpired 60 10)).map MemoryCacheEntry.result := by
  obtain ⟨run, hrun, hclock⟩ : ∃ run,
      exec (CacheRun.step constantDigest) (.start "" 60) sampleCalls = some run ∧
        run.clock = 9 := ⟨_, rfl, rfl⟩
  exact ⟨run, hrun, get_of_exec constantDigest hrun "p" (by omega)⟩

section Bound

variable (sha256 : List UInt8 → Vector UInt8 32)

/-- When the last call of `put` made its entry. -/
def lastPutAt (calls : List CacheCall) : ℕ :=
  calls.foldl (fun last call =>
    match call with
    | .get _ _ => last
    | .put _ _ now _ _ => now) 0

theorem lastPutAt_get (calls : List CacheCall) (prompt : String) (now : ℕ) :
    lastPutAt (calls ++ [.get prompt now]) = lastPutAt calls := by
  rw [lastPutAt, List.foldl_append]
  rfl

theorem lastPutAt_put (calls : List CacheCall) (prompt : String)
    (result : CachedConsensusResult) (now : ℕ) (swept : String → ℕ) (done : ℕ) :
    lastPutAt (calls ++ [.put prompt result now swept done]) = now := by
  rw [lastPutAt, List.foldl_append]
  rfl

/-- How many of the entries that the calls made are alive at a time. -/
def livePuts (ttlSec : ℕ) (calls : List CacheCall) (now : ℕ) : ℕ :=
  ((journal sha256 calls).filter fun w => w.2.any (MemoryCacheEntry.unexpired ttlSec now)).length

/-- The map is within its bound unless all that it holds was alive at the last `put`. -/
def CacheRun.Swept (ttlSec : ℕ) (calls : List CacheCall) (run : CacheRun) : Prop :=
  run.cache.memoryCache.entries.length ≤ maxEntries ∨
    ∀ e ∈ run.cache.memoryCache.entries, e.2.unexpired ttlSec (lastPutAt calls) = true

theorem swept_step {ttlSec : ℕ} {calls : List CacheCall} {run run' : CacheRun}
    {call : CacheCall} (httl : run.cache.ttlSec = ttlSec) (h : run.Swept ttlSec calls)
    (hstep : run.step sha256 call = some run') : run'.Swept ttlSec (calls ++ [call]) := by
  cases call with
  | get prompt now =>
      obtain ⟨-, hrun⟩ := Option.ite_none_right_eq_some.mp hstep
      cases hrun
      rw [CacheRun.Swept, lastPutAt_get]
      exact h
  | put prompt result now swept done =>
      obtain ⟨⟨-, -, hswept⟩, hrun⟩ := Option.ite_none_right_eq_some.mp hstep
      cases hrun
      rw [CacheRun.Swept, lastPutAt_put, TmrResultCache.put_eq]
      refine (run.cache.bounded_putToMemory _ result now swept).imp_right fun halive e he => ?_
      obtain ⟨keep, -, hlookup⟩ := run.cache.lookup_putToMemory
        (TmrResultCache.cacheKey sha256 prompt) result now swept
      have hentry := hlookup e.1
      rw [AList.mem_lookup_iff.mpr he] at hentry
      have hmem := TmrResultCache.mem_keys_of_update
        (Option.filter_eq_some_iff.mp hentry.symm).1
      by_contra hdead
      have hlater := unexpired_antitone (hswept e.1 hmem).1 (Bool.eq_false_of_not_eq_true hdead)
      rw [← httl, halive e he] at hlater
      cases hlater

theorem swept_of_exec {redisUrl : String} {ttlSec : ℕ} {calls : List CacheCall}
    {run : CacheRun}
    (h : exec (CacheRun.step sha256) (.start redisUrl ttlSec) calls = some run) :
    run.Swept ttlSec calls := by
  have hstart : CacheRun.Faithful sha256 ttlSec [] (.start redisUrl ttlSec) ∧
      CacheRun.Swept ttlSec [] (.start redisUrl ttlSec) :=
    ⟨⟨rfl, .empty⟩, .inl (Nat.zero_le _)⟩
  -- What has expired is told by the time to live, which the other invariant keeps.
  have hinv := exec_history
    (I := fun calls run => CacheRun.Faithful sha256 ttlSec calls run ∧ run.Swept ttlSec calls)
    (fun _ _ _ _ hrun hstep => ⟨faithful_step sha256 hrun.1 hstep,
      swept_step sha256 hrun.1.ttl hrun.2 hstep⟩) calls hstart h
  exact hinv.2

/-- The map never holds more entries than its bound, or than there were calls of `put`
within one time to live before the last. -/
theorem length_le_of_exec {redisUrl : String} {ttlSec : ℕ} {calls : List CacheCall}
    {run : CacheRun}
    (h : exec (CacheRun.step sha256) (.start redisUrl ttlSec) calls = some run) :
    run.cache.memoryCache.entries.length ≤
      max maxEntries (livePuts sha256 ttlSec calls (lastPutAt calls)) := by
  have hfaithful := faithful_of_exec sha256 h
  obtain hbound | halive := swept_of_exec sha256 h
  · exact hbound.trans (le_max_left _ _)
  refine le_trans ?_ (le_max_right _ _)
  -- Each entry in the map is another one that a live call made.
  have hnodup : (run.cache.memoryCache.entries.map fun e => (e.1, some e.2)).Nodup := by
    refine List.Nodup.of_map Prod.fst ?_
    rw [List.map_map]
    exact run.cache.memoryCache.nodupKeys
  rw [livePuts, ← List.length_map fun e : (_ : String) × MemoryCacheEntry => (e.1, some e.2)]
  refine (hnodup.subperm fun w hw => ?_).length_le
  obtain ⟨e, he, rfl⟩ := List.mem_map.mp hw
  refine List.mem_filter.mpr ⟨hfaithful.answers.mem (AList.mem_lookup_iff.mpr he), ?_⟩
  rw [Option.any_some]
  exact halive e he

end Bound

example : ∃ run,
    exec (CacheRun.step constantDigest) (.start "" 60) sampleCalls = some run ∧
      run.cache.memoryCache.entries.length ≤
        max maxEntries (livePuts constantDigest 60 sampleCalls (lastPutAt sampleCalls)) := by
  obtain ⟨run, hrun⟩ : ∃ run,
      exec (CacheRun.step constantDigest) (.start "" 60) sampleCalls = some run := ⟨_, rfl⟩
  exact ⟨run, hrun, length_le_of_exec constantDigest hrun⟩

end SereinGateway.CacheStorage

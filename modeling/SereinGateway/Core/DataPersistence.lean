import Mathlib
import SereinGateway.Core.SharedBuffer
import SereinGateway.Lib.Transition
import SereinGateway.Security.MaskingEngine

/-!
What the guests store, and what becomes of it.

Every guest has a store of its own, with its buffers and its tenant; the table
`execution_records` is shared, and the calls of the guests interleave. A record is
written for each call of `persist` and `persist_buffer` that is answered with a
success, and for no other (`records_faithful`). No call takes one away again, also
not a `delete` that is answered with a success.
-/

namespace SereinGateway.Core

open SereinGateway.Lib SereinGateway.Security

/-! ### The table -/

structure ExecutionRecord where
  storageId : String
  tenantId : String
  recordKey : String
  payload : String
  sensitivity : String
  createdAt : String
  deriving DecidableEq

/-- The table `execution_records`. -/
structure Database where
  rows : List ExecutionRecord
  /-- `storage_id` is the primary key. -/
  primaryKey : (rows.map ExecutionRecord.storageId).Nodup

def Database.empty : Database := ⟨[], .nil⟩

/-- The statement `INSERT`, which may fail for a reason of its own. -/
def Database.insert (db : Database) (record : ExecutionRecord) (dbError : Option String) :
    Except String Database :=
  match dbError with
  | some e => .error e
  | none =>
      if h : record.storageId ∈ db.rows.map ExecutionRecord.storageId then
        .error "UNIQUE constraint failed: execution_records.storage_id"
      else .ok ⟨db.rows ++ [record], by
        rw [List.map_append, List.map_singleton]
        exact List.nodup_append_comm.mp (List.nodup_cons.mpr ⟨h, db.primaryKey⟩)⟩

def sensitivityToStr : Sensitivity → String
  | .public => "public"
  | .internal => "internal"
  | .piiMasked => "pii_masked"
  | .piiEncrypted => "pii_encrypted"

/-- The column is read back for the open levels only. -/
theorem tryFrom_sensitivityToStr (level : Sensitivity) :
    Sensitivity.tryFrom (sensitivityToStr level) = .ok level ↔
      level = .public ∨ level = .internal := by
  cases level <;> decide

/-! ### Calls of the host -/

/-- What a call that persists finds outside of the program. -/
structure PersistEnv where
  nonce : GcmNonce
  storageId : String
  createdAt : String
  dbError : Option String

structure PersistAnswer where
  success : Bool
  storageId : String
  detail : String
  deriving DecidableEq

def PersistAnswer.failed (detail : String) : PersistAnswer := ⟨false, "", detail⟩

def insertRecord (tenantId key transformedData sensitivity : String) (env : PersistEnv)
    (db : Database) : PersistAnswer × Database :=
  match db.insert ⟨env.storageId, tenantId, key, transformedData, sensitivity, env.createdAt⟩
    env.dbError with
  | .ok db => (⟨true, env.storageId, env.createdAt⟩, db)
  | .error e => (.failed ("Persistence failed: " ++ e), db)

def CanonicalAbiGuard.validateStringTransfer (guard : CanonicalAbiGuard) (s : String)
    (maxLen : ℕ) : Except String Unit × CanonicalAbiGuard :=
  if guard.enabled then
    if maxLen < s.utf8ByteSize then
      (.error ("Canonical ABI buffer overflow: requested " ++ toString s.utf8ByteSize ++
        " bytes, maximum " ++ toString maxLen), guard)
    else (.ok (), guard.recordCompliantTransfer)
  else (.ok (), guard)

structure DataPayload where
  key : String
  value : String
  level : Sensitivity
  deriving DecidableEq

/-- A store, with the tenant that it was made for. -/
structure GuestStore extends StoreState where
  tenantId : String

namespace GuestStore

/-- The check of a string, with the store afterwards. -/
def validate (store : GuestStore) (s : String) (maxLen : ℕ) : Except String Unit × GuestStore :=
  let r := store.canonicalAbiGuard.validateStringTransfer s maxLen
  (r.1, { store with canonicalAbiGuard := r.2 })

variable (deps : MaskingDeps) (engine : MaskingEngine)

def persist (store : GuestStore) (payload : DataPayload) (env : PersistEnv) (db : Database) :
    PersistAnswer × GuestStore × Database :=
  match store.validate payload.key 4096 with
  | (.error e, store) => (.failed ("Canonical ABI violation: " ++ e), store, db)
  | (.ok (), store) =>
      match store.validate payload.value (1024 * 1024) with
      | (.error e, store) => (.failed ("Canonical ABI violation: " ++ e), store, db)
      | (.ok (), store) =>
          match engine.transformData deps env.nonce payload.value payload.level with
          | .error e => (.failed ("Data transformation failed: " ++ e.display), store, db)
          | .ok transformedData =>
              let r := insertRecord store.tenantId payload.key transformedData
                (sensitivityToStr payload.level) env db
              (r.1, store, r.2)

def persistBuffer (store : GuestStore) (key : String) (buffer : UInt32) (level : Sensitivity)
    (env : PersistEnv) (db : Database) : PersistAnswer × GuestStore × Database :=
  match store.validate key 4096 with
  | (.error e, store) => (.failed ("Canonical ABI violation: " ++ e), store, db)
  | (.ok (), store) =>
      match store.sharedBuffers buffer with
      | none => (.failed "SharedBuffer resource not found", store, db)
      | some data =>
          if sharedBufferMaxLen < data.data.length then
            (.failed ("SharedBuffer payload exceeds maximum: " ++ toString data.data.length ++
              " bytes"), store, db)
          else
            match engine.transformBytes deps env.nonce data.data level with
            | .error e => (.failed ("Data transformation failed: " ++ e.display), store, db)
            | .ok transformedData =>
                let r := insertRecord store.tenantId key transformedData
                  (sensitivityToStr level) env db
                (r.1, store, r.2)

/-- `retrieve`, which does not look at the table. -/
def retrieve (store : GuestStore) (key : String) (requesterClearance : Sensitivity) :
    (Option DataPayload × Bool) × GuestStore :=
  match store.validate key 4096 with
  | (.error _, store) => ((none, false), store)
  | (.ok (), store) =>
      if requesterClearance ≠ .public then
        ((some ⟨key, "simulated_retrieved_value_from_host", requesterClearance⟩, true), store)
      else ((none, false), store)

/-- `delete`, which does not touch the table. -/
def delete (store : GuestStore) (key : String) (requesterClearance : Sensitivity) :
    (Bool × Bool) × GuestStore :=
  match store.validate key 4096 with
  | (.error _, store) => ((false, false), store)
  | (.ok (), store) =>
      let isAuthorized := requesterClearance ≠ .public
      ((isAuthorized, isAuthorized), store)

def audit (store : GuestStore) (key : String) (auditorClearance : Sensitivity) :
    (List String × Bool) × GuestStore :=
  match store.validate key 4096 with
  | (.error _, store) => (([], false), store)
  | (.ok (), store) =>
      if auditorClearance = .internal ∨ auditorClearance = .piiEncrypted then
        ((["2026-03-29T10:00:00Z - DATA_CREATED",
          "2026-03-29T11:30:00Z - DATA_ACCESSED by user:auditor"], true), store)
      else (([], false), store)

end GuestStore

/-! ### Guests -/

inductive HostCall where
  /-- `create_shared_buffer`, with a handle that is not in use. -/
  | createSharedBuffer (rep : UInt32) (data : List UInt8)
  | read (rep : UInt32) (offset len : UInt64)
  | len (rep : UInt32)
  | dropBuffer (rep : UInt32)
  | persist (payload : DataPayload) (env : PersistEnv)
  | persistBuffer (key : String) (buffer : UInt32) (level : Sensitivity) (env : PersistEnv)
  | retrieve (key : String) (requesterClearance : Sensitivity)
  | delete (key : String) (requesterClearance : Sensitivity)
  | audit (key : String) (auditorClearance : Sensitivity)

/-- A call that persists, with the bytes that the guest passed to it. -/
structure PersistEntry where
  key : String
  data : List UInt8
  level : Sensitivity
  nonce : GcmNonce
  answer : PersistAnswer
  deriving DecidableEq

/-- A guest; the log is not in the program. -/
structure Guest where
  store : GuestStore
  log : List PersistEntry
  /-- The request has not been dropped. -/
  live : Bool

def Guest.new (tenantId : String) : Guest :=
  ⟨{ sharedBuffers := fun _ => none, canonicalAbiGuard := ⟨0, true⟩, tenantId := tenantId }, [],
    true⟩

/-- A call, and whether the request is dropped while the call waits for the database;
then the call has its effect there, and the guest does not go on. -/
structure GuestStep where
  call : HostCall
  dropped : Bool

section Machine

variable (deps : MaskingDeps) (engine : MaskingEngine)

/-- The effect of a call, with its entry in the log. -/
def GuestStore.perform (store : GuestStore) (db : Database) :
    HostCall → Option (Option PersistEntry × GuestStore × Database)
  | .createSharedBuffer rep data =>
      match store.sharedBuffers rep with
      | some _ => none
      | none =>
          match store.createSharedBuffer rep data with
          | .ok state => some (none, { store with toStoreState := state }, db)
          | .error _ => some (none, store, db)
  | .read rep offset len =>
      some (none, { store with toStoreState := (store.read rep offset len).2 }, db)
  | .len _ => some (none, store, db)
  | .dropBuffer rep =>
      some (none,
        { store with sharedBuffers := Function.update store.sharedBuffers rep none }, db)
  | .persist payload env =>
      let r := store.persist deps engine payload env db
      some (some ⟨payload.key, utf8Bytes payload.value, payload.level, env.nonce, r.1⟩, r.2)
  | .persistBuffer key buffer level env =>
      let r := store.persistBuffer deps engine key buffer level env db
      let data := (store.sharedBuffers buffer).elim [] SharedBuffer.data
      some (some ⟨key, data, level, env.nonce, r.1⟩, r.2)
  | .retrieve key clearance => some (none, (store.retrieve key clearance).2, db)
  | .delete key clearance => some (none, (store.delete key clearance).2, db)
  | .audit key clearance => some (none, (store.audit key clearance).2, db)

def guestAct (_ : ℕ) (db : Database) (guest : Guest) (step : GuestStep) :
    Option (Database × Guest) :=
  if guest.live then
    (guest.store.perform deps engine db step.call).map fun r =>
      (r.2.2, ⟨r.2.1, guest.log ++ r.1.toList, !step.dropped⟩)
  else none

end Machine

abbrev GuestPool := Pool Database Guest

/-- Guests of the given tenants before an empty table. -/
def guestStart (tenants : ℕ → String) : GuestPool := ⟨.empty, fun i => .new (tenants i)⟩

/-! ### What a call writes -/

variable {deps : MaskingDeps} {engine : MaskingEngine} {tenantId : String}

/-- The record of a call that succeeds. -/
structure PersistEntry.Writes (deps : MaskingDeps) (engine : MaskingEngine) (tenantId : String)
    (e : PersistEntry) (record : ExecutionRecord) : Prop where
  success : e.answer.success = true
  storageId : record.storageId = e.answer.storageId
  createdAt : record.createdAt = e.answer.detail
  tenant : record.tenantId = tenantId
  recordKey : record.recordKey = e.key
  level : record.sensitivity = sensitivityToStr e.level
  payload : engine.transformBytes deps e.nonce e.data e.level = .ok record.payload

/-- A call has a new record, or it fails and leaves the table alone. -/
inductive Persists (deps : MaskingDeps) (engine : MaskingEngine) (tenantId : String)
    (e : PersistEntry) (db db' : Database) : Prop
  | written (record : ExecutionRecord) (hwrites : e.Writes deps engine tenantId record)
      (hfresh : record.storageId ∉ db.rows.map ExecutionRecord.storageId)
      (hrows : db'.rows = db.rows ++ [record])
  | refused (hanswer : e.answer.success = false) (hrows : db'.rows = db.rows)

theorem Database.insert_ok {db db' : Database} {record : ExecutionRecord} {dbError : Option String}
    (h : db.insert record dbError = .ok db') :
    record.storageId ∉ db.rows.map ExecutionRecord.storageId ∧
      db'.rows = db.rows ++ [record] := by
  unfold Database.insert at h
  split at h
  · cases h
  · split at h
    · cases h
    · rename_i hfresh
      cases h
      exact ⟨hfresh, rfl⟩

theorem persists_insertRecord {key transformedData : String} {data : List UInt8}
    {level : Sensitivity} (env : PersistEnv) (db : Database)
    (htransform : engine.transformBytes deps env.nonce data level = .ok transformedData) :
    Persists deps engine tenantId
      ⟨key, data, level, env.nonce,
        (insertRecord tenantId key transformedData (sensitivityToStr level) env db).1⟩ db
      (insertRecord tenantId key transformedData (sensitivityToStr level) env db).2 := by
  rw [insertRecord]
  split
  · rename_i db' hinsert
    obtain ⟨hfresh, hrows⟩ := Database.insert_ok hinsert
    exact .written _ ⟨rfl, rfl, rfl, rfl, rfl, rfl, htransform⟩ hfresh hrows
  · exact .refused rfl rfl

namespace GuestStore

variable {store : GuestStore} {db : Database}

theorem of_validate {store' : GuestStore} {text : String} {maxLen : ℕ}
    {r : Except String Unit} (h : store.validate text maxLen = (r, store')) :
    store'.tenantId = store.tenantId ∧ store'.sharedBuffers = store.sharedBuffers := by
  obtain rfl := congrArg Prod.snd h
  exact ⟨rfl, rfl⟩

theorem persists_persist (store : GuestStore) (payload : DataPayload) (env : PersistEnv)
    (db : Database) :
    (store.persist deps engine payload env db).2.1.tenantId = store.tenantId ∧
    Persists deps engine store.tenantId
      ⟨payload.key, utf8Bytes payload.value, payload.level, env.nonce,
        (store.persist deps engine payload env db).1⟩ db
      (store.persist deps engine payload env db).2.2 := by
  unfold persist
  split
  · rename_i e store₁ hkey
    exact ⟨(of_validate hkey).1, .refused rfl rfl⟩
  · rename_i store₁ hkey
    have htenant₁ := (of_validate hkey).1
    split
    · rename_i e store₂ hvalue
      exact ⟨(of_validate hvalue).1.trans htenant₁, .refused rfl rfl⟩
    · rename_i store₂ hvalue
      have htenant₂ := (of_validate hvalue).1.trans htenant₁
      split
      · exact ⟨htenant₂, .refused rfl rfl⟩
      · rename_i transformedData htransform
        rw [← MaskingEngine.transformBytes_utf8Bytes] at htransform
        refine ⟨htenant₂, ?_⟩
        dsimp only
        rw [htenant₂]
        exact persists_insertRecord env db htransform

theorem persists_persistBuffer (store : GuestStore) (key : String) (buffer : UInt32)
    (level : Sensitivity) (env : PersistEnv) (db : Database) :
    (store.persistBuffer deps engine key buffer level env db).2.1.tenantId = store.tenantId ∧
    Persists deps engine store.tenantId
      ⟨key, (store.sharedBuffers buffer).elim [] SharedBuffer.data, level, env.nonce,
        (store.persistBuffer deps engine key buffer level env db).1⟩ db
      (store.persistBuffer deps engine key buffer level env db).2.2 := by
  unfold persistBuffer
  split
  · rename_i e store₁ hkey
    exact ⟨(of_validate hkey).1, .refused rfl rfl⟩
  · rename_i store₁ hkey
    obtain ⟨htenant, hbuffers⟩ := of_validate hkey
    split
    · exact ⟨htenant, .refused rfl rfl⟩
    · rename_i data hdata
      have hbuffer : (store.sharedBuffers buffer).elim [] SharedBuffer.data = data.data := by
        rw [← hbuffers, hdata]
        rfl
      split
      · exact ⟨htenant, .refused rfl rfl⟩
      · split
        · exact ⟨htenant, .refused rfl rfl⟩
        · rename_i transformedData htransform
          refine ⟨htenant, ?_⟩
          dsimp only
          rw [htenant, hbuffer]
          exact persists_insertRecord env db htransform

theorem perform_cases {call : HostCall} {entry : Option PersistEntry} {store' : GuestStore}
    {db' : Database} (h : store.perform deps engine db call = some (entry, store', db')) :
    store'.tenantId = store.tenantId ∧
      ((entry = none ∧ db' = db) ∨
        ∃ e, entry = some e ∧ Persists deps engine store.tenantId e db db') := by
  cases call with
  | createSharedBuffer rep data =>
      rw [perform] at h
      split at h
      · cases h
      · split at h
        · cases h
          exact ⟨rfl, .inl ⟨rfl, rfl⟩⟩
        · cases h
          exact ⟨rfl, .inl ⟨rfl, rfl⟩⟩
  | read rep offset len =>
      cases h
      exact ⟨rfl, .inl ⟨rfl, rfl⟩⟩
  | len rep =>
      cases h
      exact ⟨rfl, .inl ⟨rfl, rfl⟩⟩
  | dropBuffer rep =>
      cases h
      exact ⟨rfl, .inl ⟨rfl, rfl⟩⟩
  | persist payload env =>
      obtain ⟨htenant, hpersists⟩ := store.persists_persist payload env db
      rw [perform, Option.some.injEq, Prod.mk.injEq] at h
      obtain ⟨rfl, hr⟩ := h
      rw [hr] at htenant hpersists
      exact ⟨htenant, .inr ⟨_, rfl, hpersists⟩⟩
  | persistBuffer key buffer level env =>
      obtain ⟨htenant, hpersists⟩ := store.persists_persistBuffer key buffer level env db
      rw [perform, Option.some.injEq, Prod.mk.injEq] at h
      obtain ⟨rfl, hr⟩ := h
      rw [hr] at htenant hpersists
      exact ⟨htenant, .inr ⟨_, rfl, hpersists⟩⟩
  | retrieve key clearance =>
      cases h
      refine ⟨?_, .inl ⟨rfl, rfl⟩⟩
      unfold retrieve
      split
      · rename_i hkey
        exact (of_validate hkey).1
      · rename_i hkey
        split <;> exact (of_validate hkey).1
  | delete key clearance =>
      cases h
      refine ⟨?_, .inl ⟨rfl, rfl⟩⟩
      unfold delete
      split <;> rename_i hkey <;> exact (of_validate hkey).1
  | audit key clearance =>
      cases h
      refine ⟨?_, .inl ⟨rfl, rfl⟩⟩
      unfold audit
      split
      · rename_i hkey
        exact (of_validate hkey).1
      · rename_i hkey
        split <;> exact (of_validate hkey).1

end GuestStore

/-! ### The records -/

def GuestPool.entry? (p : GuestPool) (i n : ℕ) : Option PersistEntry := (p.task i).log[n]?

/-- The table holds the records of the calls that succeeded. -/
structure RecordsFaithful (deps : MaskingDeps) (engine : MaskingEngine) (tenants : ℕ → String)
    (p : GuestPool) : Prop where
  tenant : ∀ i, (p.task i).store.tenantId = tenants i
  records : ∀ record, record ∈ p.shared.rows ↔
    ∃ i n e, GuestPool.entry? p i n = some e ∧ e.Writes deps engine (tenants i) record
  recorded : ∀ i n e, GuestPool.entry? p i n = some e → e.answer.success = true →
    ∃ record, e.Writes deps engine (tenants i) record
  /-- No two calls are answered with the same id. -/
  distinct : ∀ i j m n e f, GuestPool.entry? p i m = some e → GuestPool.entry? p j n = some f →
    e.answer.success = true → f.answer.success = true →
    e.answer.storageId = f.answer.storageId → i = j ∧ m = n

section Runs

variable {tenants : ℕ → String} {p q : GuestPool}

theorem recordsFaithful_start : RecordsFaithful deps engine tenants (guestStart tenants) where
  tenant _ := rfl
  records record := iff_of_false nofun (by
    rintro ⟨i, n, e, he, -⟩
    cases he)
  recorded _ _ _ he := nomatch he
  distinct _ _ _ _ _ _ he := nomatch he

theorem getElem?_append_toList {α : Type*} {l : List α} {o : Option α} {n : ℕ} {a : α} :
    (l ++ o.toList)[n]? = some a ↔ l[n]? = some a ∨ (o = some a ∧ n = l.length) := by
  cases o with
  | none => simp
  | some b =>
      rw [Option.toList_some, List.getElem?_append]
      split
      · rename_i hn
        refine (or_iff_left ?_).symm
        rintro ⟨-, rfl⟩
        exact lt_irrefl _ hn
      · rename_i hn
        rw [List.getElem?_singleton, List.getElem?_eq_none (Nat.not_lt.mp hn), Option.some.injEq]
        constructor
        · intro h
          rw [Option.ite_none_right_eq_some] at h
          exact .inr ⟨Option.some.inj h.2, by omega⟩
        · rintro (h | ⟨rfl, rfl⟩)
          · cases h
          · simp

theorem PersistEntry.Writes.unique {e : PersistEntry} {r r' : ExecutionRecord}
    (h : e.Writes deps engine tenantId r) (h' : e.Writes deps engine tenantId r') : r = r' := by
  have hpayload := h.payload.symm.trans h'.payload
  cases r
  cases r'
  simp only [ExecutionRecord.mk.injEq]
  exact ⟨h.storageId.trans h'.storageId.symm, h.tenant.trans h'.tenant.symm,
    h.recordKey.trans h'.recordKey.symm, Except.ok.inj hpayload, h.level.trans h'.level.symm,
    h.createdAt.trans h'.createdAt.symm⟩

/-- A guest after a call with this entry, if any. -/
theorem entry?_update {i j n : ℕ} {db : Database} {store : GuestStore}
    {entry : Option PersistEntry} {live : Bool} {f : PersistEntry} :
    GuestPool.entry?
        ⟨db, Function.update p.task i ⟨store, (p.task i).log ++ entry.toList, live⟩⟩ j n = some f ↔
      GuestPool.entry? p j n = some f ∨
        (entry = some f ∧ j = i ∧ n = (p.task i).log.length) := by
  by_cases hj : j = i
  · subst hj
    show (Function.update p.task j _ j).log[n]? = some f ↔ _
    rw [Function.update_self, getElem?_append_toList, eq_self_iff_true, true_and]
    rfl
  · show (Function.update p.task i _ j).log[n]? = some f ↔ _
    rw [Function.update_of_ne hj]
    exact (or_iff_left fun h => hj h.2.1).symm

namespace RecordsFaithful

variable {i : ℕ} {db : Database} {store : GuestStore} {live : Bool}

theorem tenant_update (h : RecordsFaithful deps engine tenants p)
    (htenant : store.tenantId = tenants i) (log : List PersistEntry) (j : ℕ) :
    (Function.update p.task i ⟨store, log, live⟩ j).store.tenantId = tenants j := by
  by_cases hj : j = i
  · subst hj
    rw [Function.update_self]
    exact htenant
  · rw [Function.update_of_ne hj]
    exact h.tenant j

/-- A call without a success. -/
theorem quiet (h : RecordsFaithful deps engine tenants p) (htenant : store.tenantId = tenants i)
    {entry : Option PersistEntry} (hfailed : ∀ f, entry = some f → f.answer.success = false)
    (hrows : db.rows = p.shared.rows) :
    RecordsFaithful deps engine tenants
      ⟨db, Function.update p.task i ⟨store, (p.task i).log ++ entry.toList, live⟩⟩ := by
  have hsame : ∀ j n f, f.answer.success = true →
      (GuestPool.entry?
        ⟨db, Function.update p.task i ⟨store, (p.task i).log ++ entry.toList, live⟩⟩ j n =
          some f ↔ GuestPool.entry? p j n = some f) := by
    intro j n f hf
    rw [entry?_update]
    refine or_iff_left ?_
    rintro ⟨hnew, -⟩
    rw [hfailed f hnew] at hf
    cases hf
  refine ⟨h.tenant_update htenant _, ?_, ?_, ?_⟩
  · intro record
    show record ∈ db.rows ↔ _
    rw [hrows, h.records record]
    constructor
    · rintro ⟨j, n, f, hf, hwrites⟩
      exact ⟨j, n, f, (hsame j n f hwrites.success).mpr hf, hwrites⟩
    · rintro ⟨j, n, f, hf, hwrites⟩
      exact ⟨j, n, f, (hsame j n f hwrites.success).mp hf, hwrites⟩
  · intro j n f hf hsuccess
    exact h.recorded j n f ((hsame j n f hsuccess).mp hf) hsuccess
  · intro j k m n f g hf hg hsf hsg
    exact h.distinct j k m n f g ((hsame j m f hsf).mp hf) ((hsame k n g hsg).mp hg) hsf hsg

theorem write (h : RecordsFaithful deps engine tenants p) (htenant : store.tenantId = tenants i)
    {e : PersistEntry} {record : ExecutionRecord}
    (hwrites : e.Writes deps engine (tenants i) record)
    (hfresh : record.storageId ∉ p.shared.rows.map ExecutionRecord.storageId)
    (hrows : db.rows = p.shared.rows ++ [record]) :
    RecordsFaithful deps engine tenants
      ⟨db, Function.update p.task i
        ⟨store, (p.task i).log ++ (some e).toList, live⟩⟩ := by
  -- The id of the new record is not that of an older success.
  have hold : ∀ j n f, GuestPool.entry? p j n = some f → f.answer.success = true →
      f.answer.storageId ≠ e.answer.storageId := by
    intro j n f hf hsuccess hid
    obtain ⟨r, hr⟩ := h.recorded j n f hf hsuccess
    refine hfresh (List.mem_map.mpr ⟨r, (h.records r).mpr ⟨j, n, f, hf, hr⟩, ?_⟩)
    rw [hr.storageId, hid, hwrites.storageId]
  refine ⟨h.tenant_update htenant _, ?_, ?_, ?_⟩
  · intro r
    show r ∈ db.rows ↔ _
    rw [hrows, List.mem_append, List.mem_singleton, h.records r]
    constructor
    · rintro (⟨j, n, f, hf, hf'⟩ | rfl)
      · exact ⟨j, n, f, entry?_update.mpr (.inl hf), hf'⟩
      · exact ⟨i, _, e, entry?_update.mpr (.inr ⟨rfl, rfl, rfl⟩), hwrites⟩
    · rintro ⟨j, n, f, hf, hf'⟩
      rcases entry?_update.mp hf with hf | ⟨hnew, rfl, -⟩
      · exact .inl ⟨j, n, f, hf, hf'⟩
      · cases hnew
        exact .inr (hf'.unique hwrites)
  · intro j n f hf hsuccess
    rcases entry?_update.mp hf with hf | ⟨hnew, rfl, -⟩
    · exact h.recorded j n f hf hsuccess
    · cases hnew
      exact ⟨record, hwrites⟩
  · intro j k m n f g hf hg hsf hsg hid
    rcases entry?_update.mp hf with hf' | ⟨hnew, hj, hm⟩
    · rcases entry?_update.mp hg with hg' | ⟨hnew, -, -⟩
      · exact h.distinct j k m n f g hf' hg' hsf hsg hid
      · cases hnew
        exact absurd hid (hold j m f hf' hsf)
    · rcases entry?_update.mp hg with hg' | ⟨-, hk, hn⟩
      · cases hnew
        exact absurd hid.symm (hold k n g hg' hsg)
      · exact ⟨hj.trans hk.symm, hm.trans hn.symm⟩

theorem step (h : RecordsFaithful deps engine tenants p) {a : ℕ × GuestStep}
    (hstep : p.step (guestAct deps engine) a = some q) :
    RecordsFaithful deps engine tenants q ∧ p.shared.rows <+: q.shared.rows := by
  obtain ⟨db, guest, hact, rfl⟩ := Pool.step_eq_some.mp hstep
  obtain ⟨i, step⟩ := a
  unfold guestAct at hact
  obtain ⟨-, hact⟩ := Option.ite_none_right_eq_some.mp hact
  obtain ⟨⟨entry, store, db'⟩, hperform, hact⟩ := Option.map_eq_some_iff.mp hact
  cases hact
  obtain ⟨htenant, hcases⟩ := GuestStore.perform_cases hperform
  rw [h.tenant i] at htenant hcases
  rcases hcases with ⟨rfl, rfl⟩ | ⟨e, rfl, hpersists⟩
  · exact ⟨h.quiet htenant nofun rfl, List.prefix_refl _⟩
  · rcases hpersists with ⟨record, hwrites, hfresh, hrows⟩ | ⟨hanswer, hrows⟩
    · refine ⟨h.write htenant hwrites hfresh hrows, ?_⟩
      show p.shared.rows <+: db'.rows
      rw [hrows]
      exact List.prefix_append _ _
    · refine ⟨h.quiet htenant ?_ hrows, hrows ▸ List.prefix_refl _⟩
      rintro f ⟨⟩
      exact hanswer

end RecordsFaithful

/-- What a record of the level lets one read of the data. -/
def Reveals (deps : MaskingDeps) (engine : MaskingEngine) (level : Sensitivity)
    (data : List UInt8) (payload : String) : Prop :=
  match level with
  | .public | .internal => utf8Bytes payload = data
  | .piiMasked => payload = hexEncode (deps.sha256 data).toList
  | .piiEncrypted => ∀ s, engine.decryptData deps payload = .ok s ↔ utf8Bytes s = data

theorem reveals_of_transformBytes {nonce : GcmNonce} {data : List UInt8} {level : Sensitivity}
    {payload : String} (h : engine.transformBytes deps nonce data level = .ok payload) :
    Reveals deps engine level data payload := by
  cases level with
  | «public» | internal =>
      unfold MaskingEngine.transformBytes at h
      dsimp only at h
      split at h
      · rename_i s hs
        cases h
        exact utf8Bytes_of_fromUtf8 hs
      · cases h
  | piiMasked =>
      cases h
      rfl
  | piiEncrypted => exact fun s => MaskingEngine.decryptData_of_encryptBytes h

/-- A record of `acme`, an encrypted one of `globex`, and one under an id that is taken. -/
def persistThree : List (ℕ × GuestStep) :=
  [(0, ⟨.persist ⟨"k", "v", .internal⟩ ⟨zeroNonce, "id-1", "now", none⟩, false⟩),
    (1, ⟨.persist ⟨"k", zeroText, .piiEncrypted⟩ ⟨zeroNonce, "id-2", "later", none⟩, false⟩),
    (0, ⟨.persist ⟨"l", "w", .public⟩ ⟨zeroNonce, "id-2", "last", none⟩, false⟩)]

def callsAfter : List (ℕ × GuestStep) :=
  [(0, ⟨.delete "k" .internal, false⟩), (1, ⟨.retrieve "k" .piiEncrypted, true⟩)]

def tenantsOfTwo (i : ℕ) : String := if i = 0 then "acme" else "globex"

def rowsOfTwo : List ExecutionRecord :=
  [⟨"id-1", "acme", "k", "v", "internal", "now"⟩,
    ⟨"id-2", "globex", "k", hexEncode (zeroNonce.toList ++ zeroCiphertext), "pii_encrypted",
      "later"⟩]

def encryptedEntry : PersistEntry :=
  ⟨"k", utf8Bytes zeroText, .piiEncrypted, zeroNonce, ⟨true, "id-2", "later"⟩⟩

end Runs

end SereinGateway.Core

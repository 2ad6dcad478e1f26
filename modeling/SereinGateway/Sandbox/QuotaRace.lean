import Mathlib
import SereinGateway.Sandbox.VirtualFileSystem

/-!
The file system under concurrent calls.

Every access to the map and to the counters is a step of its own. A write looks
up the size of the file it replaces, later exchanges that size for the new one
in the counter, and later still stores the file; a delete takes the file away
and then its size. So between a write's update of the counter and its insert
the counter is ahead of the files by the difference of two sizes, and between a
delete's two steps by one. The counter is right in the end as long as the size
that a write has exchanged is the size it replaces, which fails when another
write or a delete changes the path in between. The number of files is checked
only before, and can be exceeded by writes that have all passed the check.
-/

namespace SereinGateway.Sandbox

open SereinGateway.Lib

/-- Where a call stands. The names say what it does next. -/
inductive VfsTask where
  | idle
  /-- `contains_key`. -/
  | checkingPath (vfsPath : String) (data : List UInt8)
  /-- `files.len()`, for a path that is not stored. -/
  | checkingCount (vfsPath : String) (data : List UInt8)
  /-- `files.len()` for the error. -/
  | reportingCount
  | readingSize (vfsPath : String) (data : List UInt8)
  /-- `fetch_update`. -/
  | updatingQuota (vfsPath : String) (data : List UInt8) (existingSize : ℕ)
  /-- The counter is loaded for the error. -/
  | reportingBudget (dataLen : ℕ)
  | readingDate (vfsPath : String) (data : List UInt8) (existingSize : ℕ)
  | inserting (vfsPath : String) (data : List UInt8) (existingSize : ℕ) (file : VirtualFile)
  | countingWrite
  | removing (guestPath vfsPath : String)
  | subtracting (size : ℕ)
  | returned (result : Except VfsError Unit)
  deriving DecidableEq

inductive VfsStep where
  | write (guestPath : String) (data : List UInt8)
  | delete (guestPath : String)
  /-- The next step of the call; some look at the clock. -/
  | next (now : ℕ)
  deriving DecidableEq

namespace VfsTask

/-- A call begins. What it does first needs nothing but the limits. -/
def start (vfs : VirtualFileSystem) : VfsStep → Option VfsTask
  | .write guestPath data =>
      if vfs.maxTotalBytes < data.length then some (.reportingBudget data.length)
      else some (.checkingPath (vfs.redirectPath guestPath) data)
  | .delete guestPath => some (.removing guestPath (vfs.redirectPath guestPath))
  | .next _ => none

/-- One step of a call. -/
def advance (vfs : VirtualFileSystem) (now : ℕ) : VfsTask → Option (VirtualFileSystem × VfsTask)
  | .idle => none
  | .checkingPath k data =>
      if k ∈ vfs.files then some (vfs, .readingSize k data)
      else some (vfs, .checkingCount k data)
  | .checkingCount k data =>
      if vfs.maxFileCount ≤ vfs.files.entries.length then some (vfs, .reportingCount)
      else some (vfs, .readingSize k data)
  | .reportingCount =>
      some (vfs, .returned (.error (.inodeExhausted vfs.files.entries.length vfs.maxFileCount)))
  | .readingSize k data =>
      some (vfs, .updatingQuota k data (VirtualFileSystem.existingSize vfs.files k))
  | .updatingQuota k data existingSize =>
      match VirtualFileSystem.proposed vfs.maxTotalBytes existingSize data.length
          vfs.totalBytesUsed with
      -- The sum overflows, and the program ends.
      | none => none
      | some none => some (vfs, .reportingBudget data.length)
      | some (some newTotal) =>
          some ({ vfs with totalBytesUsed := newTotal }, .readingDate k data existingSize)
  | .reportingBudget dataLen =>
      some (vfs, .returned
        (.error (.budgetExceeded dataLen (vfs.maxTotalBytes - vfs.totalBytesUsed))))
  | .readingDate k data existingSize =>
      some (vfs, .inserting k data existingSize
        (VirtualFileSystem.fileToStore vfs.files k data now))
  | .inserting k _ _ file => some ({ vfs with files := vfs.files.insert k file }, .countingWrite)
  | .countingWrite =>
      some ({ vfs with writeCount := fetchAdd vfs.writeCount 1 }, .returned (.ok ()))
  | .removing guestPath k =>
      match vfs.files.lookup k with
      | none => some (vfs, .returned (.error (.fileNotFound guestPath)))
      | some file => some ({ vfs with files := vfs.files.erase k }, .subtracting file.size)
  | .subtracting size =>
      some ({ vfs with totalBytesUsed := fetchSub vfs.totalBytesUsed size }, .returned (.ok ()))
  | .returned _ => none

def act (_ : ℕ) (vfs : VirtualFileSystem) (t : VfsTask) (a : VfsStep) :
    Option (VirtualFileSystem × VfsTask) :=
  match t, a with
  | t, .next now => advance vfs now t
  | .idle, a => (start vfs a).map fun t => (vfs, t)
  | .returned _, a => (start vfs a).map fun t => (vfs, t)
  | _, _ => none

/-- No call is in progress. -/
def Rests : VfsTask → Prop
  | .idle => True
  | .returned _ => True
  | _ => False

/-- The path of a write that has updated the counter and not stored its file,
with the size it has replaced there and the size it has put in its place. -/
def committed : VfsTask → Option (String × ℕ × ℕ)
  | .readingDate k data existingSize => some (k, existingSize, data.length)
  | .inserting k _ existingSize file => some (k, existingSize, file.size)
  | _ => none

/-- By how much the counter is ahead of the files on account of a call. -/
def ahead : VfsTask → ℤ
  | .readingDate _ data existingSize => data.length - existingSize
  | .inserting _ _ existingSize file => file.size - existingSize
  | .subtracting size => size
  | _ => 0

end VfsTask

abbrev VfsPool := Pool VirtualFileSystem VfsTask

/-- The calls have not begun. -/
def VfsPool.start (vfs : VirtualFileSystem) : VfsPool := ⟨vfs, fun _ => .idle⟩

/-- Some write of the path has updated the counter and not stored its file. -/
def VfsPool.Replacing (p : VfsPool) (k : String) : Prop :=
  ∃ j existing len, (p.task j).committed = some (k, existing, len)

/-- The steps after which the counters stay right: the counter is updated with
the size that is stored and when no other write is replacing the file; a file is
taken away when none is, unless it is empty; and a file is added while there is
room. -/
def Orderly (p : VfsPool) (e : ℕ × VfsStep) : Prop :=
  match p.task e.1 with
  | .updatingQuota k data existingSize =>
      (VirtualFileSystem.proposed p.shared.maxTotalBytes existingSize data.length
        p.shared.totalBytesUsed).join ≠ none →
      existingSize = VirtualFileSystem.existingSize p.shared.files k ∧ ¬p.Replacing k
  | .removing _ k =>
      0 < VirtualFileSystem.existingSize p.shared.files k → ¬p.Replacing k
  | .inserting k _ _ _ =>
      k ∉ p.shared.files → p.shared.files.entries.length < p.shared.maxFileCount
  | _ => True

/-! ### What a step does -/

/-- A step that neither the files nor the counter of bytes notice. -/
structure Quiet (vfs vfs' : VirtualFileSystem) (t t' : VfsTask) : Prop where
  files : vfs'.files = vfs.files
  total : vfs'.totalBytesUsed = vfs.totalBytesUsed
  maxTotalBytes : vfs'.maxTotalBytes = vfs.maxTotalBytes
  maxFileCount : vfs'.maxFileCount = vfs.maxFileCount
  committed : t'.committed = t.committed
  ahead : t'.ahead = t.ahead

/-- The four steps that count, and all others. -/
inductive Moves (vfs : VirtualFileSystem) : VfsTask → VirtualFileSystem → VfsTask → Prop
  | quiet {t vfs' t'} : Quiet vfs vfs' t t' → Moves vfs t vfs' t'
  | update {k data existingSize newTotal} :
      VirtualFileSystem.proposed vfs.maxTotalBytes existingSize data.length vfs.totalBytesUsed =
        some (some newTotal) →
      Moves vfs (.updatingQuota k data existingSize) { vfs with totalBytesUsed := newTotal }
        (.readingDate k data existingSize)
  | insert {k data existingSize file} :
      Moves vfs (.inserting k data existingSize file)
        { vfs with files := vfs.files.insert k file } .countingWrite
  | remove {guestPath k file} : vfs.files.lookup k = some file →
      Moves vfs (.removing guestPath k) { vfs with files := vfs.files.erase k }
        (.subtracting file.size)
  | subtract {size} :
      Moves vfs (.subtracting size)
        { vfs with totalBytesUsed := fetchSub vfs.totalBytesUsed size } (.returned (.ok ()))

section Steps

open VfsTask

variable {vfs vfs' : VirtualFileSystem} {i : ℕ} {t t' : VfsTask} {a : VfsStep}

theorem start_quiet (h : start vfs a = some t') : t'.committed = none ∧ t'.ahead = 0 := by
  cases a with
  | write guestPath data =>
      rw [start] at h
      split at h
      · obtain rfl := Option.some.inj h
        exact ⟨rfl, rfl⟩
      · obtain rfl := Option.some.inj h
        exact ⟨rfl, rfl⟩
  | delete guestPath =>
      obtain rfl := Option.some.inj h
      exact ⟨rfl, rfl⟩
  | next now => cases h

theorem moves_of_advance {now : ℕ} (h : advance vfs now t = some (vfs', t')) :
    Moves vfs t vfs' t' := by
  cases t with
  | idle => cases h
  | returned result => cases h
  | checkingPath k data =>
      rw [advance] at h
      split at h <;> cases h <;> exact .quiet ⟨rfl, rfl, rfl, rfl, rfl, rfl⟩
  | checkingCount k data =>
      rw [advance] at h
      split at h <;> cases h <;> exact .quiet ⟨rfl, rfl, rfl, rfl, rfl, rfl⟩
  | reportingCount =>
      cases h
      exact .quiet ⟨rfl, rfl, rfl, rfl, rfl, rfl⟩
  | readingSize k data =>
      cases h
      exact .quiet ⟨rfl, rfl, rfl, rfl, rfl, rfl⟩
  | updatingQuota k data existingSize =>
      rw [advance] at h
      split at h
      · cases h
      · cases h
        exact .quiet ⟨rfl, rfl, rfl, rfl, rfl, rfl⟩
      · rename_i newTotal hproposed
        cases h
        exact .update hproposed
  | reportingBudget dataLen =>
      cases h
      exact .quiet ⟨rfl, rfl, rfl, rfl, rfl, rfl⟩
  | readingDate k data existingSize =>
      cases h
      exact .quiet ⟨rfl, rfl, rfl, rfl, rfl, rfl⟩
  | inserting k data existingSize file =>
      cases h
      exact .insert
  | countingWrite =>
      cases h
      exact .quiet ⟨rfl, rfl, rfl, rfl, rfl, rfl⟩
  | removing guestPath k =>
      rw [advance] at h
      split at h
      · cases h
        exact .quiet ⟨rfl, rfl, rfl, rfl, rfl, rfl⟩
      · rename_i file hlookup
        cases h
        exact .remove hlookup
  | subtracting size =>
      cases h
      exact .subtract

theorem moves_of_act (h : act i vfs t a = some (vfs', t')) : Moves vfs t vfs' t' := by
  have hstart : t.committed = none → t.ahead = 0 →
      ((start vfs a).map fun t => (vfs, t)) = some (vfs', t') → Moves vfs t vfs' t' := by
    intro hcommitted hahead hmap
    obtain ⟨t₁, ht₁, heq⟩ := Option.map_eq_some_iff.mp hmap
    obtain ⟨rfl, rfl⟩ := Prod.mk.inj heq
    obtain ⟨hc, ha⟩ := start_quiet ht₁
    exact .quiet ⟨rfl, rfl, rfl, rfl, hc.trans hcommitted.symm, ha.trans hahead.symm⟩
  cases a with
  | next now => exact moves_of_advance (t := t) (by cases t <;> exact h)
  | write guestPath data => cases t <;> first | exact hstart rfl rfl h | cases h
  | delete guestPath => cases t <;> first | exact hstart rfl rfl h | cases h

theorem Moves.limits (h : Moves vfs t vfs' t') :
    vfs'.maxTotalBytes = vfs.maxTotalBytes ∧ vfs'.maxFileCount = vfs.maxFileCount := by
  cases h with
  | quiet hquiet => exact ⟨hquiet.maxTotalBytes, hquiet.maxFileCount⟩
  | update _ => exact ⟨rfl, rfl⟩
  | insert => exact ⟨rfl, rfl⟩
  | remove _ => exact ⟨rfl, rfl⟩
  | subtract => exact ⟨rfl, rfl⟩

end Steps

/-! ### Without interference -/

section Alone

open VfsTask

variable {vfs vfs' : VirtualFileSystem}

theorem reach_writeFile (i : ℕ) {guestPath : String} {data : List UInt8} {now : ℕ}
    {result : Except VfsError Unit}
    (h : vfs.writeFile guestPath data now = some (result, vfs')) :
    Reach (Pool.alone act i) anyStep (vfs, .idle) (vfs', .returned result) := by
  have hbegin : exec (Pool.alone act i) (vfs, .idle) [.write guestPath data] =
      some (vfs, if vfs.maxTotalBytes < data.length then .reportingBudget data.length
        else .checkingPath (vfs.redirectPath guestPath) data) := by
    simp only [exec, Pool.alone, act, start]
    split <;> rfl
  refine (Reach.of_exec _ hbegin).trans ?_
  unfold VirtualFileSystem.writeFile at h
  dsimp only at h
  split at h
  · rename_i hlen
    cases h
    rw [if_pos hlen]
    exact .of_exec [.next now] rfl
  · rename_i hlen
    rw [if_neg hlen]
    split at h
    · rename_i hfull
      cases h
      refine .of_exec [.next now, .next now, .next now] ?_
      simp [exec, Pool.alone, act, advance, hfull.1, hfull.2]
    · rename_i hroom
      have hsize : Reach (Pool.alone act i) anyStep
          (vfs, .checkingPath (vfs.redirectPath guestPath) data)
          (vfs, .readingSize (vfs.redirectPath guestPath) data) := by
        by_cases hmem : vfs.redirectPath guestPath ∈ vfs.files
        · refine .of_exec [.next now] ?_
          simp [exec, Pool.alone, act, advance, hmem]
        · have hcount : ¬vfs.maxFileCount ≤ vfs.files.entries.length := fun hfull =>
            hroom ⟨hmem, hfull⟩
          refine .of_exec [.next now, .next now] ?_
          simp [exec, Pool.alone, act, advance, hmem, hcount]
      refine hsize.trans ?_
      obtain ⟨total, hproposed, hresult⟩ := Option.map_eq_some_iff.mp h
      cases total with
      | none =>
        cases hresult
        refine .of_exec [.next now, .next now, .next now] ?_
        simp [exec, Pool.alone, act, advance, hproposed]
      | some newTotal =>
        cases hresult
        refine .of_exec [.next now, .next now, .next now, .next now, .next now] ?_
        simp [exec, Pool.alone, act, advance, hproposed]

theorem reach_deleteFile (i : ℕ) (vfs : VirtualFileSystem) (guestPath : String) (now : ℕ) :
    Reach (Pool.alone act i) anyStep (vfs, .idle)
      ((vfs.deleteFile guestPath).2, .returned (vfs.deleteFile guestPath).1) := by
  unfold VirtualFileSystem.deleteFile
  dsimp only
  split
  · rename_i hnone
    refine .of_exec [.delete guestPath, .next now] ?_
    simp [exec, Pool.alone, act, start, advance, hnone]
  · rename_i file hsome
    refine .of_exec [.delete guestPath, .next now, .next now] ?_
    simp [exec, Pool.alone, act, start, advance, hsome]

end Alone

/-! ### The books -/

/-- What the writes under way have exchanged is what is stored at their paths,
and no two of them write to one path. -/
structure Current (files : FileMap) (task : ℕ → VfsTask) : Prop where
  size : ∀ {j k existing len}, (task j).committed = some (k, existing, len) →
    VirtualFileSystem.existingSize files k = existing
  unique : ∀ {i j k e₁ l₁ e₂ l₂}, (task i).committed = some (k, e₁, l₁) →
    (task j).committed = some (k, e₂, l₂) → i = j

/-- The counter is the sum of the sizes and of what the calls under way are
ahead, and the limits are kept. -/
structure Balanced (p : VfsPool) : Prop where
  tally : Tally (fun j => (p.task j).ahead)
    (p.shared.totalBytesUsed - weight VirtualFile.size p.shared.files)
  current : Current p.shared.files p.task
  word : p.shared.totalBytesUsed < 2 ^ 64
  budget : p.shared.totalBytesUsed ≤ p.shared.maxTotalBytes
  count : p.shared.files.entries.length ≤ p.shared.maxFileCount

section Books

open VfsTask

variable {files : FileMap} {task : ℕ → VfsTask} {i : ℕ} {t t' : VfsTask} {k : String} {n : ℤ}

theorem ahead_of_committed {existing len : ℕ} (h : t.committed = some (k, existing, len)) :
    t.ahead = len - existing := by
  cases t <;> cases h <;> rfl

theorem ahead_of_not_committed (h : t.committed = none) : 0 ≤ t.ahead := by
  cases t with
  | readingDate => cases h
  | inserting => cases h
  | subtracting size => exact Int.natCast_nonneg size
  | _ => exact le_refl _

/-- The writes under way never replace more than is stored. -/
theorem Current.nonneg (h : Current files task) (ht : Tally (fun j => (task j).ahead) n) :
    0 ≤ (weight VirtualFile.size files : ℤ) + n := by
  obtain ⟨S, -, rfl⟩ := ht
  let key : ℕ → String := fun j => ((task j).committed.map Prod.fst).getD ""
  let C := S.filter fun j => (task j).committed.isSome
  have hinj : Set.InjOn key C := by
    intro i hi j hj heq
    obtain ⟨⟨ki, ei, li⟩, hci⟩ := Option.isSome_iff_exists.mp (Finset.mem_filter.mp hi).2
    obtain ⟨⟨kj, ej, lj⟩, hcj⟩ := Option.isSome_iff_exists.mp (Finset.mem_filter.mp hj).2
    obtain rfl : ki = kj := by simpa [key, hci, hcj] using heq
    exact h.unique hci hcj
  have hsum : (∑ j ∈ C, weightAt VirtualFile.size files (key j) : ℤ) ≤
      weight VirtualFile.size files := by
    exact_mod_cast sum_weightAt_le C key hinj
  have hterm : ∀ j ∈ S, -(if (task j).committed.isSome then
      (weightAt VirtualFile.size files (key j) : ℤ) else 0) ≤ (task j).ahead := by
    intro j _
    cases hc : (task j).committed with
    | none => simpa using ahead_of_not_committed hc
    | some c =>
        obtain ⟨k, existing, len⟩ := c
        have hkey : key j = k := by simp [key, hc]
        have hsize : weightAt VirtualFile.size files k = existing := h.size hc
        rw [hkey, hsize, ahead_of_committed hc]
        simp
  have hle := Finset.sum_le_sum hterm
  rw [Finset.sum_neg_distrib, ← Finset.sum_filter] at hle
  linarith

/-- A path that no write is replacing is stored in full. -/
theorem Current.existingSize_le (h : Current files task)
    (ht : Tally (fun j => (task j).ahead) n)
    (hk : ∀ j existing len, (task j).committed ≠ some (k, existing, len)) :
    (VirtualFileSystem.existingSize files k : ℤ) ≤ weight VirtualFile.size files + n := by
  have hrest : Current (files.erase k) task := by
    refine ⟨?_, h.unique⟩
    intro j k' existing len hc
    have hne : k' ≠ k := by
      rintro rfl
      exact hk j existing len hc
    rw [← h.size hc]
    exact weightAt_erase_of_ne hne
  have hnonneg := hrest.nonneg ht
  have herase := weight_erase (w := VirtualFile.size) (m := files) k
  rw [VirtualFileSystem.existingSize]
  omega

theorem Current.update (h : Current files task)
    (hc : t'.committed = none ∨ t'.committed = (task i).committed) :
    Current files (Function.update task i t') := by
  have hold : ∀ j c, (Function.update task i t' j).committed = some c →
      (task j).committed = some c := by
    intro j c hj
    by_cases hji : j = i
    · subst hji
      rw [Function.update_self] at hj
      rcases hc with hnone | hsame
      · rw [hnone] at hj
        cases hj
      · rwa [hsame] at hj
    · rwa [Function.update_of_ne hji] at hj
  exact ⟨fun hj => h.size (hold _ _ hj), fun hi hj => h.unique (hold _ _ hi) (hold _ _ hj)⟩

/-- A write of a path that no other is replacing commits. -/
theorem Current.commit {existing len : ℕ} (h : Current files task)
    (hk : ∀ j e l, (task j).committed ≠ some (k, e, l))
    (hsize : VirtualFileSystem.existingSize files k = existing)
    (hc : t'.committed = some (k, existing, len)) :
    Current files (Function.update task i t') := by
  have hcases : ∀ j k' e l, (Function.update task i t' j).committed = some (k', e, l) →
      (j = i ∧ k' = k ∧ e = existing) ∨
        (j ≠ i ∧ k' ≠ k ∧ (task j).committed = some (k', e, l)) := by
    intro j k' e l hj
    by_cases hji : j = i
    · subst hji
      rw [Function.update_self, hc] at hj
      cases hj
      exact .inl ⟨rfl, rfl, rfl⟩
    · rw [Function.update_of_ne hji] at hj
      refine .inr ⟨hji, ?_, hj⟩
      rintro rfl
      exact hk j e l hj
  constructor
  · intro j k' e l hj
    rcases hcases j k' e l hj with ⟨-, rfl, rfl⟩ | ⟨-, -, hold⟩
    · exact hsize
    · exact h.size hold
  · intro i₁ i₂ k' e₁ l₁ e₂ l₂ h₁ h₂
    rcases hcases i₁ k' e₁ l₁ h₁ with ⟨rfl, rfl, -⟩ | ⟨-, hne, hold₁⟩
    · rcases hcases i₂ k' e₂ l₂ h₂ with ⟨rfl, -⟩ | ⟨-, hne, -⟩
      · rfl
      · exact absurd rfl hne
    · rcases hcases i₂ k' e₂ l₂ h₂ with ⟨-, rfl, -⟩ | ⟨-, -, hold₂⟩
      · exact absurd rfl hne
      · exact h.unique hold₁ hold₂

theorem Current.insert {existing len : ℕ} {file : VirtualFile} (h : Current files task)
    (hi : (task i).committed = some (k, existing, len)) (ht' : t'.committed = none) :
    Current (files.insert k file) (Function.update task i t') := by
  have hrest : Current files (Function.update task i t') := h.update (.inl ht')
  refine ⟨?_, hrest.unique⟩
  intro j k' e l hc
  have hne : k' ≠ k := by
    rintro rfl
    by_cases hj : j = i
    · subst hj
      rw [Function.update_self, ht'] at hc
      cases hc
    · rw [Function.update_of_ne hj] at hc
      exact hj (h.unique hc hi)
  rw [← hrest.size hc]
  exact weightAt_insert_of_ne file hne

/-- Only an empty file is taken away while a write is replacing it. -/
theorem Current.erase (h : Current files task)
    (hk : 0 < VirtualFileSystem.existingSize files k →
      ∀ j e l, (task j).committed ≠ some (k, e, l)) : Current (files.erase k) task := by
  refine ⟨?_, h.unique⟩
  intro j k' e l hc
  have hsize := h.size hc
  rw [VirtualFileSystem.existingSize] at hsize hk ⊢
  by_cases hkey : k' = k
  · subst hkey
    rw [weightAt_erase_self]
    by_contra hne
    exact hk (by omega) j e l hc
  · rw [weightAt_erase_of_ne hkey]
    exact hsize

end Books

section Runs

open VfsTask

variable {p : VfsPool} {i : ℕ} {a : VfsStep}

theorem Balanced.quiet (h : Balanced p) {vfs : VirtualFileSystem} {t : VfsTask}
    (hquiet : Quiet p.shared vfs (p.task i) t) :
    Balanced ⟨vfs, Function.update p.task i t⟩ := by
  constructor
  · show Tally (fun j => (Function.update p.task i t j).ahead) _
    rw [hquiet.total, hquiet.files]
    exact h.tally.update_stay hquiet.ahead
  · show Current vfs.files _
    rw [hquiet.files]
    exact h.current.update (.inr hquiet.committed)
  · exact hquiet.total ▸ h.word
  · show vfs.totalBytesUsed ≤ vfs.maxTotalBytes
    rw [hquiet.total, hquiet.maxTotalBytes]
    exact h.budget
  · show vfs.files.entries.length ≤ vfs.maxFileCount
    rw [hquiet.files, hquiet.maxFileCount]
    exact h.count

theorem Balanced.update (h : Balanced p) {k : String} {data : List UInt8}
    {existingSize newTotal : ℕ} (htask : p.task i = .updatingQuota k data existingSize)
    (hproposed : VirtualFileSystem.proposed p.shared.maxTotalBytes existingSize data.length
      p.shared.totalBytesUsed = some (some newTotal))
    (hok : Orderly p (i, a)) :
    Balanced ⟨{ p.shared with totalBytesUsed := newTotal },
      Function.update p.task i (.readingDate k data existingSize)⟩ := by
  simp only [Orderly, htask, hproposed] at hok
  obtain ⟨hsize, hreplacing⟩ := hok (by simp)
  have hk : ∀ j e l, (p.task j).committed ≠ some (k, e, l) :=
    fun j e l hj => hreplacing ⟨j, e, l, hj⟩
  have hle := h.current.existingSize_le h.tally hk
  obtain ⟨hword, hbudget, rfl⟩ := VirtualFileSystem.proposed_eq_some.mp hproposed
  constructor
  · have hmoved := h.tally.update i (.readingDate k data existingSize)
    rw [htask] at hmoved
    convert hmoved using 1
    simp only [ahead]
    omega
  · exact h.current.commit hk hsize.symm rfl
  · exact hword
  · exact hbudget
  · exact h.count

theorem Balanced.insert (h : Balanced p) {k : String} {data : List UInt8} {existingSize : ℕ}
    {file : VirtualFile} (htask : p.task i = .inserting k data existingSize file)
    (hok : Orderly p (i, a)) :
    Balanced ⟨{ p.shared with files := p.shared.files.insert k file },
      Function.update p.task i .countingWrite⟩ := by
  simp only [Orderly, htask] at hok
  have hcommitted : (p.task i).committed = some (k, existingSize, file.size) := by
    rw [htask]
    rfl
  have hsize := h.current.size hcommitted
  rw [VirtualFileSystem.existingSize] at hsize
  have hinsert := weight_insert (w := VirtualFile.size) (m := p.shared.files) k file
  constructor
  · have hmoved := h.tally.update i .countingWrite
    rw [htask] at hmoved
    convert hmoved using 1
    simp only [ahead]
    omega
  · exact h.current.insert hcommitted rfl
  · exact h.word
  · exact h.budget
  · show (p.shared.files.insert k file).entries.length ≤ p.shared.maxFileCount
    by_cases hmem : k ∈ p.shared.files
    · rw [length_entries_insert_of_mem hmem]
      exact h.count
    · rw [length_entries_insert_of_notMem hmem]
      exact hok hmem

theorem Balanced.remove (h : Balanced p) {guestPath k : String} {file : VirtualFile}
    (htask : p.task i = .removing guestPath k) (hlookup : p.shared.files.lookup k = some file)
    (hok : Orderly p (i, a)) :
    Balanced ⟨{ p.shared with files := p.shared.files.erase k },
      Function.update p.task i (.subtracting file.size)⟩ := by
  simp only [Orderly, htask] at hok
  have herase := weight_erase (w := VirtualFile.size) (m := p.shared.files) k
  rw [weightAt_of_lookup hlookup] at herase
  constructor
  · have hmoved := h.tally.update i (.subtracting file.size)
    rw [htask] at hmoved
    convert hmoved using 1
    simp only [ahead]
    omega
  · refine (h.current.erase fun hpos j e l hj => ?_).update (.inl rfl)
    exact hok hpos ⟨j, e, l, hj⟩
  · exact h.word
  · exact h.budget
  · exact (length_entries_erase_le k).trans h.count

theorem Balanced.subtract (h : Balanced p) {size : ℕ} (htask : p.task i = .subtracting size) :
    Balanced ⟨{ p.shared with totalBytesUsed := fetchSub p.shared.totalBytesUsed size },
      Function.update p.task i (.returned (.ok ()))⟩ := by
  have hmoved := h.tally.update i (.returned (.ok ()))
  have hbefore : (p.task i).ahead = size := by
    rw [htask]
    rfl
  rw [hbefore, show (VfsTask.returned (.ok ())).ahead = 0 from rfl] at hmoved
  have hcurrent : Current _ (Function.update p.task i (.returned (.ok ()))) :=
    h.current.update (.inl rfl)
  have hnonneg := hcurrent.nonneg hmoved
  have hword := h.word
  have hbudget := h.budget
  rw [fetchSub_of_le (by omega) hword]
  constructor
  · convert hmoved using 1
    dsimp only
    omega
  · exact hcurrent
  · show p.shared.totalBytesUsed - size < 2 ^ 64
    omega
  · show p.shared.totalBytesUsed - size ≤ p.shared.maxTotalBytes
    omega
  · exact h.count

theorem Balanced.step {q : VfsPool} {e : ℕ × VfsStep} (h : Balanced p) (hok : Orderly p e)
    (hstep : p.step act e = some q) :
    Balanced q ∧ q.shared.maxTotalBytes = p.shared.maxTotalBytes ∧
      q.shared.maxFileCount = p.shared.maxFileCount := by
  obtain ⟨vfs, t, hact, rfl⟩ := Pool.step_eq_some.mp hstep
  obtain ⟨i, a⟩ := e
  have hmoves := moves_of_act hact
  refine ⟨?_, hmoves.limits⟩
  dsimp only at hmoves ⊢
  generalize htask : p.task i = t₀ at hmoves
  cases hmoves with
  | quiet hquiet => exact h.quiet (htask ▸ hquiet)
  | update hproposed => exact h.update htask hproposed hok
  | insert => exact h.insert htask hok
  | remove hlookup => exact h.remove htask hlookup hok
  | subtract => exact h.subtract htask

theorem Balanced.start {vfs : VirtualFileSystem} (h : vfs.Fresh) :
    Balanced (VfsPool.start vfs) := by
  have hsound := h.sound
  constructor
  · show Tally (fun _ => 0) (vfs.totalBytesUsed - weight VirtualFile.size vfs.files : ℤ)
    rw [hsound.total, sub_self]
    exact .zero fun _ => rfl
  · exact ⟨fun hj => (by cases hj), fun hi => (by cases hi)⟩
  · show vfs.totalBytesUsed < 2 ^ 64
    rw [h.total]
    decide
  · exact hsound.budget
  · exact hsound.count

end Runs

/-- In every run of concurrent writes and deletes whose steps are orderly, the
counter is the sum of the sizes of the stored files whenever no call is in
progress, and the limits are kept. -/
theorem quota_exact (vfs : VirtualFileSystem) (hfresh : vfs.Fresh) (p : VfsPool)
    (hreach : Reach (Pool.step VfsTask.act) Orderly (VfsPool.start vfs) p)
    (hrest : ∀ i, (p.task i).Rests) :
    p.shared.totalBytesUsed = (p.shared.files.entries.map fun e => e.2.size).sum ∧
      p.shared.totalBytesUsed ≤ vfs.maxTotalBytes ∧
      p.shared.files.entries.length ≤ vfs.maxFileCount := by
  have hinv : Balanced p ∧ p.shared.maxTotalBytes = vfs.maxTotalBytes ∧
      p.shared.maxFileCount = vfs.maxFileCount := by
    refine hreach.invariant (I := fun q => Balanced q ∧
      q.shared.maxTotalBytes = vfs.maxTotalBytes ∧
      q.shared.maxFileCount = vfs.maxFileCount) ⟨.start hfresh, rfl, rfl⟩ ?_
    rintro q e r ⟨hq, hbytes, hcount⟩ hok hstep
    obtain ⟨hr, hbytes', hcount'⟩ := hq.step hok hstep
    exact ⟨hr, hbytes'.trans hbytes, hcount'.trans hcount⟩
  obtain ⟨hbalanced, hbytes, hcount⟩ := hinv
  have hquiet : ∀ i, (p.task i).ahead = 0 := by
    intro i
    have hi := hrest i
    cases hcase : p.task i <;> rw [hcase] at hi <;> first | rfl | exact absurd hi id
  have hzero := hbalanced.tally.eq_zero hquiet
  refine ⟨?_, hbytes ▸ hbalanced.budget, hcount ▸ hbalanced.count⟩
  show p.shared.totalBytesUsed = weight VirtualFile.size p.shared.files
  omega

/-- `Orderly`, as far as the first `n` tasks are concerned. -/
def orderlyBelow (n : ℕ) (p : VfsPool) (e : ℕ × VfsStep) : Bool :=
  let replacing := fun k => (List.range n).any fun j =>
    (p.task j).committed.map Prod.fst == some k
  match p.task e.1 with
  | .updatingQuota k _ existingSize =>
      existingSize == VirtualFileSystem.existingSize p.shared.files k && !replacing k
  | .removing _ k => !replacing k
  | .inserting k _ _ _ =>
      decide (k ∈ p.shared.files) ||
        decide (p.shared.files.entries.length < p.shared.maxFileCount)
  | _ => true

theorem orderly_of_below {n : ℕ} {p : VfsPool} {e : ℕ × VfsStep}
    (hidle : ∀ j, n ≤ j → p.task j = .idle) (h : orderlyBelow n p e = true) : Orderly p e := by
  have hreplacing : ∀ k, ((List.range n).any fun j =>
      (p.task j).committed.map Prod.fst == some k) = false → ¬p.Replacing k := by
    rintro k hnone ⟨j, existing, len, hc⟩
    have hj : j < n := by
      by_contra hge
      rw [hidle j (not_lt.mp hge)] at hc
      cases hc
    have hne := List.any_eq_false.mp hnone j (List.mem_range.mpr hj)
    simp [hc] at hne
  unfold orderlyBelow at h
  unfold Orderly
  split at h
  · simp only [Bool.and_eq_true, beq_iff_eq, Bool.not_eq_true'] at h
    exact fun _ => ⟨h.1, hreplacing _ h.2⟩
  · exact fun _ => hreplacing _ (by simpa using h)
  · intro hmem
    simpa [hmem] using h
  · trivial

/-- Two writers, each at every step before the other. -/
def inTurns (first second : VfsStep) : List (ℕ × VfsStep) :=
  [(0, first), (1, second), (0, .next 7), (1, .next 7), (0, .next 7), (1, .next 7), (0, .next 7),
    (1, .next 7), (0, .next 7), (1, .next 7), (0, .next 7), (1, .next 7), (0, .next 7),
    (1, .next 7), (0, .next 7), (1, .next 7)]

theorem rests_of_inTurns {p : VfsPool} {first second : VfsStep}
    (hexec : exec (Pool.step VfsTask.act) (VfsPool.start .new) (inTurns first second) = some p)
    (hzero : p.task 0 = .returned (.ok ())) (hone : p.task 1 = .returned (.ok ())) (i : ℕ) :
    (p.task i).Rests := by
  match i with
  | 0 => simp [hzero, VfsTask.Rests]
  | 1 => simp [hone, VfsTask.Rests]
  | i + 2 =>
      rw [Pool.exec_task_of_ne hexec (j := i + 2) (by simp [inTurns])]
      trivial

/-- Two writes in turns, to different paths. -/
theorem quota_exact_two_paths :
    ∃ p : VfsPool, Reach (Pool.step VfsTask.act) Orderly (VfsPool.start .new) p ∧
      p.shared.totalBytesUsed = 3 ∧
      p.shared.totalBytesUsed = (p.shared.files.entries.map fun e => e.2.size).sum ∧
      p.shared.totalBytesUsed ≤ VirtualFileSystem.new.maxTotalBytes ∧
      p.shared.files.entries.length ≤ VirtualFileSystem.new.maxFileCount := by
  have hrun : (exec (guarded (Pool.step VfsTask.act) fun p e => orderlyBelow 2 p e = true)
      (VfsPool.start .new) (inTurns (.write "a" [1]) (.write "b" [1, 2]))).map
      (fun p => decide (p.shared.totalBytesUsed = 3 ∧ p.task 0 = .returned (.ok ()) ∧
        p.task 1 = .returned (.ok ()))) = some true := by
    decide +kernel
  obtain ⟨p, hguarded, hdecide⟩ := Option.map_eq_some_iff.mp hrun
  obtain ⟨htotal, hzero, hone⟩ := of_decide_eq_true hdecide
  have hreach : Reach (Pool.step VfsTask.act) Orderly (VfsPool.start .new) p :=
    Pool.reach_of_exec_below 2 (t := .idle) _ (fun j _ => rfl) (by decide)
      (fun q e hidle hguard => orderly_of_below hidle hguard) hguarded
  have hrest := rests_of_inTurns (exec_of_guarded _ hguarded) hzero hone
  exact ⟨p, hreach, htotal, quota_exact .new ⟨rfl, rfl, rfl, rfl⟩ p hreach hrest⟩

/-- Two writes in turns to one new path are both counted, and one is stored. -/
theorem two_writers_counted_twice :
    ¬∀ (vfs : VirtualFileSystem) (p : VfsPool), vfs.Fresh →
      Reach (Pool.step VfsTask.act) anyStep (VfsPool.start vfs) p →
      (∀ i, (p.task i).Rests) →
      p.shared.totalBytesUsed = (p.shared.files.entries.map fun e => e.2.size).sum ∧
        p.shared.totalBytesUsed ≤ vfs.maxTotalBytes ∧
        p.shared.files.entries.length ≤ vfs.maxFileCount := by
  intro hall
  have hrun : (exec (Pool.step VfsTask.act) (VfsPool.start .new)
      (inTurns (.write "a" [1]) (.write "a" [2]))).map
      (fun p => decide (p.shared.totalBytesUsed = 2 ∧
        (p.shared.files.entries.map fun e => e.2.size).sum = 1 ∧
        p.task 0 = .returned (.ok ()) ∧ p.task 1 = .returned (.ok ()))) = some true := by
    decide +kernel
  obtain ⟨p, hexec, hdecide⟩ := Option.map_eq_some_iff.mp hrun
  obtain ⟨htotal, hsum, hzero, hone⟩ := of_decide_eq_true hdecide
  obtain ⟨heq, -⟩ := hall .new p ⟨rfl, rfl, rfl, rfl⟩ (.of_exec _ hexec)
    (rests_of_inTurns hexec hzero hone)
  omega

end SereinGateway.Sandbox

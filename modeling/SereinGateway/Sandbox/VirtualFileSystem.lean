import Mathlib
import SereinGateway.Lib.Tally

/-!
The virtual file system of the sandbox, one call after the other.

Guest paths are resolved to a normal form below the mount point, and files are
stored under it. Of the store the guest sees a map from normal forms to bytes:
`Contents` is this map, `effect` is what a call does to it, and `Represents`
relates it to the store. Beside it, `Sound` says what the counters are worth.
Each call keeps both, so a run of any length does.

`usize` has 64 bits, like the counters.
-/

namespace SereinGateway.Sandbox

open SereinGateway.Lib

/-! ### The store -/

structure VirtualFile where
  path : String
  content : List UInt8
  createdAt : ℕ
  modifiedAt : ℕ
  size : ℕ
  deriving DecidableEq, Repr

inductive VfsError where
  | budgetExceeded (requested available : ℕ)
  | inodeExhausted (current maximum : ℕ)
  | fileNotFound (path : String)
  deriving DecidableEq, Repr

abbrev FileMap := AList fun _ : String => VirtualFile

structure VirtualFileSystem where
  mountPoint : String
  maxTotalBytes : ℕ
  maxFileCount : ℕ
  files : FileMap
  totalBytesUsed : ℕ
  writeCount : ℕ
  readCount : ℕ

/-! ### Paths -/

/-- `trim_start_matches('/')`. -/
def trimSlashes (path : List Char) : List Char := path.dropWhile (· == '/')

def pushSegment (stack : List (List Char)) (segment : List Char) : List (List Char) :=
  if segment = [] ∨ segment = ['.'] then stack
  else if segment = ['.', '.'] then stack.dropLast
  else stack ++ [segment]

def normalizePathSegments (path : List Char) : String :=
  .ofList (['/'].intercalate ((path.splitOn '/').foldl pushSegment []))

def normalForm (guestPath : String) : String :=
  normalizePathSegments (trimSlashes guestPath.toList)

namespace VirtualFileSystem

def redirectPath (vfs : VirtualFileSystem) (guestPath : String) : String :=
  vfs.mountPoint ++ "/" ++ normalForm guestPath

/-! ### The calls -/

def new : VirtualFileSystem :=
  ⟨"/dev/shm/serein-vfs", 64 * 1024 * 1024, 1000, ∅, 0, 0, 0⟩

def withMountPoint (mount : String) (vfs : VirtualFileSystem) : VirtualFileSystem :=
  { vfs with mountPoint := mount }

def withMaxBytes (max : ℕ) (vfs : VirtualFileSystem) : VirtualFileSystem :=
  { vfs with maxTotalBytes := max }

def withMaxFileCount (max : ℕ) (vfs : VirtualFileSystem) : VirtualFileSystem :=
  { vfs with maxFileCount := Nat.max max 1 }

def existingSize (files : FileMap) (vfsPath : String) : ℕ := weightAt VirtualFile.size files vfsPath

/-- What the update of the quota makes of the counter, if the budget allows it; without a
value when the sum overflows, which aborts the program. -/
def proposed (maxTotalBytes existingSize dataLen current : ℕ) : Option (Option ℕ) :=
  let proposed := current - existingSize + dataLen
  if 2 ^ 64 ≤ proposed then none
  else some (if maxTotalBytes < proposed then none else some proposed)

theorem proposed_eq_some {maxTotalBytes existingSize dataLen current newTotal : ℕ} :
    proposed maxTotalBytes existingSize dataLen current = some (some newTotal) ↔
      current - existingSize + dataLen < 2 ^ 64 ∧
        current - existingSize + dataLen ≤ maxTotalBytes ∧
        newTotal = current - existingSize + dataLen := by
  rw [proposed, Option.ite_none_left_eq_some, Option.some.injEq, Option.ite_none_left_eq_some,
    Option.some.injEq, not_le, not_lt, @eq_comm _ newTotal]

/-- The file that a write stores. It is as old as the one it replaces. -/
def fileToStore (files : FileMap) (vfsPath : String) (data : List UInt8) (now : ℕ) : VirtualFile :=
  { path := vfsPath
    content := data
    createdAt := ((files.lookup vfsPath).map VirtualFile.createdAt).getD now
    modifiedAt := now
    size := data.length }

/-- `write_file`, at a time, if it does not abort. -/
def writeFile (guestPath : String) (data : List UInt8) (now : ℕ) (vfs : VirtualFileSystem) :
    Option (Except VfsError Unit × VirtualFileSystem) :=
  let vfsPath := vfs.redirectPath guestPath
  let dataLen := data.length
  if vfs.maxTotalBytes < dataLen then
    some (.error (.budgetExceeded dataLen (vfs.maxTotalBytes - vfs.totalBytesUsed)), vfs)
  else if vfsPath ∉ vfs.files ∧ vfs.maxFileCount ≤ vfs.files.entries.length then
    some (.error (.inodeExhausted vfs.files.entries.length vfs.maxFileCount), vfs)
  else
    (proposed vfs.maxTotalBytes (existingSize vfs.files vfsPath) dataLen vfs.totalBytesUsed).map
      fun
      | none => (.error (.budgetExceeded dataLen (vfs.maxTotalBytes - vfs.totalBytesUsed)), vfs)
      | some newTotal =>
          (.ok (), { vfs with
            totalBytesUsed := newTotal
            files := vfs.files.insert vfsPath (fileToStore vfs.files vfsPath data now)
            writeCount := fetchAdd vfs.writeCount 1 })

def readFile (guestPath : String) (vfs : VirtualFileSystem) :
    Except VfsError (List UInt8) × VirtualFileSystem :=
  match vfs.files.lookup (vfs.redirectPath guestPath) with
  | none => (.error (.fileNotFound guestPath), vfs)
  | some file => (.ok file.content, { vfs with readCount := fetchAdd vfs.readCount 1 })

def deleteFile (guestPath : String) (vfs : VirtualFileSystem) :
    Except VfsError Unit × VirtualFileSystem :=
  let vfsPath := vfs.redirectPath guestPath
  match vfs.files.lookup vfsPath with
  | none => (.error (.fileNotFound guestPath), vfs)
  | some file =>
      (.ok (), { vfs with
        files := vfs.files.erase vfsPath
        totalBytesUsed := fetchSub vfs.totalBytesUsed file.size })

def fileCount (vfs : VirtualFileSystem) : ℕ := vfs.files.entries.length

def bytesUsed (vfs : VirtualFileSystem) : ℕ := vfs.totalBytesUsed

end VirtualFileSystem

inductive VfsCall where
  | writeFile (guestPath : String) (data : List UInt8) (now : ℕ)
  | readFile (guestPath : String)
  | deleteFile (guestPath : String)

/-- What a call returns: the bytes of a read, nothing otherwise. -/
abbrev Reply := Except VfsError (List UInt8)

namespace VirtualFileSystem

def call (vfs : VirtualFileSystem) : VfsCall → Option (Reply × VirtualFileSystem)
  | .writeFile guestPath data now =>
      (vfs.writeFile guestPath data now).map fun r => (r.1.map fun _ => [], r.2)
  | .readFile guestPath => some (vfs.readFile guestPath)
  | .deleteFile guestPath =>
      some ((vfs.deleteFile guestPath).1.map fun _ => [], (vfs.deleteFile guestPath).2)

/-- The calls with their replies, and the store after them. -/
def run : VirtualFileSystem → List VfsCall → Option (List (VfsCall × Reply) × VirtualFileSystem)
  | vfs, [] => some ([], vfs)
  | vfs, c :: cs => do
      let (reply, vfs) ← vfs.call c
      let (history, vfs) ← run vfs cs
      some ((c, reply) :: history, vfs)

/-- Nothing has been stored or counted. The mount point and the limits are free. -/
structure Fresh (vfs : VirtualFileSystem) : Prop where
  files : vfs.files = ∅
  total : vfs.totalBytesUsed = 0
  writes : vfs.writeCount = 0
  reads : vfs.readCount = 0

end VirtualFileSystem

/-! ### The map that the guest sees -/

/-- The bytes stored under each normal form. -/
abbrev Contents := String → Option (List UInt8)

def effect (m : Contents) : VfsCall × Reply → Contents
  | (.writeFile guestPath data _, .ok _) => Function.update m (normalForm guestPath) (some data)
  | (.deleteFile guestPath, .ok _) => Function.update m (normalForm guestPath) none
  | (.readFile _, .ok _) => m
  | (_, .error _) => m

/-- The map after some calls with these replies, from the empty one. -/
def contentsAfter (history : List (VfsCall × Reply)) : Contents :=
  history.foldl effect fun _ => none

namespace VirtualFileSystem

/-- The store holds the files of the map. -/
def Represents (vfs : VirtualFileSystem) (m : Contents) : Prop :=
  ∀ n, m n = (vfs.files.lookup (vfs.mountPoint ++ "/" ++ n)).map VirtualFile.content

/-- The counters are what they should be, and the limits are kept. -/
structure Sound (vfs : VirtualFileSystem) : Prop where
  size : ∀ {k file}, vfs.files.lookup k = some file → file.size = file.content.length
  total : vfs.totalBytesUsed = weight VirtualFile.size vfs.files
  budget : vfs.totalBytesUsed ≤ vfs.maxTotalBytes
  count : vfs.files.entries.length ≤ vfs.maxFileCount

section Calls

variable {vfs : VirtualFileSystem} {guestPath : String} {data : List UInt8} {now : ℕ}
  {m : Contents}

theorem writeFile_cases (guestPath : String) (data : List UInt8) (now : ℕ)
    (hmax : vfs.maxTotalBytes < 2 ^ 63)
    (hbudget : vfs.totalBytesUsed ≤ vfs.maxTotalBytes) :
    (∃ e, vfs.writeFile guestPath data now = some (.error e, vfs)) ∨
    ((vfs.redirectPath guestPath ∈ vfs.files ∨ vfs.files.entries.length < vfs.maxFileCount) ∧
      vfs.totalBytesUsed - existingSize vfs.files (vfs.redirectPath guestPath) + data.length ≤
        vfs.maxTotalBytes ∧
      vfs.writeFile guestPath data now = some (.ok (), { vfs with
        totalBytesUsed :=
          vfs.totalBytesUsed - existingSize vfs.files (vfs.redirectPath guestPath) + data.length
        files := vfs.files.insert (vfs.redirectPath guestPath)
          (fileToStore vfs.files (vfs.redirectPath guestPath) data now)
        writeCount := fetchAdd vfs.writeCount 1 })) := by
  unfold writeFile
  dsimp only
  split
  · exact .inl ⟨_, rfl⟩
  · rename_i hlen
    split
    · exact .inl ⟨_, rfl⟩
    · rename_i hroom
      have hfits : ¬2 ^ 64 ≤ vfs.totalBytesUsed -
          existingSize vfs.files (vfs.redirectPath guestPath) + data.length := by omega
      simp only [proposed, if_neg hfits]
      by_cases hover : vfs.maxTotalBytes < vfs.totalBytesUsed -
          existingSize vfs.files (vfs.redirectPath guestPath) + data.length
      · rw [if_pos hover]
        exact .inl ⟨_, rfl⟩
      · rw [if_neg hover]
        rw [not_and_or, not_not, Nat.not_le] at hroom
        exact .inr ⟨hroom, Nat.not_lt.mp hover, rfl⟩

theorem deleteFile_cases (vfs : VirtualFileSystem) (guestPath : String) :
    (vfs.files.lookup (vfs.redirectPath guestPath) = none ∧
      vfs.deleteFile guestPath = (.error (.fileNotFound guestPath), vfs)) ∨
    ∃ file, vfs.files.lookup (vfs.redirectPath guestPath) = some file ∧
      vfs.deleteFile guestPath = (.ok (), { vfs with
        files := vfs.files.erase (vfs.redirectPath guestPath)
        totalBytesUsed := fetchSub vfs.totalBytesUsed file.size }) := by
  unfold deleteFile
  dsimp only
  split
  · rename_i hnone
    exact .inl ⟨hnone, rfl⟩
  · rename_i file hsome
    exact .inr ⟨file, hsome, rfl⟩

theorem readFile_cases (vfs : VirtualFileSystem) (guestPath : String) :
    (vfs.files.lookup (vfs.redirectPath guestPath) = none ∧
      vfs.readFile guestPath = (.error (.fileNotFound guestPath), vfs)) ∨
    ∃ file, vfs.files.lookup (vfs.redirectPath guestPath) = some file ∧
      vfs.readFile guestPath =
        (.ok file.content, { vfs with readCount := fetchAdd vfs.readCount 1 }) := by
  unfold readFile
  split
  · rename_i hnone
    exact .inl ⟨hnone, rfl⟩
  · rename_i file hsome
    exact .inr ⟨file, hsome, rfl⟩

/-- What a call can do: it returns, and if it fails it leaves everything as it was. -/
theorem call_cases (hmax : vfs.maxTotalBytes < 2 ^ 63)
    (hbudget : vfs.totalBytesUsed ≤ vfs.maxTotalBytes) (c : VfsCall) :
    ∃ reply vfs', vfs.call c = some (reply, vfs') ∧ ∀ e, reply = .error e → vfs' = vfs := by
  cases c with
  | writeFile guestPath data now =>
      rcases writeFile_cases guestPath data now hmax hbudget with ⟨e, heq⟩ | ⟨-, -, heq⟩
      · exact ⟨_, _, by rw [call, heq]; rfl, fun _ _ => rfl⟩
      · exact ⟨_, _, by rw [call, heq]; rfl, fun _ h => by cases h⟩
  | readFile guestPath =>
      rcases readFile_cases vfs guestPath with ⟨-, heq⟩ | ⟨file, -, heq⟩
      · exact ⟨_, _, by rw [call, heq], fun _ _ => rfl⟩
      · exact ⟨_, _, by rw [call, heq], fun _ h => by cases h⟩
  | deleteFile guestPath =>
      rcases deleteFile_cases vfs guestPath with ⟨-, heq⟩ | ⟨file, -, heq⟩
      · exact ⟨_, _, by rw [call, heq], fun _ _ => rfl⟩
      · exact ⟨_, _, by rw [call, heq], fun _ h => by cases h⟩

/-! ### The counters -/

theorem Fresh.sound (h : vfs.Fresh) : vfs.Sound := by
  refine ⟨?_, ?_, ?_, ?_⟩
  · intro k file hlookup
    rw [h.files] at hlookup
    cases hlookup
  · rw [h.total, h.files]
    rfl
  · rw [h.total]
    exact Nat.zero_le _
  · rw [h.files]
    exact Nat.zero_le _

theorem Sound.existingSize_le (h : vfs.Sound) (k : String) :
    existingSize vfs.files k ≤ vfs.totalBytesUsed := by
  have herase := weight_erase (w := VirtualFile.size) (m := vfs.files) k
  rw [h.total, existingSize]
  omega

theorem Sound.writeFile (h : vfs.Sound) (hmax : vfs.maxTotalBytes < 2 ^ 63)
    {r : Except VfsError Unit × VirtualFileSystem}
    (hcall : vfs.writeFile guestPath data now = some r) : r.2.Sound := by
  rcases writeFile_cases guestPath data now hmax h.budget with
    ⟨e, heq⟩ | ⟨hroom, hbudget, heq⟩
  · cases heq.symm.trans hcall
    exact h
  · cases heq.symm.trans hcall
    have hold := h.existingSize_le (vfs.redirectPath guestPath)
    refine ⟨?_, ?_, hbudget, ?_⟩
    · intro k file hlookup
      by_cases hk : k = vfs.redirectPath guestPath
      · subst hk
        rw [AList.lookup_insert] at hlookup
        obtain rfl := Option.some.inj hlookup
        rfl
      · rw [AList.lookup_insert_ne hk] at hlookup
        exact h.size hlookup
    · have hinsert := weight_insert (w := VirtualFile.size) (m := vfs.files)
        (vfs.redirectPath guestPath)
        (fileToStore vfs.files (vfs.redirectPath guestPath) data now)
      have hsize : (fileToStore vfs.files (vfs.redirectPath guestPath) data now).size =
          data.length := rfl
      have htotal := h.total
      dsimp only
      rw [existingSize] at hold ⊢
      omega
    · dsimp only
      by_cases hmem : vfs.redirectPath guestPath ∈ vfs.files
      · rw [length_entries_insert_of_mem hmem]
        exact h.count
      · rw [length_entries_insert_of_notMem hmem]
        exact hroom.resolve_left hmem

theorem Sound.deleteFile (h : vfs.Sound) (hmax : vfs.maxTotalBytes < 2 ^ 63) :
    (vfs.deleteFile guestPath).2.Sound := by
  rcases deleteFile_cases vfs guestPath with
    ⟨-, heq⟩ | ⟨file, hlookup, heq⟩
  · rw [heq]
    exact h
  · rw [heq]
    have herase := weight_erase (w := VirtualFile.size) (m := vfs.files)
      (vfs.redirectPath guestPath)
    rw [weightAt_of_lookup hlookup] at herase
    have htotal := h.total
    have hbudget := h.budget
    have hsub : fetchSub vfs.totalBytesUsed file.size = vfs.totalBytesUsed - file.size :=
      fetchSub_of_le (by omega) (by omega)
    refine ⟨?_, ?_, ?_, ?_⟩
    · intro k f hk
      by_cases hkey : k = vfs.redirectPath guestPath
      · subst hkey
        rw [AList.lookup_erase] at hk
        cases hk
      · rw [AList.lookup_erase_ne hkey] at hk
        exact h.size hk
    · dsimp only
      omega
    · dsimp only
      omega
    · exact (length_entries_erase_le _).trans h.count

theorem Sound.call (h : vfs.Sound) (hmax : vfs.maxTotalBytes < 2 ^ 63) {c : VfsCall}
    {r : Reply × VirtualFileSystem} (hcall : vfs.call c = some r) : r.2.Sound := by
  cases c with
  | writeFile guestPath data now =>
      obtain ⟨r', hwrite, rfl⟩ := Option.map_eq_some_iff.mp hcall
      exact h.writeFile hmax hwrite
  | readFile guestPath =>
      cases hcall
      rcases readFile_cases vfs guestPath with ⟨-, heq⟩ | ⟨file, -, heq⟩
      · rw [heq]
        exact h
      · rw [heq]
        exact ⟨h.size, h.total, h.budget, h.count⟩
  | deleteFile guestPath =>
      cases hcall
      exact h.deleteFile hmax

/-! ### The map -/

theorem Fresh.represents (h : vfs.Fresh) : vfs.Represents fun _ => none := by
  intro n
  rw [h.files]
  rfl

/-- Normal forms are told apart by the path in the store. -/
theorem redirect_ne {mount a b : String} (h : a ≠ b) : mount ++ "/" ++ a ≠ mount ++ "/" ++ b := by
  intro heq
  refine h (String.toList_injective ?_)
  have hlist := congrArg String.toList heq
  simp only [String.toList_append] at hlist
  exact List.append_cancel_left hlist

theorem Represents.insert (h : vfs.Represents m) {files : FileMap} {n : String}
    {file : VirtualFile} (hmount : files = vfs.files.insert (vfs.mountPoint ++ "/" ++ n) file)
    {total writes : ℕ} : Represents { vfs with
      files := files, totalBytesUsed := total, writeCount := writes }
      (Function.update m n (some file.content)) := by
  intro n'
  subst hmount
  by_cases hn : n' = n
  · subst hn
    rw [Function.update_self]
    dsimp only
    rw [AList.lookup_insert]
    rfl
  · rw [Function.update_of_ne hn]
    dsimp only
    rw [AList.lookup_insert_ne (redirect_ne hn)]
    exact h n'

theorem Represents.erase (h : vfs.Represents m) {n : String} {total : ℕ} :
    Represents { vfs with
      files := vfs.files.erase (vfs.mountPoint ++ "/" ++ n), totalBytesUsed := total }
      (Function.update m n none) := by
  intro n'
  by_cases hn : n' = n
  · subst hn
    rw [Function.update_self]
    dsimp only
    rw [AList.lookup_erase]
    rfl
  · rw [Function.update_of_ne hn]
    dsimp only
    rw [AList.lookup_erase_ne (redirect_ne hn)]
    exact h n'

theorem Represents.call (h : vfs.Represents m) (hsound : vfs.Sound)
    (hmax : vfs.maxTotalBytes < 2 ^ 63) {c : VfsCall} {r : Reply × VirtualFileSystem}
    (hcall : vfs.call c = some r) : r.2.Represents (effect m (c, r.1)) := by
  cases c with
  | writeFile guestPath data now =>
      rw [VirtualFileSystem.call] at hcall
      rcases writeFile_cases guestPath data now hmax
        hsound.budget with ⟨e, heq⟩ | ⟨-, -, heq⟩
      · rw [heq] at hcall
        cases hcall
        exact h
      · rw [heq] at hcall
        cases hcall
        exact h.insert rfl
  | readFile guestPath =>
      cases hcall
      rcases readFile_cases vfs guestPath with ⟨-, heq⟩ | ⟨file, -, heq⟩
      · rw [heq]
        exact h
      · rw [heq]
        exact h
  | deleteFile guestPath =>
      cases hcall
      rcases deleteFile_cases vfs guestPath with ⟨-, heq⟩ | ⟨file, -, heq⟩
      · rw [heq]
        exact h
      · rw [heq]
        exact h.erase

theorem Represents.readFile (h : vfs.Represents m) (guestPath : String) :
    (vfs.readFile guestPath).1 =
      match m (normalForm guestPath) with
      | some bytes => .ok bytes
      | none => .error (.fileNotFound guestPath) := by
  have hn := h (normalForm guestPath)
  rcases readFile_cases vfs guestPath with
    ⟨hnone, heq⟩ | ⟨file, hsome, heq⟩
  · rw [redirectPath] at hnone
    rw [heq, hn, hnone]
    rfl
  · rw [redirectPath] at hsome
    rw [heq, hn, hsome]
    rfl

theorem Represents.deleteFile (h : vfs.Represents m) (guestPath : String) :
    (vfs.deleteFile guestPath).1 =
      match m (normalForm guestPath) with
      | some _ => .ok ()
      | none => .error (.fileNotFound guestPath) := by
  have hn := h (normalForm guestPath)
  rcases deleteFile_cases vfs guestPath with
    ⟨hnone, heq⟩ | ⟨file, hsome, heq⟩
  · rw [redirectPath] at hnone
    rw [heq, hn, hnone]
    rfl
  · rw [redirectPath] at hsome
    rw [heq, hn, hsome]
    rfl

/-! ### Runs -/

theorem limits_of_call {c : VfsCall} {r : Reply × VirtualFileSystem}
    (hcall : vfs.call c = some r) :
    r.2.maxTotalBytes = vfs.maxTotalBytes ∧ r.2.maxFileCount = vfs.maxFileCount := by
  cases c with
  | writeFile guestPath data now =>
      obtain ⟨r', hwrite, rfl⟩ := Option.map_eq_some_iff.mp hcall
      unfold VirtualFileSystem.writeFile at hwrite
      dsimp only at hwrite
      split at hwrite
      · cases hwrite
        exact ⟨rfl, rfl⟩
      · split at hwrite
        · cases hwrite
          exact ⟨rfl, rfl⟩
        · obtain ⟨total, -, rfl⟩ := Option.map_eq_some_iff.mp hwrite
          cases total <;> exact ⟨rfl, rfl⟩
  | readFile guestPath =>
      cases hcall
      rcases readFile_cases vfs guestPath with ⟨-, heq⟩ | ⟨file, -, heq⟩ <;>
        rw [heq] <;> exact ⟨rfl, rfl⟩
  | deleteFile guestPath =>
      cases hcall
      rcases deleteFile_cases vfs guestPath with ⟨-, heq⟩ | ⟨file, -, heq⟩ <;>
        rw [heq] <;> exact ⟨rfl, rfl⟩

/-- Every run comes to its end, keeps the store in step with the map and the counters
right, and leaves the limits alone. -/
theorem run_spec (cs : List VfsCall) (hmax : vfs.maxTotalBytes < 2 ^ 63) (hsound : vfs.Sound)
    (hrep : vfs.Represents m) :
    ∃ history vfs', vfs.run cs = some (history, vfs') ∧ vfs'.Sound ∧
      vfs'.Represents (history.foldl effect m) ∧
      vfs'.maxTotalBytes = vfs.maxTotalBytes ∧ vfs'.maxFileCount = vfs.maxFileCount := by
  induction cs generalizing vfs m with
  | nil => exact ⟨[], vfs, rfl, hsound, hrep, rfl, rfl⟩
  | cons c cs ih =>
      obtain ⟨reply, next, hcall, -⟩ := call_cases hmax hsound.budget c
      obtain ⟨hbytes, hcount⟩ := limits_of_call hcall
      dsimp only at hbytes hcount
      obtain ⟨history, last, hrun, hsound', hrep', hbytes', hcount'⟩ :=
        ih (hbytes ▸ hmax) (hsound.call hmax hcall) (hrep.call hsound hmax hcall)
      refine ⟨(c, reply) :: history, last, ?_, hsound', hrep', hbytes'.trans hbytes,
        hcount'.trans hcount⟩
      rw [run, hcall]
      dsimp only [Option.bind_eq_bind, Option.bind_some]
      rw [hrun]
      rfl

end Calls

end VirtualFileSystem

/-- The file system as a map, after every sequence of calls, none of which aborts: reads
and deletes find what the map of the successful calls holds, the counter is the sum of the
sizes and within the budget, the files are within their number, and whichever call fails
next changes nothing. -/
theorem sequential_correct (vfs : VirtualFileSystem) (hfresh : vfs.Fresh)
    (hmax : vfs.maxTotalBytes < 2 ^ 63) (cs : List VfsCall) :
    ∃ history vfs', vfs.run cs = some (history, vfs') ∧
    (∀ guestPath, (vfs'.readFile guestPath).1 =
      match contentsAfter history (normalForm guestPath) with
      | some bytes => .ok bytes
      | none => .error (.fileNotFound guestPath)) ∧
    (∀ guestPath, (vfs'.deleteFile guestPath).1 =
      match contentsAfter history (normalForm guestPath) with
      | some _ => .ok ()
      | none => .error (.fileNotFound guestPath)) ∧
    vfs'.bytesUsed = (vfs'.files.entries.map fun e => e.2.content.length).sum ∧
    vfs'.bytesUsed ≤ vfs.maxTotalBytes ∧
    vfs'.fileCount ≤ vfs.maxFileCount ∧
    ∀ c, ∃ reply next, vfs'.call c = some (reply, next) ∧ ∀ e, reply = .error e → next = vfs' := by
  obtain ⟨history, vfs', hrun, hsound, hrep, hbytes, hcount⟩ :=
    VirtualFileSystem.run_spec cs hmax hfresh.sound hfresh.represents
  refine ⟨history, vfs', hrun, hrep.readFile, hrep.deleteFile, ?_, hbytes ▸ hsound.budget,
    hcount ▸ hsound.count, VirtualFileSystem.call_cases (hbytes ▸ hmax) hsound.budget⟩
  rw [VirtualFileSystem.bytesUsed, hsound.total, weight]
  congr 1
  refine List.map_congr_left fun e he => ?_
  exact hsound.size (AList.mem_lookup_iff.mpr he)

/-- A file is overwritten through another name of its path, and a third write
finds the budget used up. -/
theorem sequential_correct_small : ∃ history vfs',
    (VirtualFileSystem.new.withMaxBytes 4).run
      [.writeFile "/a/../b" [1, 2] 0, .writeFile "b" [3, 4, 5] 1, .writeFile "c" [6, 7] 2] =
        some (history, vfs') ∧ (vfs'.readFile "./b").1 = .ok [3, 4, 5] := by
  obtain ⟨history, vfs', hrun, hread, -⟩ :=
    sequential_correct (VirtualFileSystem.new.withMaxBytes 4) ⟨rfl, rfl, rfl, rfl⟩ (by decide)
      [.writeFile "/a/../b" [1, 2] 0, .writeFile "b" [3, 4, 5] 1, .writeFile "c" [6, 7] 2]
  have hlast : ((VirtualFileSystem.new.withMaxBytes 4).run
      [.writeFile "/a/../b" [1, 2] 0, .writeFile "b" [3, 4, 5] 1, .writeFile "c" [6, 7] 2]).map
        (fun r => contentsAfter r.1 (normalForm "./b")) = some (some [3, 4, 5]) := by decide
  rw [hrun, Option.map_some, Option.some.injEq] at hlast
  exact ⟨history, vfs', hrun, by rw [hread "./b", hlast]⟩

end SereinGateway.Sandbox

import Mathlib
import SereinGateway.Core.AbiGuard

/-!
Shared buffers, which a guest reads in chunks.

A read that goes over the end of the buffer is refused as a violation of memory,
before it would be cut to what is there. So the last chunk is only read if it is a
whole one, and a loop over a buffer with another one does not get on.
-/

namespace SereinGateway.Core

def sharedBufferMaxLen : ℕ := 16 * 1024 * 1024

def sharedBufferReadChunk : UInt64 := 64 * 1024

structure SharedBuffer where
  data : List UInt8
  fits : data.length ≤ sharedBufferMaxLen

/-- `data.len() as u64` -/
def SharedBuffer.total (buffer : SharedBuffer) : UInt64 := .ofNat buffer.data.length

structure CanonicalAbiGuard where
  transferCount : UInt64
  enabled : Bool

def CanonicalAbiGuard.recordCompliantTransfer (guard : CanonicalAbiGuard) : CanonicalAbiGuard :=
  if guard.enabled then { guard with transferCount := guard.transferCount + 1 } else guard

/-- The parts of the state of a store that have to do with buffers. -/
structure StoreState where
  sharedBuffers : UInt32 → Option SharedBuffer
  canonicalAbiGuard : CanonicalAbiGuard

inductive GuestTrap where
  | memoryAccessViolation (offset len capacity : UInt64)
  deriving DecidableEq

def ensureInBounds (offset len capacity : UInt64) : Except GuestTrap Unit :=
  if capacity < saturatingAdd offset len then .error (.memoryAccessViolation offset len capacity)
  else .ok ()

namespace StoreState

def recordCompliantTransfer (state : StoreState) : StoreState :=
  { state with canonicalAbiGuard := state.canonicalAbiGuard.recordCompliantTransfer }

/-- `create_shared_buffer`, with the handle that the table of resources gives out. -/
def createSharedBuffer (state : StoreState) (rep : UInt32) (data : List UInt8) :
    Except String StoreState :=
  if h : sharedBufferMaxLen < data.length then
    .error ("SharedBuffer exceeds maximum size: " ++ toString data.length ++ " bytes (max " ++
      toString sharedBufferMaxLen ++ ")")
  else .ok ({ state with
    sharedBuffers := Function.update state.sharedBuffers rep (some ⟨data, Nat.not_lt.mp h⟩) }
      ).recordCompliantTransfer

def read (state : StoreState) (rep : UInt32) (offset len : UInt64) :
    (List UInt8 × UInt64) × StoreState :=
  let readLen := min len sharedBufferReadChunk
  match state.sharedBuffers rep with
  | none => (([], 0), state)
  | some buffer =>
      if buffer.total ≤ offset then (([], buffer.total), state.recordCompliantTransfer)
      else
        match ensureInBounds offset readLen buffer.total with
        | .error _ => (([], buffer.total), state)
        | .ok () =>
            let start := offset.toNat
            let last := min (start + readLen.toNat) buffer.data.length
            (((buffer.data.drop start).take (last - start), buffer.total),
              state.recordCompliantTransfer)

/-- The loop of a guest: chunks of `c` bytes, until the offset has reached the total. -/
@[grind =] def readLoop (rep : UInt32) (c : UInt64) :
    ℕ → StoreState → UInt64 → List UInt8 → Option (List UInt8)
  | 0, _, _, _ => none
  | fuel + 1, state, offset, received =>
      match state.read rep offset c with
      | ((bytes, total), state) =>
          if total ≤ offset then some received
          else readLoop rep c fuel state (offset + .ofNat bytes.length) (received ++ bytes)

end StoreState

/-- What a read is asked for: the part of the buffer that is there, and the total. -/
def SharedBuffer.part (buffer : SharedBuffer) (offset len : UInt64) : List UInt8 × UInt64 :=
  let total := buffer.data.length
  let last := min (offset.toNat + min len.toNat (64 * 1024)) total
  (if offset.toNat < total then (buffer.data.drop offset.toNat).take (last - offset.toNat) else [],
    buffer.total)

variable {state : StoreState} {rep : UInt32} {buffer : SharedBuffer} {offset len c : UInt64}
  {received : List UInt8} {fuel : ℕ}

theorem SharedBuffer.toNat_total (buffer : SharedBuffer) :
    buffer.total.toNat = buffer.data.length := by
  have hfits := buffer.fits
  unfold sharedBufferMaxLen at hfits
  rw [SharedBuffer.total, UInt64.toNat_ofNat', Nat.mod_eq_of_lt (by omega)]

theorem SharedBuffer.toNat_total_lt (buffer : SharedBuffer) :
    buffer.total.toNat < 2 ^ 64 - 1 := by
  have hfits := buffer.fits
  unfold sharedBufferMaxLen at hfits
  rw [buffer.toNat_total]
  omega

theorem toNat_min_readChunk (len : UInt64) :
    (min len sharedBufferReadChunk).toNat = min len.toNat 65536 := by
  have hchunk : sharedBufferReadChunk.toNat = 65536 := by decide
  have hle : len ≤ sharedBufferReadChunk ↔ len.toNat ≤ 65536 := by
    rw [UInt64.le_iff_toNat_le, hchunk]
  change (if len ≤ sharedBufferReadChunk then len else sharedBufferReadChunk).toNat = _
  split
  · rename_i h
    exact (min_eq_left (hle.mp h)).symm
  · rename_i h
    rw [hchunk, min_eq_right (Nat.not_le.mp (mt hle.mpr h)).le]

theorem ensureInBounds_eq_ok {capacity : UInt64} (h : capacity.toNat < 2 ^ 64 - 1) :
    ensureInBounds offset len capacity = .ok () ↔ offset.toNat + len.toNat ≤ capacity.toNat := by
  have hlt : capacity < saturatingAdd offset len ↔ capacity.toNat < offset.toNat + len.toNat := by
    rw [UInt64.lt_iff_toNat_lt, toNat_saturatingAdd]
    omega
  unfold ensureInBounds
  split
  · rename_i hover
    exact iff_of_false (fun h => by cases h) (by rwa [Nat.not_le, ← hlt])
  · rename_i hwithin
    exact iff_of_true rfl (Nat.not_lt.mp fun h => hwithin (hlt.mpr h))

@[simp] theorem StoreState.sharedBuffers_recordCompliantTransfer (state : StoreState) :
    state.recordCompliantTransfer.sharedBuffers = state.sharedBuffers := rfl

@[simp] theorem StoreState.sharedBuffers_read (state : StoreState) (rep : UInt32)
    (offset len : UInt64) : (state.read rep offset len).2.sharedBuffers = state.sharedBuffers := by
  unfold StoreState.read
  dsimp only
  split
  · rfl
  · split
    · rfl
    · split <;> rfl

section Buffer

variable (hbuffer : state.sharedBuffers rep = some buffer)

include hbuffer

theorem StoreState.read_behind (h : buffer.data.length ≤ offset.toNat) :
    (state.read rep offset len).1 = ([], buffer.total) := by
  have hle : buffer.total ≤ offset := by
    rwa [UInt64.le_iff_toNat_le, buffer.toNat_total]
  unfold StoreState.read
  rw [hbuffer]
  dsimp only
  rw [if_pos hle]

theorem StoreState.read_within (hoffset : offset.toNat < buffer.data.length)
    (h : offset.toNat + min len.toNat 65536 ≤ buffer.data.length) :
    (state.read rep offset len).1 =
      ((buffer.data.drop offset.toNat).take (min len.toNat 65536), buffer.total) := by
  have hlt : ¬buffer.total ≤ offset := by
    rwa [UInt64.le_iff_toNat_le, buffer.toNat_total, Nat.not_le]
  have hbounds : ensureInBounds offset (min len sharedBufferReadChunk) buffer.total = .ok () := by
    rw [ensureInBounds_eq_ok buffer.toNat_total_lt, toNat_min_readChunk, buffer.toNat_total]
    exact h
  unfold StoreState.read
  rw [hbuffer]
  dsimp only
  rw [if_neg hlt, hbounds]
  dsimp only
  rw [toNat_min_readChunk, min_eq_left h, Nat.add_sub_cancel_left]

theorem StoreState.read_over (hoffset : offset.toNat < buffer.data.length)
    (h : buffer.data.length < offset.toNat + min len.toNat 65536) :
    (state.read rep offset len).1 = ([], buffer.total) := by
  have hlt : ¬buffer.total ≤ offset := by
    rwa [UInt64.le_iff_toNat_le, buffer.toNat_total, Nat.not_le]
  have hbounds : ensureInBounds offset (min len sharedBufferReadChunk) buffer.total ≠ .ok () := by
    rw [ne_eq, ensureInBounds_eq_ok buffer.toNat_total_lt, toNat_min_readChunk, buffer.toNat_total]
    exact Nat.not_le.mpr h
  unfold StoreState.read
  rw [hbuffer]
  dsimp only
  rw [if_neg hlt]
  cases hcheck : ensureInBounds offset (min len sharedBufferReadChunk) buffer.total with
  | error _ => rfl
  | ok _ => exact absurd hcheck hbounds

theorem StoreState.read_eq_part_iff : (state.read rep offset len).1 = buffer.part offset len ↔
    buffer.data.length ≤ offset.toNat ∨
      offset.toNat + min len.toNat 65536 ≤ buffer.data.length := by
  rcases Nat.lt_or_ge offset.toNat buffer.data.length with hlt | hge
  · rw [or_iff_right (Nat.not_le.mpr hlt), SharedBuffer.part, if_pos hlt]
    rcases Nat.lt_or_ge buffer.data.length (offset.toNat + min len.toNat 65536) with hover | hwithin
    · rw [StoreState.read_over hbuffer hlt hover, min_eq_right hover.le]
      refine iff_of_false (fun heq => ?_) (Nat.not_le.mpr hover)
      have hlength := congrArg (fun part => part.1.length) heq
      simp only [List.length_nil, List.length_take, List.length_drop] at hlength
      omega
    · rw [StoreState.read_within hbuffer hlt hwithin, min_eq_left hwithin, Nat.add_sub_cancel_left]
      exact iff_of_true rfl hwithin
  · rw [StoreState.read_behind hbuffer hge, SharedBuffer.part, if_neg (Nat.not_lt.mpr hge)]
    exact iff_of_true rfl (.inl hge)

/-! ### The loop -/

theorem StoreState.readLoop_succ (fuel : ℕ) (offset : UInt64) (received : List UInt8) :
    readLoop rep c (fuel + 1) state offset received =
      if buffer.data.length ≤ offset.toNat then some received
      else readLoop rep c fuel (state.read rep offset c).2
        (offset + .ofNat (state.read rep offset c).1.1.length)
        (received ++ (state.read rep offset c).1.1) := by
  have htotal : (state.read rep offset c).1.2 = buffer.total := by
    rcases Nat.lt_or_ge offset.toNat buffer.data.length with hlt | hge
    · rcases Nat.lt_or_ge buffer.data.length (offset.toNat + min c.toNat 65536) with hover | hwithin
      · rw [StoreState.read_over hbuffer hlt hover]
      · rw [StoreState.read_within hbuffer hlt hwithin]
    · rw [StoreState.read_behind hbuffer hge]
  have hle : buffer.total ≤ offset ↔ buffer.data.length ≤ offset.toNat := by
    rw [UInt64.le_iff_toNat_le, buffer.toNat_total]
  change (if (state.read rep offset c).1.2 ≤ offset then some received
    else readLoop rep c fuel (state.read rep offset c).2
      (offset + .ofNat (state.read rep offset c).1.1.length)
      (received ++ (state.read rep offset c).1.1)) = _
  rw [htotal]
  exact if_congr hle rfl rfl

theorem StoreState.toNat_next (hoffset : offset.toNat < buffer.data.length)
    (h : offset.toNat + min c.toNat 65536 ≤ buffer.data.length) :
    (offset + .ofNat (state.read rep offset c).1.1.length).toNat =
      offset.toNat + min c.toNat 65536 := by
  have hfits := buffer.fits
  unfold sharedBufferMaxLen at hfits
  rw [StoreState.read_within hbuffer hoffset h, List.length_take, List.length_drop,
    min_eq_left (by omega), UInt64.toNat_add, UInt64.toNat_ofNat']
  omega

theorem StoreState.dvd_of_readLoop (h : (readLoop rep c fuel state offset received).isSome) :
    min c.toNat 65536 ∣ buffer.data.length - offset.toNat := by
  induction fuel generalizing state offset received with
  | zero => cases h
  | succ fuel ih =>
      rw [StoreState.readLoop_succ hbuffer] at h
      have hnext : (state.read rep offset c).2.sharedBuffers rep = some buffer := by
        rw [StoreState.sharedBuffers_read, hbuffer]
      split at h
      · rename_i hge
        rw [Nat.sub_eq_zero_of_le hge]
        exact dvd_zero _
      · rename_i hlt
        have hrest := ih hnext h
        rcases Nat.lt_or_ge buffer.data.length (offset.toNat + min c.toNat 65536) with
          hover | hwithin
        · -- The round has not changed the offset.
          rw [StoreState.read_over hbuffer (Nat.not_le.mp hlt) hover] at hrest
          rwa [List.length_nil, show UInt64.ofNat 0 = 0 from rfl, UInt64.add_zero] at hrest
        · rw [StoreState.toNat_next hbuffer (Nat.not_le.mp hlt) hwithin] at hrest
          have hsum : buffer.data.length - offset.toNat =
              buffer.data.length - (offset.toNat + min c.toNat 65536) + min c.toNat 65536 := by
            omega
          rw [hsum]
          exact dvd_add hrest (dvd_refl _)

theorem StoreState.exists_readLoop (hc : 1 ≤ c.toNat) (rounds : ℕ)
    (hrounds : offset.toNat + min c.toNat 65536 * rounds = buffer.data.length) :
    readLoop rep c (rounds + 1) state offset received =
      some (received ++ buffer.data.drop offset.toNat) := by
  induction rounds generalizing state offset received with
  | zero =>
      have hend : buffer.data.length = offset.toNat := by omega
      rw [StoreState.readLoop_succ hbuffer, if_pos hend.le, ← hend, List.drop_length,
        List.append_nil]
  | succ rounds ih =>
      have hnext : (state.read rep offset c).2.sharedBuffers rep = some buffer := by
        rw [StoreState.sharedBuffers_read, hbuffer]
      rw [Nat.mul_succ] at hrounds
      have hlt : offset.toNat < buffer.data.length := by omega
      have hwithin : offset.toNat + min c.toNat 65536 ≤ buffer.data.length := by omega
      have hoffset := StoreState.toNat_next hbuffer hlt hwithin
      rw [StoreState.readLoop_succ hbuffer, if_neg (Nat.not_le.mpr hlt),
        ih hnext (by rw [hoffset]; omega), hoffset, StoreState.read_within hbuffer hlt hwithin,
        List.append_assoc, ← List.drop_drop, List.take_append_drop]

end Buffer

/-- A single read is right exactly if it does not go over the end, and the loop is right
exactly if the chunks are all whole ones. -/
theorem StoreState.chunked_reads_exact_iff (hbuffer : state.sharedBuffers rep = some buffer) :
    (∀ offset len, (state.read rep offset len).1 = buffer.part offset len ↔
      buffer.data.length ≤ offset.toNat ∨
        offset.toNat + min len.toNat 65536 ≤ buffer.data.length) ∧
      ∀ c : UInt64, 1 ≤ c.toNat →
        ((∃ fuel, readLoop rep c fuel state 0 [] = some buffer.data) ↔
          min c.toNat 65536 ∣ buffer.data.length) := by
  refine ⟨fun _ _ => StoreState.read_eq_part_iff hbuffer, fun c hc => ⟨?_, ?_⟩⟩
  · rintro ⟨fuel, hloop⟩
    have hdvd := StoreState.dvd_of_readLoop hbuffer (Option.isSome_iff_exists.mpr ⟨_, hloop⟩)
    rwa [UInt64.toNat_zero, Nat.sub_zero] at hdvd
  · rintro ⟨rounds, hrounds⟩
    refine ⟨rounds + 1, ?_⟩
    rw [StoreState.exists_readLoop hbuffer hc rounds (by rw [hrounds, UInt64.toNat_zero, zero_add])]
    rfl

def threeBytes : StoreState :=
  ⟨fun _ => some ⟨[1, 2, 3], by decide⟩, ⟨0, true⟩⟩

theorem threeBytes_reads_exact_iff :
    (threeBytes.read 0 1 2).1 = ([2, 3], 3) ∧
      ∃ fuel, StoreState.readLoop 0 1 fuel threeBytes 0 [] = some [1, 2, 3] := by
  have hbuffer : threeBytes.sharedBuffers 0 = some ⟨[1, 2, 3], by decide⟩ := rfl
  obtain ⟨hread, hloop⟩ := StoreState.chunked_reads_exact_iff hbuffer
  exact ⟨(hread 1 2).mpr (.inr (by decide)), (hloop 1 (by decide)).mpr (by decide)⟩

/-- Three bytes are not read in one piece of a hundred. -/
theorem threeBytes_not_read : ¬∀ (state : StoreState) (rep : UInt32) (buffer : SharedBuffer),
    state.sharedBuffers rep = some buffer →
      (∀ offset len, (state.read rep offset len).1 = buffer.part offset len) ∧
        ∀ c : UInt64, 1 ≤ c.toNat →
          ∃ fuel, StoreState.readLoop rep c fuel state 0 [] = some buffer.data := by
  intro hall
  exact absurd ((hall threeBytes 0 _ rfl).1 0 100) (by decide)

end SereinGateway.Core

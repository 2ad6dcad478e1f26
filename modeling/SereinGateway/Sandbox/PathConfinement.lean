import Mathlib
import SereinGateway.Lib.Walk
import SereinGateway.Sandbox.VirtualFileSystem

/-!
The paths of a guest stay below the mount point.

A path is a walk that starts at the root: a segment `..` goes up, an empty
segment or `.` stays, and any other one is the name of a place. The normal form
of a path is the way to where the walk leads, so it has names only, and it may
stand for the path in front of anything else.
-/

namespace SereinGateway.Sandbox

open SereinGateway.Lib

/-- A segment that a path may be left with. -/
structure PathName where
  text : List Char
  nonempty : text ≠ []
  not_dot : text ≠ ['.']
  not_dots : text ≠ ['.', '.']
  no_slash : '/' ∉ text

/-- What a segment says. -/
def moveOf (segment : List Char) : Move PathName :=
  if h : segment ≠ [] ∧ segment ≠ ['.'] ∧ segment ≠ ['.', '.'] ∧ '/' ∉ segment then
    .enter ⟨segment, h.1, h.2.1, h.2.2.1, h.2.2.2⟩
  else if segment = ['.', '.'] then .up
  else .stay

def resolve (path : List Char) : List PathName := Move.walk [] ((path.splitOn '/').map moveOf)

/-- The way to a place, written out. -/
def joinNames (names : List PathName) : List Char :=
  ['/'].intercalate (names.map PathName.text)

theorem slash_notMem_splitOn (path : List Char) : ∀ s ∈ path.splitOn '/', '/' ∉ s := by
  induction path with
  | nil => simp
  | cons c path ih =>
      rw [List.splitOn_cons_eq_if_modifyHead]
      by_cases hc : c = '/'
      · rw [if_pos (beq_iff_eq.mpr hc)]
        exact List.forall_mem_cons.mpr ⟨List.not_mem_nil, ih⟩
      · rw [if_neg (by simpa using hc)]
        cases hsplit : path.splitOn '/' with
        | nil => exact absurd hsplit (List.splitOn_ne_nil '/' path)
        | cons s rest =>
            obtain ⟨hs, hrest⟩ := List.forall_mem_cons.mp (hsplit ▸ ih)
            rw [List.modifyHead_cons]
            refine List.forall_mem_cons.mpr ⟨?_, hrest⟩
            exact mt List.mem_cons.mp (not_or.mpr ⟨Ne.symm hc, hs⟩)

/-- The stack of the source holds the names on the way to the place. -/
theorem pushSegment_eq {segment : List Char} (hslash : '/' ∉ segment) (names : List PathName) :
    pushSegment (names.map PathName.text) segment =
      (Move.apply names (moveOf segment)).map PathName.text := by
  unfold pushSegment moveOf
  by_cases hstay : segment = [] ∨ segment = ['.']
  · rw [if_pos hstay]
    rcases hstay with rfl | rfl <;> rfl
  · by_cases hup : segment = ['.', '.']
    · subst hup
      rw [if_neg hstay, if_pos rfl]
      exact List.map_dropLast.symm
    · rw [not_or] at hstay
      rw [if_neg (not_or.mpr hstay), if_neg hup, dif_pos ⟨hstay.1, hstay.2, hup, hslash⟩,
        Move.apply, List.map_append]
      rfl

theorem foldl_pushSegment {segments : List (List Char)} (h : ∀ s ∈ segments, '/' ∉ s)
    (names : List PathName) :
    segments.foldl pushSegment (names.map PathName.text) =
      (Move.walk names (segments.map moveOf)).map PathName.text := by
  induction segments generalizing names with
  | nil => rfl
  | cons segment segments ih =>
      obtain ⟨hslash, hrest⟩ := List.forall_mem_cons.mp h
      rw [List.foldl_cons, pushSegment_eq hslash, ih hrest, List.map_cons, Move.walk_cons]

theorem normalizePathSegments_eq (path : List Char) :
    normalizePathSegments path = .ofList (joinNames (resolve path)) := by
  rw [normalizePathSegments, joinNames, resolve]
  exact congrArg (String.ofList <| ['/'].intercalate ·)
    (foldl_pushSegment (slash_notMem_splitOn path) [])

theorem resolve_append (p q : List Char) :
    resolve (p ++ '/' :: q) = Move.walk (resolve p) ((q.splitOn '/').map moveOf) := by
  rw [resolve, List.splitOn_append_cons_self, List.map_append, Move.walk_append, resolve]

theorem resolve_slash (path : List Char) : resolve ('/' :: path) = resolve path :=
  resolve_append [] path

theorem resolve_trimSlashes (path : List Char) : resolve (trimSlashes path) = resolve path := by
  induction path with
  | nil => rfl
  | cons c path ih =>
      by_cases hc : c = '/'
      · subst hc
        rw [resolve_slash, ← ih]
        rfl
      · rw [trimSlashes, List.dropWhile_cons_of_neg (by simpa using hc)]

theorem moveOf_text (name : PathName) : moveOf name.text = .enter name :=
  dif_pos ⟨name.nonempty, name.not_dot, name.not_dots, name.no_slash⟩

theorem resolve_joinNames (names : List PathName) : resolve (joinNames names) = names := by
  cases names with
  | nil => rfl
  | cons name names =>
      have hsplit : (['/'].intercalate ((name :: names).map PathName.text)).splitOn '/' =
          (name :: names).map PathName.text :=
        List.splitOn_intercalate '/' (List.forall_mem_map.mpr fun n _ => n.no_slash) (by simp)
      have hmoves : ((name :: names).map PathName.text).map moveOf =
          (name :: names).map .enter := by
        rw [List.map_map]
        exact List.map_congr_left fun n _ => moveOf_text n
      rw [resolve, joinNames, hsplit, hmoves, Move.walk_map_enter, List.nil_append]

theorem joinNames_inj {names names' : List PathName} (h : joinNames names = joinNames names') :
    names = names' := by
  rw [← resolve_joinNames names, h, resolve_joinNames]

theorem resolve_normalizePathSegments (path : List Char) :
    resolve (normalizePathSegments path).toList = resolve path := by
  rw [normalizePathSegments_eq, String.toList_ofList, resolve_joinNames]

/-- A guest path is taken to the names that its segments lead to, below the mount
point; normalising the first part of a path first changes nothing, and two paths are
taken to one file exactly if they lead to one place. -/
theorem redirectPath_confined (vfs : VirtualFileSystem) :
    (∀ guestPath : String, vfs.redirectPath guestPath =
      vfs.mountPoint ++ "/" ++ .ofList (joinNames (resolve guestPath.toList))) ∧
    (∀ p q : String, normalizePathSegments (p ++ "/" ++ q).toList =
      normalizePathSegments (normalizePathSegments p.toList ++ "/" ++ q).toList) ∧
    (∀ p : String, normalizePathSegments (normalizePathSegments p.toList).toList =
      normalizePathSegments p.toList) ∧
    ∀ p q : String, vfs.redirectPath p = vfs.redirectPath q ↔
      resolve p.toList = resolve q.toList := by
  have hredirect : ∀ guestPath : String, vfs.redirectPath guestPath =
      vfs.mountPoint ++ "/" ++ .ofList (joinNames (resolve guestPath.toList)) := by
    intro guestPath
    rw [VirtualFileSystem.redirectPath, normalForm, normalizePathSegments_eq, resolve_trimSlashes]
  have hparts : ∀ p q : String, (p ++ "/" ++ q).toList = p.toList ++ '/' :: q.toList := by
    intro p q
    simp
  refine ⟨hredirect, fun p q => ?_, fun p => ?_, fun p q => ?_⟩
  · rw [normalizePathSegments_eq, normalizePathSegments_eq (_ ++ q).toList, hparts, hparts,
      resolve_append, resolve_append, resolve_normalizePathSegments]
  · rw [normalizePathSegments_eq, resolve_normalizePathSegments, normalizePathSegments_eq]
  · rw [hredirect, hredirect]
    constructor
    · intro h
      have hlist := congrArg String.toList h
      simp only [String.toList_append, String.toList_ofList, List.append_cancel_left_eq] at hlist
      exact joinNames_inj hlist
    · intro h
      rw [h]

end SereinGateway.Sandbox

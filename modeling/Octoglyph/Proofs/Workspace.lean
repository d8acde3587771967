import Octoglyph.Command.Workspace

/-! # Files that are written

A path is followed part by part. Writing changes the one file where the path ends, and no directory
on the way, so the path still leads there afterwards and every other file is as it was.
-/

namespace Octoglyph.Workspace

variable (w : Workspace) (file : List Text) (bytes : Bytes)

/-! ## Putting a file in its place -/

/-- The entry with the new content, if it is the file's. -/
def renew (entry : List Text × Bytes) : List Text × Bytes :=
  if entry.1 == file then (file, bytes) else entry

theorem fst_renew (entry : List Text × Bytes) : (renew file bytes entry).1 = entry.1 := by
  unfold renew
  split
  next h => exact (eq_of_beq h).symm
  next => rfl

theorem put_of_mem (h : file ∈ w.files.map Prod.fst) :
    w.put file bytes = { w with files := w.files.map (renew file bytes) } := by
  have hany : (w.files.any fun entry => entry.1 == file) = true := by
    obtain ⟨entry, hentry, rfl⟩ := List.mem_map.1 h
    exact List.any_eq_true.2 ⟨entry, hentry, beq_self_eq_true _⟩
  rw [put, if_pos hany]
  rfl

theorem put_of_not_mem (h : file ∉ w.files.map Prod.fst) :
    w.put file bytes = { w with files := w.files ++ [(file, bytes)] } := by
  have hany : ¬ (w.files.any fun entry => entry.1 == file) = true := by
    intro hany
    obtain ⟨entry, hentry, hfile⟩ := List.any_eq_true.1 hany
    exact h (List.mem_map.2 ⟨entry, hentry, eq_of_beq hfile⟩)
  rw [put, if_neg hany]

theorem lookup_eq_none_iff {files : List (List Text × Bytes)} :
    files.lookup file = none ↔ file ∉ files.map Prod.fst := by
  rw [List.lookup_eq_none_iff, List.mem_map]
  grind

theorem lookup_map_renew (files : List (List Text × Bytes)) (other : List Text) :
    (files.map (renew file bytes)).lookup other =
      (files.lookup other).map fun content => if other = file then bytes else content := by
  induction files with
  | nil => rfl
  | cons entry files ih =>
    obtain ⟨key, content⟩ := entry
    have hkey : renew file bytes (key, content) = (key, if key = file then bytes else content) := by
      by_cases h : key = file <;> simp [renew, h]
    rw [List.map_cons, hkey, List.lookup_cons, List.lookup_cons, ih]
    by_cases h : other = key
    · subst h
      simp
    · simp [beq_eq_false_iff_ne.2 h]

theorem lookup_put (other : List Text) :
    (w.put file bytes).files.lookup other =
      if other = file then some bytes else w.files.lookup other := by
  by_cases hmem : file ∈ w.files.map Prod.fst
  · rw [put_of_mem w file bytes hmem, lookup_map_renew]
    by_cases h : other = file
    · subst h
      obtain ⟨content, hcontent⟩ := Option.ne_none_iff_exists'.1
        (mt (lookup_eq_none_iff other).1 (not_not_intro hmem))
      simp [hcontent]
    · simp [h]
  · rw [put_of_not_mem w file bytes hmem, List.lookup_append]
    by_cases h : other = file
    · subst h
      rw [(lookup_eq_none_iff other).2 hmem]
      simp
    · simp [h, List.lookup_cons, beq_eq_false_iff_ne.2 h]

theorem mem_keys_put {key : List Text} (h : key ∈ w.files.map Prod.fst) :
    key ∈ (w.put file bytes).files.map Prod.fst := by
  by_cases hmem : file ∈ w.files.map Prod.fst
  · have hfst : Prod.fst ∘ renew file bytes = Prod.fst := funext (fst_renew file bytes)
    rwa [put_of_mem w file bytes hmem, List.map_map, hfst]
  · rw [put_of_not_mem w file bytes hmem, List.map_append]
    exact List.mem_append_left _ h

variable {w file} {path : Path} {parts : List Text}

/-- A directory is a proper beginning of a file's path. -/
theorem isDirectory_iff :
    w.isDirectory parts = true ↔
      parts = [] ∨ ∃ key ∈ w.files.map Prod.fst, parts <+: key ∧ parts ≠ key := by
  simp [isDirectory, List.isPrefixOf_iff_prefix]

theorem isDirectory_put (h : w.isDirectory parts = true) :
    (w.put file bytes).isDirectory parts = true := by
  rw [isDirectory_iff] at h ⊢
  refine h.imp_right ?_
  rintro ⟨key, hkey, hprefix⟩
  exact ⟨key, mem_keys_put w file bytes hkey, hprefix⟩

/-! ## Following a path -/

/-- The file that can be written in a place. -/
def Place.target? : Place → Option (List Text)
  | .file parts _ | .free parts => some parts
  | _ => none

/-- A file is there, or neither a file nor a directory. -/
def Writable (w : Workspace) (file : List Text) : Prop :=
  w.files.lookup file = none → w.isDirectory file = false

/-- What has the given path. -/
def child (w : Workspace) (inner : List Text) : Place :=
  match w.files.lookup inner with
  | some bytes => .file inner bytes
  | none => if w.isDirectory inner then .directory inner else .free inner

theorem writable_of_child {inner : List Text} (h : (w.child inner).target? = some file) :
    inner = file ∧ w.Writable file := by
  unfold child at h
  split at h
  next bytes hlookup =>
    cases h
    refine ⟨rfl, fun hnone => ?_⟩
    rw [hlookup] at hnone
    cases hnone
  next hlookup =>
    split at h
    next => cases h
    next hdirectory =>
      cases h
      exact ⟨rfl, fun _ => Bool.eq_false_iff.2 hdirectory⟩

theorem child_put_self : (w.put file bytes).child file = .file file bytes := by
  rw [child, lookup_put, if_pos rfl]

/-- Directories stay what they are. -/
theorem child_put_of_directory {inner : List Text} (hfile : w.Writable file)
    (h : w.child inner = .directory parts) : (w.put file bytes).child inner = .directory parts := by
  unfold child at h
  split at h
  next => cases h
  next hlookup =>
    split at h
    next hdirectory =>
      cases h
      have hne : parts ≠ file := by
        rintro rfl
        rw [hfile hlookup] at hdirectory
        cases hdirectory
      rw [child, lookup_put, if_neg hne, hlookup]
      exact if_pos (isDirectory_put bytes hdirectory)
    next => cases h

/-- Parts of a path that do not name anything in a directory. -/
def isDots (part : Text) : Bool := part = [] || part = ['.'] || part = ['.', '.']

theorem enter_of_isDots {part : Text} (hpart : isDots part = true) (parts : List Text)
    (w w' : Workspace) :
    w.enter (.directory parts) part = w'.enter (.directory parts) part ∧
      (w.enter (.directory parts) part).target? = none := by
  simp only [isDots, Bool.or_eq_true, decide_eq_true_eq] at hpart
  rcases hpart with (rfl | rfl) | rfl
  · exact ⟨rfl, rfl⟩
  · exact ⟨rfl, rfl⟩
  · cases parts <;> exact ⟨rfl, rfl⟩

theorem enter_of_not_isDots {part : Text} (hpart : ¬ isDots part = true) (w : Workspace) :
    w.enter (.directory parts) part = w.child (parts ++ [part]) := by
  simp only [isDots, Bool.or_eq_true, decide_eq_true_eq, not_or] at hpart
  obtain ⟨⟨hempty, hdot⟩, hdots⟩ := hpart
  simp only [enter, hempty, hdot, hdots, decide_false, Bool.or_false, Bool.false_eq_true, if_false]
  rfl

theorem foldl_enter_of_fixed (w : Workspace) (place : Place)
    (h : ∀ part, w.enter place part = place) (rest : List Text) :
    rest.foldl w.enter place = place := by
  induction rest with
  | nil => rfl
  | cons part rest ih => rw [List.foldl_cons, h, ih]

/-- Behind a place that is no directory there is nothing to write. -/
theorem eq_nil_of_target? {place : Place} (hplace : ∀ d, place ≠ .directory d) {rest : List Text}
    (h : (rest.foldl w.enter place).target? = some file) : rest = [] := by
  cases rest with
  | nil => rfl
  | cons part rest =>
    rw [List.foldl_cons] at h
    cases place with
    | directory d => exact absurd rfl (hplace d)
    | file _ _ | throughFile =>
      have hstuck := foldl_enter_of_fixed w .throughFile (fun _ => rfl) rest
      cases (congrArg Place.target? hstuck).symm.trans h
    | free _ | nowhere =>
      have hstuck := foldl_enter_of_fixed w .nowhere (fun _ => rfl) rest
      cases (congrArg Place.target? hstuck).symm.trans h
    | sink =>
      have hstuck := foldl_enter_of_fixed w .sink (fun _ => rfl) rest
      cases (congrArg Place.target? hstuck).symm.trans h

/-- One part of a path, before and after a file is written: it leads to the same directory, or to
the file. -/
theorem enter_put (file : List Text) {part : Text} {place : Place}
    (h : w.enter (.directory parts) part = place) :
    (∀ d, place = .directory d → w.Writable file →
      (w.put file bytes).enter (.directory parts) part = .directory d) ∧
    (place.target? = some file → w.Writable file ∧
      (w.put file bytes).enter (.directory parts) part = .file file bytes) := by
  by_cases hpart : isDots part = true
  · obtain ⟨hsame, hnone⟩ := enter_of_isDots hpart parts w (w.put file bytes)
    rw [h] at hsame hnone
    refine ⟨fun d hd _ => hsame.symm.trans hd, fun htarget => ?_⟩
    rw [hnone] at htarget
    cases htarget
  · rw [enter_of_not_isDots hpart] at h ⊢
    subst h
    refine ⟨fun d hd hfile => child_put_of_directory bytes hfile hd, fun htarget => ?_⟩
    obtain ⟨hinner, hfile⟩ := writable_of_child htarget
    rw [hinner]
    exact ⟨hfile, child_put_self bytes⟩

/-- The path of a file that can be written leads to it when it has been written. -/
theorem foldl_enter_put {rest : List Text}
    (h : (rest.foldl w.enter (.directory parts)).target? = some file) :
    w.Writable file ∧
      rest.foldl (w.put file bytes).enter (.directory parts) = .file file bytes := by
  induction rest generalizing parts with
  | nil => cases h
  | cons part rest ih =>
    rw [List.foldl_cons] at h ⊢
    generalize hplace : w.enter (.directory parts) part = place at h
    obtain ⟨hdirectory, htarget⟩ := enter_put bytes file hplace
    by_cases hd : ∃ d, place = .directory d
    · obtain ⟨d, rfl⟩ := hd
      obtain ⟨hfile, hput⟩ := ih h
      rw [hdirectory d rfl hfile]
      exact ⟨hfile, hput⟩
    · obtain rfl := eq_nil_of_target? (fun d e => hd ⟨d, e⟩) h
      exact htarget h

theorem find_put (h : (w.find path).target? = some file) :
    (w.put file bytes).find path = .file file bytes := by
  unfold find at h ⊢
  split at h
  · cases h
  · split at h
    · cases h
    · split at h <;> cases h
  · exact (foldl_enter_put bytes h).2

/-! ## Writing -/

/-- After the bytes were written to a path, it leads to a file that holds them, and all other files
are as they were; or it leads to a device that holds nothing, and all files are. -/
inductive Written (w : Workspace) (path : Path) (bytes : Bytes) : Workspace → Prop where
  | file {w' : Workspace} {file : List Text} (hfind : w'.find path = .file file bytes)
    (hfile : w'.files.lookup file = some bytes)
    (hothers : ∀ other, other ≠ file → w'.files.lookup other = w.files.lookup other)
    (hstdin : w'.stdin = w.stdin) : Written w path bytes w'
  | device (hfind : w.find path = .sink) : Written w path bytes w

theorem stdin_put : (w.put file bytes).stdin = w.stdin := by
  unfold put
  split <;> rfl

theorem written_of_write {w' : Workspace} (h : w.write path bytes = .ok w') :
    w.Written path bytes w' := by
  have hput : ∀ file, (w.find path).target? = some file →
      w.Written path bytes (w.put file bytes) := by
    intro file htarget
    have hother : ∀ other, other ≠ file →
        (w.put file bytes).files.lookup other = w.files.lookup other := by
      intro other hne
      rw [lookup_put, if_neg hne]
    have hfile : (w.put file bytes).files.lookup file = some bytes := by
      rw [lookup_put, if_pos rfl]
    exact .file (find_put bytes htarget) hfile hother (stdin_put bytes)
  unfold write at h
  cases hplace : w.find path with
  | file file content =>
    rw [hplace] at h
    cases h
    exact hput file (by rw [hplace]; rfl)
  | free file =>
    rw [hplace] at h
    cases h
    exact hput file (by rw [hplace]; rfl)
  | sink =>
    rw [hplace] at h
    cases h
    exact .device hplace
  | directory _ | nowhere | throughFile =>
    rw [hplace] at h
    cases h

end Octoglyph.Workspace

import InferenceConfig.Folder.Tree

/-!
# Writing and Reading Files

A file that has been written is read back under its path, and nothing else about a folder
changes: no directory comes or goes, so every path leads to the same place as before. A place
that becomes a file was no directory, and it is not on the way to any other place.

## Main results

* `Folder.node?_put` — what is at the places of a changed folder;
* `Folder.walk_put_file_iff` — every path leads to the same place as before;
* `Folder.write_eq_ok_iff`, `Folder.write_eq_error_iff` — what a write that succeeds does, and
  when a write fails;
* `Folder.read_of_write` — a file that has been written is read back;
* `Folder.exists_write_of_write` — what can be written behind a write could be written
  without it.
-/

namespace InferenceConfig

namespace Folder

variable {folder changed : Folder} {location : Location} {place : Place}
  {bytes : List UInt8}

/-! ### What is at a place -/

/-- Taking away one place leaves what is at the others. -/
theorem lookup_filter_ne {nodes : List (Place × Node)} {other : Place} (h : other ≠ place) :
    (nodes.filter fun entry => entry.1 ≠ place).lookup other = nodes.lookup other := by
  induction nodes with
  | nil => rfl
  | cons entry nodes ih =>
      by_cases hentry : entry.1 = place
      · have hother : (other == entry.1) = false := by simpa [hentry] using h
        rw [List.filter_cons_of_neg (by simpa using hentry), ih, List.lookup_cons, hother]
      · rw [List.filter_cons_of_pos (by simpa using hentry), List.lookup_cons,
          List.lookup_cons, ih]

/-- A node that is put at a place is there, and at all other places is what was there. -/
theorem node?_put (hplace : place ≠ []) (node : Node) (other : Place) :
    (folder.put place node).node? other =
      if other = place then some node else folder.node? other := by
  simp only [node?, put, List.lookup_cons]
  by_cases hother : other = place
  · subst hother
    simp [hplace]
  · have hne : (other == place) = false := by simpa using hother
    rw [if_neg hother, hne, lookup_filter_ne hother]

/-- The root is a directory, so what is not a directory is below it. -/
theorem ne_nil_of_node? (h : folder.node? place ≠ some .directory) : place ≠ [] := by
  rintro rfl
  exact h rfl

/-- A file takes the place of what was no directory, so the directories stay the same. -/
theorem node?_put_file_eq_directory_iff (h : folder.node? place ≠ some .directory)
    (bytes : List UInt8) (other : Place) :
    (folder.put place (.file bytes)).node? other = some .directory ↔
      folder.node? other = some .directory := by
  rw [node?_put (ne_nil_of_node? h)]
  by_cases hother : other = place
  · subst hother
    simp [h]
  · rw [if_neg hother]

/-! ### Paths -/

/-- Where one step leads: it starts at a directory, stays, goes up, or goes down to a name that is
not too long. -/
theorem step_eq_ok_iff {part : FileName} {next : Place} :
    folder.step place part = .ok next ↔
      folder.node? place = some .directory ∧
        (if part = [] ∨ part = Location.here then next = place
          else if part = Location.above then next = place.dropLast
          else part.length ≤ 255 ∧ next = place ++ [part]) := by
  rw [step]
  split
  · next hnode => simp [hnode]
  · next hnode => simp [hnode]
  · next hnode =>
      simp only [hnode, true_and]
      split
      · simp [eq_comm]
      split
      · simp [eq_comm]
      split
      · next hlong => simp [Nat.not_le.mpr hlong]
      · next hshort => simp [Nat.not_lt.mp hshort, eq_comm]

/-- Writing a file does not change where a step leads. -/
theorem step_put_file_iff (h : folder.node? place ≠ some .directory) {start next : Place}
    {part : FileName} :
    (folder.put place (.file bytes)).step start part = .ok next ↔
      folder.step start part = .ok next := by
  rw [step_eq_ok_iff, step_eq_ok_iff, node?_put_file_eq_directory_iff h]

/-- A path is followed by its first part, and from there by the others. -/
theorem walk_cons_eq_ok_iff {start last : Place} {part : FileName} {parts : List FileName} :
    folder.walk start (part :: parts) = .ok last ↔
      ∃ next, folder.step start part = .ok next ∧ folder.walk next parts = .ok last := by
  rw [walk]
  cases folder.step start part <;> simp

/-- Writing a file does not change where a path leads. Induction on the parts of the path. -/
theorem walk_put_file_iff (h : folder.node? place ≠ some .directory) {start last : Place}
    {parts : List FileName} :
    (folder.put place (.file bytes)).walk start parts = .ok last ↔
      folder.walk start parts = .ok last := by
  induction parts generalizing start with
  | nil => rfl
  | cons part parts ih =>
      rw [walk_cons_eq_ok_iff, walk_cons_eq_ok_iff]
      exact exists_congr fun next => and_congr (step_put_file_iff h) ih

/-- A path is followed by its last part after all others. -/
theorem walk_append_singleton {start last : Place} {parts : List FileName} {part : FileName}
    (hparts : folder.walk start parts = .ok place) (hpart : folder.step place part = .ok last) :
    folder.walk start (parts ++ [part]) = .ok last := by
  induction parts generalizing start with
  | nil =>
      obtain rfl := Except.ok.inj hparts
      exact walk_cons_eq_ok_iff.mpr ⟨last, hpart, rfl⟩
  | cons first parts ih =>
      obtain ⟨next, hnext, hparts⟩ := walk_cons_eq_ok_iff.mp hparts
      exact walk_cons_eq_ok_iff.mpr ⟨next, hnext, ih hparts⟩

/-! ### Files -/

/-- The place that a file is written to: the path leads there, and its last part is a name. -/
theorem target_eq_ok_iff :
    folder.target location = .ok place ↔
      flaw? location = none ∧ ∃ parts part directory, location.parts = parts ++ [part] ∧
        part ≠ [] ∧ part ≠ Location.here ∧ part ≠ Location.above ∧
        folder.walk [] parts = .ok directory ∧ folder.step directory part = .ok place := by
  cases hflaw : flaw? location with
  | some e => simp [target, hflaw]
  | none =>
      simp only [target, hflaw, true_and]
      constructor
      · intro h
        split at h
        · simp at h
        · next part before hdrop =>
            split at h
            · simp at h
            · next directory hwalk =>
                split at h
                · split at h <;> simp at h
                · next hname =>
                    simp only [not_or] at hname
                    obtain ⟨hhere, habove, hlast⟩ := hname
                    -- The last part is a name, so nothing was dropped in front of it.
                    have hreversed : location.parts.reverse = part :: before := by
                      cases hparts : location.parts.reverse with
                      | nil => simp [hparts] at hdrop
                      | cons last others =>
                          have hne : last ≠ [] := by simpa [hparts] using hlast
                          rwa [hparts, List.dropWhile_cons_of_neg (by simpa using hne)] at hdrop
                    refine ⟨before.reverse, part, directory, ?_, ?_, hhere, habove, hwalk, h⟩
                    · rw [← List.reverse_cons, ← hreversed, List.reverse_reverse]
                    · simpa [hreversed] using hlast
      · rintro ⟨parts, part, directory, hparts, hne, hhere, habove, hwalk, hstep⟩
        have hreversed : location.parts.reverse = part :: parts.reverse := by
          rw [hparts, List.reverse_append, List.reverse_singleton, List.singleton_append]
        have hdrop : (part :: parts.reverse).dropWhile (fun part => part = []) =
            part :: parts.reverse :=
          List.dropWhile_cons_of_neg (by simpa using hne)
        simp only [hreversed, hdrop, List.reverse_reverse, hwalk, List.head?_cons]
        rw [if_neg (by simp [hhere, habove, hne]), hstep]

/-- A file is written exactly if its path denotes a place that is no directory. -/
theorem write_eq_ok_iff :
    folder.write location bytes = .ok changed ↔
      ∃ place, folder.target location = .ok place ∧ folder.node? place ≠ some .directory ∧
        folder.put place (.file bytes) = changed := by
  rw [write]
  cases htarget : folder.target location with
  | error e => simp
  | ok place =>
      simp only [Except.ok.injEq, exists_eq_left']
      split
      · next hnode => simp [hnode]
      · next hnode => rw [Except.ok.injEq, and_iff_right hnode]

/-- Whether a file can be written, and why not, does not depend on its bytes. -/
theorem write_eq_error_iff {e : IoError} :
    folder.write location bytes = .error e ↔
      folder.target location = .error e ∨
        ∃ place, folder.target location = .ok place ∧ folder.node? place = some .directory ∧
          .isDirectory = e := by
  rw [write]
  cases htarget : folder.target location with
  | error e' => simp
  | ok place =>
      simp only [Except.ok.injEq, exists_eq_left', reduceCtorEq, false_or]
      split
      · next hnode => simp [hnode]
      · next hnode => simp [show folder.node? place ≠ some .directory from hnode]

/-- Writing a file does not change where another file is written to. -/
theorem target_put_file_iff (h : folder.node? place ≠ some .directory) {other : Place} :
    (folder.put place (.file bytes)).target location = .ok other ↔
      folder.target location = .ok other := by
  simp only [target_eq_ok_iff, walk_put_file_iff h, step_put_file_iff h]

/-- A file that has been written is read back under the same path. -/
theorem read_of_write (h : folder.write location bytes = .ok changed) :
    changed.read location = .ok bytes := by
  obtain ⟨place, htarget, hnode, rfl⟩ := write_eq_ok_iff.mp h
  obtain ⟨hflaw, parts, part, directory, hparts, -, -, -, hwalk, hstep⟩ :=
    target_eq_ok_iff.mp htarget
  have hplace : (folder.put place (.file bytes)).walk [] location.parts = .ok place := by
    rw [hparts]
    exact (walk_put_file_iff hnode).mpr (walk_append_singleton hwalk hstep)
  have hfile : (folder.put place (.file bytes)).node? place = some (.file bytes) := by
    rw [node?_put (ne_nil_of_node? hnode), if_pos rfl]
  simp only [read, hflaw, hplace, hfile]

/-- What can be written behind another write can be written without it. -/
theorem exists_write_of_write {later : Folder} {other : Location} {others : List UInt8}
    (h : folder.write location bytes = .ok changed)
    (hlater : changed.write other others = .ok later) :
    ∃ direct, folder.write other others = .ok direct := by
  obtain ⟨place, -, hnode, rfl⟩ := write_eq_ok_iff.mp h
  obtain ⟨target, htarget, htargetNode, -⟩ := write_eq_ok_iff.mp hlater
  have hdirect : folder.node? target ≠ some .directory :=
    mt (node?_put_file_eq_directory_iff hnode bytes target).mpr htargetNode
  exact ⟨_, write_eq_ok_iff.mpr ⟨target, (target_put_file_iff hnode).mp htarget, hdirect, rfl⟩⟩

end Folder

end InferenceConfig

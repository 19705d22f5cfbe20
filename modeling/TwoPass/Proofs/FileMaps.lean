import TwoPass.Files
import TwoPass.Proofs.Result

/-!
Maps of files: where paths lead, and what is there. Of a host no more is asked than that one write
takes the place of a whole file or fails without effect. A tree of files without devices is such a
host, whatever it forbids to read and to write.
-/

namespace TwoPass

variable {State Location : Type}

structure FileMap (State Location : Type) where
  leads? : State → String → Option Location
  content? : State → Location → Option ByteArray

namespace FileMap

structure Unchanged (map : FileMap State Location) (before after : State) : Prop where
  leads : ∀ path, map.leads? after path = map.leads? before path
  content : ∀ location, map.content? after location = map.content? before location

/-- The text is all that is at the path now, and nothing else has changed. -/
structure Replaced (map : FileMap State Location) (before : State) (path text : String)
    (after : State) : Prop where
  leads : ∀ other, map.leads? after other = map.leads? before other
  content : ∃ location, map.leads? before path = some location ∧
    map.content? after location = some text.toUTF8 ∧
    ∀ other, other ≠ location → map.content? after other = map.content? before other

theorem unchanged_refl (map : FileMap State Location) (files : State) :
    map.Unchanged files files :=
  ⟨fun _ => rfl, fun _ => rfl⟩

end FileMap

/-- One write takes the place of the whole file at its path, or fails without effect. -/
structure Host.WritesWhole (host : Host State) (map : FileMap State Location) (files : State) :
    Prop where
  replaces : ∀ path text echo after, host.write files path text = (.ok echo, after) →
    map.Replaced files path text after
  fails : ∀ path text cause after, host.write files path text = (.error cause, after) →
    map.Unchanged files after

namespace Files

def map : FileMap Files Place where
  leads? files path := (files.locate path (names path)).toOption
  content? files place :=
    match files.get? place with
    | some (.file bytes) => some bytes
    | _ => none

theorem mem_entries_of_get? {files : Files} {place : Place} {entry : FileEntry}
    (found : files.get? place = some entry) : (place, entry) ∈ files.entries := by
  obtain ⟨earlier, later, same, _⟩ := List.lookup_eq_some_iff.mp found
  simp [same]

def enter (place : Place) (name : String) : Except FileError Place :=
  if name = "" ∨ name = "." then .ok place
  else if name = ".." then .ok place.dropLast
  else if nameMax < name.utf8ByteSize then .error .nameTooLong
  else .ok (place ++ [name])

theorem follow_cons_of_directory {files : Files} {start : Place}
    (directory : files.get? start = some .directory) (name : String) (rest : List String) :
    files.follow start (name :: rest) =
      enter start name >>= fun next => files.follow next rest := by
  simp only [follow, directory, enter]
  by_cases stays : name = "" ∨ name = "."
  · rw [if_pos stays, if_pos stays]
    rfl
  · by_cases up : name = ".."
    · rw [if_neg stays, if_neg stays, if_pos up, if_pos up]
      rfl
    · by_cases long : nameMax < name.utf8ByteSize
      · simp only [if_neg stays, if_neg up, if_pos long]
        rfl
      · simp only [if_neg stays, if_neg up, if_neg long]
        rfl

theorem follow_cons_of_not_directory {files : Files} {start : Place}
    (noDirectory : files.get? start ≠ some .directory) (name : String) (rest : List String) :
    (files.follow start (name :: rest)).toOption = none := by
  unfold follow
  split
  · rfl
  · contradiction
  · rfl

theorem follow_cons_eq_ok {files : Files} {start place : Place} {name : String}
    {rest : List String} (leads : files.follow start (name :: rest) = .ok place) :
    files.get? start = some .directory ∧
      ∃ next, enter start name = .ok next ∧ files.follow next rest = .ok place := by
  by_cases directory : files.get? start = some .directory
  · rw [follow_cons_of_directory directory] at leads
    exact ⟨directory, Result.exists_of_bind_eq_ok leads⟩
  · have nowhere := follow_cons_of_not_directory directory name rest
    simp [leads, Except.toOption] at nowhere

theorem directory_of_follow_dot {files : Files} {start place : Place} {names : List String}
    (leads : files.follow start (names ++ ["."]) = .ok place) :
    files.get? place = some .directory := by
  induction names generalizing start with
  | nil =>
      obtain ⟨directory, next, entered, ended⟩ := follow_cons_eq_ok leads
      have stays : start = next := Except.ok.inj entered
      have last : next = place := Except.ok.inj ended
      rw [← last, ← stays]
      exact directory
  | cons name rest ih =>
      obtain ⟨_, next, _, ended⟩ := follow_cons_eq_ok leads
      exact ih ended

section

variable {before after : Files}
  (same : ∀ place, after.get? place = some .directory ↔ before.get? place = some .directory)

include same

theorem follow_congr (start : Place) (names : List String) :
    (after.follow start names).toOption = (before.follow start names).toOption := by
  induction names generalizing start with
  | nil => rfl
  | cons name rest ih =>
      by_cases directory : before.get? start = some .directory
      · rw [follow_cons_of_directory directory,
          follow_cons_of_directory ((same start).mpr directory)]
        cases enter start name with
        | error error => rfl
        | ok next => exact ih next
      · rw [follow_cons_of_not_directory directory,
          follow_cons_of_not_directory fun other => directory ((same start).mp other)]

theorem leads?_congr (stays : after.workingDirectory = before.workingDirectory) (path : String) :
    map.leads? after path = map.leads? before path := by
  simp only [map, locate, stays]
  split
  · rfl
  · split
    · rfl
    · split
      · exact follow_congr same _ _
      · exact follow_congr same _ _

end

theorem names_of_locate_writeNames {files : Files} {path : String} {place : Place}
    (leads : files.locate path (writeNames path) = .ok place)
    (noDirectory : files.get? place ≠ some .directory) : writeNames path = names path := by
  -- with a slash at the end the names to write to end in `.`, which only a directory has
  by_cases slash : (names path).getLast? = some ""
  · simp only [writeNames, if_pos slash] at leads
    have directory : files.get? place = some .directory := by
      unfold locate at leads
      split at leads
      · simp at leads
      · split at leads
        · simp at leads
        · split at leads <;> exact directory_of_follow_dot leads
    exact absurd directory noDirectory
  · simp only [writeNames, if_neg slash]

theorem replaced_insert {files : Files} {path : String} {place : Place}
    (leads : files.locate path (writeNames path) = .ok place)
    (noDirectory : files.get? place ≠ some .directory) (text : String) :
    map.Replaced files path text (files.insert place (.file text.toUTF8)) where
  leads := by
    apply leads?_congr
    · intro other
      rw [get?_insert]
      by_cases here : other = place
      · simp [here, noDirectory]
      · rw [if_neg here]
    · rfl
  content := by
    refine ⟨place, ?_, ?_, fun other different => ?_⟩
    · rw [names_of_locate_writeNames leads noDirectory] at leads
      simp [map, leads, Except.toOption]
    · simp [map, get?_insert]
    · simp [map, get?_insert, different]

theorem write_eq_ok {files after : Files} {path text : String} {echo : Echo}
    (noDevice : ∀ place device, files.get? place ≠ some (.device device))
    (success : files.write path text = (.ok echo, after)) :
    ∃ place, files.locate path (writeNames path) = .ok place ∧
      files.get? place ≠ some .directory ∧ after = files.insert place (.file text.toUTF8) := by
  unfold write at success
  split at success
  · simp at success
  · rename_i place leads
    refine ⟨place, leads, ?_⟩
    split at success
    · simp at success
    · rename_i noDirectory
      refine ⟨noDirectory, ?_⟩
      split at success
      · simp at success
      · split at success
        any_goals exact absurd ‹_› (noDevice place _)
        exact (Prod.mk.inj success).2.symm

theorem write_eq_error {files after : Files} {path text : String} {cause : FileError}
    (failed : files.write path text = (.error cause, after)) : after = files := by
  unfold write at failed
  split at failed
  · exact (Prod.mk.inj failed).2.symm
  · split at failed
    · exact (Prod.mk.inj failed).2.symm
    · split at failed
      · exact (Prod.mk.inj failed).2.symm
      · split at failed <;> simp_all

theorem writesWhole {files : Files}
    (noDevice : ∀ place device, files.get? place ≠ some (.device device))
    (explain : String → String) : (host explain).WritesWhole map files where
  replaces path text echo after success := by
    obtain ⟨place, leads, noDirectory, rfl⟩ := write_eq_ok noDevice success
    exact replaced_insert leads noDirectory text
  fails path text cause after failed := by
    rw [write_eq_error failed]
    exact map.unchanged_refl files

end Files

end TwoPass

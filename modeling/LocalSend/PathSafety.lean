import LocalSend.ForStd.FileSystem

/-!
# Paths, and names from the wire

Model of `src/path_safety.rs`, with the part of `std::path` it rests on, on Unix: a
separator is a slash, empty components and `.` components after the first are skipped.
-/

namespace LocalSend

/-- A path as its components below the root it is relative to. -/
structure PathBuf where
  components : List String
deriving DecidableEq, Repr

namespace PathBuf

/-- `Path::file_name`: the last component, unless it is `..`. -/
def fileName (p : PathBuf) : Option String :=
  p.components.getLast?.filter fun leaf => leaf ≠ ".."

/-- `Path::parent`, where there is a component to remove. -/
def parent (p : PathBuf) : PathBuf := ⟨p.components.dropLast⟩

/-- `Path::join` with a relative path. -/
def join (p : PathBuf) (relative : List String) : PathBuf := ⟨p.components ++ relative⟩

/-- `Path::strip_prefix`, as the components left. -/
def stripPrefix (p base : PathBuf) : Option (List String) :=
  if base.components.isPrefixOf p.components then some (p.components.drop base.components.length)
  else none

instance : ParentPath PathBuf := ⟨parent⟩

end PathBuf

/-- `std::path::Component`, without the Windows prefixes. -/
inductive Component where
  | rootDir
  | curDir
  | parentDir
  | normal (name : String)
deriving DecidableEq, Repr

/-- One component from the text between two separators. -/
def Component.ofSegment (segment : String) : Option Component :=
  if segment = "" ∨ segment = "." then none
  else if segment = ".." then some .parentDir
  else some (.normal segment)

/-- `Path::new(name).components()`. -/
def components (name : String) : List Component :=
  let segments := (name.toList.splitOn '/').map String.ofList
  let front : List Component :=
    match segments with
    | "" :: _ :: _ => [.rootDir]
    | "." :: _ => [.curDir]
    | _ => []
  front ++ segments.filterMap Component.ofSegment

/-- The loop of `safe_join` over the components of the remote name. -/
def relativeOf : List Component → Option (List String)
  | [] => some []
  | .normal part :: rest => (relativeOf rest).map (part :: ·)
  | .curDir :: rest => relativeOf rest
  | .parentDir :: _ | .rootDir :: _ => none

/-- The text of `LocalSendError::invalid_file`. -/
def invalidFile (message : String) : String := "Invalid file metadata: " ++ message

/-- `safe_join`. -/
def safeJoin (base : PathBuf) (remoteName : String) : Except String PathBuf :=
  if remoteName = "" ∨ remoteName.toList.any (fun c => c = '\x00' || c = '\\' || c = ':') then
    .error (invalidFile ("Unsafe remote file name: " ++ remoteName))
  else if remoteName.toList.head? = some '/' then
    .error (invalidFile ("Unsafe absolute remote file name: " ++ remoteName))
  else
    match relativeOf (components remoteName) with
    | none => .error (invalidFile ("Unsafe remote file name: " ++ remoteName))
    | some [] => .error (invalidFile ("Unsafe empty remote file name: " ++ remoteName))
    | some relative => .ok (base.join relative)

end LocalSend

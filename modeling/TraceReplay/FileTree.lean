/-
**A directory of files.**

Traces, configurations and group files are read from a directory that does not change while it is
read.  A path is followed step by step, so a failure says what stands in the way: nothing, or a file
where a directory is needed; a directory has no text, and bytes that are no UTF-8 are none either.

Main definitions:

* `FileEntry`, `FileTree` — files and directories by path;
* `FileTree.read` — the text of a file, or why there is none;
* `FilePath.extension?` — the extension of the last name in a path.
-/

import TraceReplay.Error

set_option relaxedAutoImplicit false
set_option autoImplicit false

namespace TraceReplay

/-- A file with its bytes, or a directory. -/
inductive FileEntry where
  | directory
  | file (bytes : ByteArray)

/-- Files and directories, each under the names that lead to it. -/
structure FileTree where
  entries : List (List String × FileEntry)

namespace FilePath

/-- The names in a path; repeated slashes count once. -/
def names (path : String) : List String := (path.splitOn "/").filter (· ≠ "")

/-- The name of the file that a path leads to, if its last step is a name. -/
def fileName? (path : String) : Option String :=
  match ((names path).filter (· ≠ ".")).getLast? with
  | some ".." => none
  | last => last

/-- What stands behind the last point of a file's name; a point in front of the name does not count. -/
def extension? (path : String) : Option String :=
  (fileName? path).bind fun name =>
    let behind := name.toList.reverse.takeWhile (· ≠ '.')
    match name.toList.reverse.drop behind.length with
    | '.' :: _ :: _ => some (String.ofList behind.reverse)
    | _ => none

end FilePath

namespace FileTree

/-- What stands under a list of names.  The directories on the way to an entry exist. -/
def entry? (t : FileTree) (names : List String) : Option FileEntry :=
  match t.entries.lookup names with
  | some e => some e
  | none =>
      if names.isEmpty || t.entries.any (fun e => names.isPrefixOf e.1) then some .directory
      else none

/-- Follows names from a directory; `wanted` says that a directory is wanted at the end.  Above the
tree are directories of which nothing else is known. -/
def follow (t : FileTree) (wanted : Bool) : List String → List String → Except FileFailure FileEntry
  | _, [] => .ok .directory
  | here, "." :: rest => follow t wanted here rest
  | [], ".." :: rest =>
      if rest.all fun name => name = "." || name = ".." then .ok .directory else .error .missing
  | here, ".." :: rest => follow t wanted here.dropLast rest
  | here, name :: rest =>
      match t.entry? (here ++ [name]) with
      | none => .error .missing
      | some .directory => follow t wanted (here ++ [name]) rest
      | some (.file bytes) =>
          if rest.isEmpty && !wanted then .ok (.file bytes) else .error .notDirectory

/-- The text of the file at a path.  Nothing is known outside the directory. -/
def read (t : FileTree) (path : String) : Except FileFailure String :=
  if path = "" then .error .missing
  else if path.startsWith "/" && !(FilePath.names path).isEmpty then .error .missing
  else
    match t.follow (path.endsWith "/") [] (FilePath.names path) with
    | .error e => .error e
    | .ok .directory => .error .isDirectory
    | .ok (.file bytes) =>
        match String.fromUTF8? bytes with
        | some text => .ok text
        | none => .error .notText

end FileTree

end TraceReplay

/-
# Directories

A directory with the files below it, as far as names and contents matter, and
how a relative path is followed in it. A path is followed name by name from the
directory itself, and each fault belongs to the name at which it is met: only a
directory can be looked into, and only names of at most 255 bytes can be looked
up. What lies outside the directory is not known to hold anything.
-/

import Clausal.Text.ByteStream

namespace Clausal

/-- What a name stands for. -/
inductive Entry where
  | file (bytes : List UInt8)
  | directory
deriving DecidableEq

/-- Files and directories by the names that lead to them. The directories on
the way to a listed entry exist without being listed. -/
structure Directory where
  entries : List (List String × Entry)

namespace Directory

/-- The names of a path between its slashes. -/
def components (path : String) : List String :=
  (path.toList.splitOn '/').map String.ofList

/-- A directory from paths written with slashes. -/
def ofListing (listing : List (String × Entry)) : Directory where
  entries := listing.map fun (path, entry) =>
    ((components path).filter fun name => name != "" && name != ".", entry)

/-- How many bytes a name may have. -/
def nameLimit : Nat := 255

/-- A path must have fewer bytes than this. -/
def pathLimit : Nat := 4096

/-- Where following a path has led. -/
inductive Place where
  | file (bytes : List UInt8)
  | directory (path : List String)
  /-- A directory that this one does not contain. -/
  | outside
deriving DecidableEq

/-- What the names of a path, all of them below the directory, stand for. -/
def lookup? (dir : Directory) (path : List String) : Option Place :=
  match dir.entries.lookup path with
  | some (.file bytes) => some (.file bytes)
  | some .directory => some (.directory path)
  | none =>
      if dir.entries.any fun (listed, _) => path.isPrefixOf listed then some (.directory path)
      else none

/-- Follow one name. An empty name, as between two slashes, and a dot stay where
they are, but only in a directory. -/
def follow (dir : Directory) (place : Place) (name : String) : Except ReadError Place :=
  match place with
  | .file _ => .error .notDirectory
  | .outside =>
      if name = "" ∨ name = "." ∨ name = ".." then .ok .outside
      else if nameLimit < name.utf8ByteSize then .error .nameTooLong
      else .error .missing
  | .directory path =>
      if name = "" ∨ name = "." then .ok place
      else if name = ".." then .ok (if path.isEmpty then .outside else .directory path.dropLast)
      else if nameLimit < name.utf8ByteSize then .error .nameTooLong
      else match dir.lookup? (path ++ [name]) with
        | some next => .ok next
        | none => .error .missing

/-- Where a path leads. One that starts with a slash starts outside. -/
def resolve (dir : Directory) (path : String) : Except ReadError Place :=
  if path.toList.contains '\x00' then .error .nulInName
  else if path.isEmpty then .error .missing
  else if pathLimit ≤ path.utf8ByteSize then .error .nameTooLong
  else (components path).foldlM dir.follow
    (if path.toList.head? = some '/' then .outside else .directory [])

/-- The bytes of the file that a path leads to. -/
def read (dir : Directory) (path : String) : ByteStream :=
  match dir.resolve path with
  | .ok (.file bytes) => ⟨bytes, none⟩
  | .ok _ => .failed .isDirectory
  | .error cause => .failed cause

end Directory

end Clausal

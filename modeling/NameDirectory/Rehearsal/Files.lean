import NameDirectory.Fault
import NameDirectory.Text.Split

/-!
# Files in memory

Folders and files, to run a program that reads files by a script, without a disk.  A
path is walked part by part: an empty part and a dot stay where they are, two dots go
to the folder around, and nothing lies beneath a file.  A path that starts with a
slash starts at the top, any other where the program runs.  No part of the program is
built on them.
-/

namespace NameDirectory

/-- Folders and files at their places; a place is the parts of its path from the top. -/
structure Files where
  /-- The folders, and with them those around them. -/
  folders : List (List String) := []
  files : List (List String × Bytes) := []
  here : List String := []

namespace Files

def content? (w : Files) (place : List String) : Option Bytes :=
  (w.files.find? (·.1 = place)).map (·.2)

/-- Whether a folder is at a place: it is listed, or the program runs there, or one of those or
a file is in it. -/
def isFolder (w : Files) (place : List String) : Bool :=
  (w.here :: w.folders).any (place.isPrefixOf ·)
    || w.files.any fun (file, _) => place.isPrefixOf file && place ≠ file

def contains (w : Files) (place : List String) : Bool :=
  w.isFolder place || (w.content? place).isSome

def step (w : Files) (place : List String) (part : String) : Except StreamFault (List String) :=
  if !w.isFolder place then .error .notFolder
  else if part = "" ∨ part = "." then .ok place
  else if part = ".." then .ok place.dropLast
  else if 255 < part.utf8ByteSize then .error .nameTooLong
  else if w.contains (place ++ [part]) then .ok (place ++ [part])
  else .error .missingFile

def find (w : Files) (path : String) : Except StreamFault (List String) :=
  let start := if path.toList.head? = some '/' then [] else w.here
  if '\x00' ∈ path.toList then .error .nulInName
  else if path = "" then .error .missingFile
  else if 4095 < path.utf8ByteSize then .error .nameTooLong
  else (Text.splitOn '/' path).foldlM w.step start

def read (w : Files) (path : String) : Except StreamFault Bytes := do
  match w.content? (← w.find path) with
  | some content => .ok content
  | none => .error .isFolder

end Files

end NameDirectory

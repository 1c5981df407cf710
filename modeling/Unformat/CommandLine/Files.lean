import Unformat.CommandLine.Run

/-!
# Finding the input

The input is the standard input, or a file of the file tree at hand. A path is a directory when it
is the root, the working directory or lies above one of these or above a file.
-/

namespace Unformat.CommandLine

/-- A file tree: the working directory and the files with their contents. -/
structure FileTree where
  workingDirectory : PathName
  files : List (PathName × Source)
  deriving Repr, DecidableEq

namespace FileTree

def isDirectory (tree : FileTree) (path : PathName) : Bool :=
  (path.root != 0 && path.components.isEmpty) || path == tree.workingDirectory ||
    PathName.isBelow path tree.workingDirectory || tree.files.any fun file =>
      PathName.isBelow path file.1

/-- What stands at a path. -/
def find (tree : FileTree) (path : PathName) : InputFile :=
  match tree.files.lookup path with
  | some source => .found source
  | none => if tree.isDirectory path then .directory path.text else .missing path.text

end FileTree

/-- The path that the settings name for the input; none for the standard input. -/
def Settings.inputPath? (settings : Settings) : Option PathName :=
  match settings.input with
  | none => none
  | some text => if text = "-" then none else some (PathName.parse text.toList)

/-- The input that the settings name. -/
def Settings.inputFile (settings : Settings) (tree : FileTree) (standardInput : Source) :
    InputFile :=
  match settings.inputPath? with
  | none => .found standardInput
  | some path => tree.find (tree.workingDirectory.resolve path)

end Unformat.CommandLine

/-!
# File trees

Files with their contents, in directories.  A path is read from the directory that the tree stands
for.

## Main definitions

* `FileTree`: a file or a directory
* `FileTree.put`: the tree with a file or directory at a path
* `FileTree.read?`: the contents of the file at a path
* `FileTree.scripts?`: the scripts under a directory, in the order of their paths
-/

namespace EcmaEval

/-- A file or a directory. -/
inductive FileTree where
  | file (contents : String)
  | directory (entries : List (String × FileTree))

namespace FileTree

/-- The directory without entries. -/
def empty : FileTree := .directory []

instance : Inhabited FileTree := ⟨.empty⟩

/-- The parts of a path. -/
def components (path : String) : List String := path.splitOn "/"

/-- The part of a path leaves the directory that was reached. -/
def isHere (name : String) : Bool := name = "" || name = "."

/-- Entries with the one of a name changed, or added at the end. -/
def changeEntry (name : String) (change : Option FileTree → FileTree) :
    List (String × FileTree) → List (String × FileTree)
  | [] => [(name, change none)]
  | entry :: rest =>
    if entry.1 = name then (name, change (some entry.2)) :: rest
    else entry :: changeEntry name change rest

/-- What is found at a place after something was put at a path behind it.  Directories on the way
are made; a file does not become a directory, nor a directory a file. -/
def put (added : FileTree) : (path : List String) → Option FileTree → FileTree
  | [], none => added
  | [], some (file contents) =>
    match added with
    | file _ => added
    | directory _ => file contents
  | [], some (directory entries) => directory entries
  | name :: rest, there =>
    if isHere name then put added rest there
    else
      match there with
      | none => directory [(name, put added rest none)]
      | some (file contents) => file contents
      | some (directory entries) => directory (changeEntry name (put added rest) entries)

/-- The tree of some files; a path without contents is that of a directory. -/
def ofFiles (files : List (String × Option String)) : FileTree :=
  files.foldl (fun tree (path, contents) =>
    put ((contents.map file).getD empty) (components path) (some tree)) empty

/-- The directory or file behind a path.  `outer` holds the directories around `tree`, innermost
first. -/
def follow (outer : List FileTree) (tree : FileTree) : (path : List String) → Option FileTree
  | [] => some tree
  | name :: rest =>
    match tree with
    | file _ => none
    | directory entries =>
      if isHere name then follow outer tree rest
      -- The way up is the way that was taken down.
      else if name = ".." then
        match outer with
        | [] => none
        | around :: outer => follow outer around rest
      else
        match entries.lookup name with
        | some inner => follow (tree :: outer) inner rest
        | none => none

/-- The directory or file behind a path, if there is one. -/
def find? (tree : FileTree) (path : String) : Option FileTree :=
  if path.isEmpty then none else follow [] tree (components path)

/-- The contents of the file behind a path. -/
def read? (tree : FileTree) (path : String) : Option String :=
  match tree.find? path with
  | some (file contents) => some contents
  | _ => none

/-- The tree after a file was written.  Nothing is written where there is no directory for it. -/
def write (tree : FileTree) (path contents : String) : FileTree :=
  match follow [] tree (components path).dropLast with
  | some (directory _) => put (file contents) (components path) (some tree)
  | _ => tree

/-- A name behind a path. -/
def join (path name : String) : String :=
  if path.endsWith "/" then path ++ name else path ++ "/" ++ name

/-- The name is that of a script: it ends in `.js`, behind something else. -/
def isScriptName (name : String) : Bool := name.endsWith ".js" && name ≠ ".js"

/-- The names of a directory in order, each with what was found behind it. -/
def inOrder {α : Type} (found : List (String × α)) : List (String × α) :=
  found.mergeSort fun a b => !decide (b.1 < a.1)

mutual

/-- The paths of the scripts in a tree, with their contents.  The tree is found at `path`, under
`name`. -/
def scriptsWithin (path name : String) : FileTree → List (String × String)
  | file contents => if isScriptName name then [(path, contents)] else []
  | directory entries => (inOrder (scriptsOfEntries path entries)).flatMap Prod.snd

/-- The scripts behind each name of a directory. -/
def scriptsOfEntries (path : String) :
    List (String × FileTree) → List (String × List (String × String))
  | [] => []
  | (name, tree) :: rest =>
    (name, scriptsWithin (join path name) name tree) :: scriptsOfEntries path rest

end

/-- The paths of the scripts in the directory behind a path, with their contents, in the order of
the names on the way. -/
def scripts? (tree : FileTree) (path : String) : Option (List (String × String)) :=
  match tree.find? path with
  | some (directory entries) => some (scriptsWithin path "" (directory entries))
  | _ => none

end FileTree

end EcmaEval

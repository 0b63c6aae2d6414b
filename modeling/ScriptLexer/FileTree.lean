import ScriptLexer.Text.Split

/-!
A tree of files, and finding a file in it by its path. Lookup walks the path one
name at a time and goes on only from a directory, so a file used as a directory
is refused even where the next name would lead back. The tree knows what lies
below its root and nothing above it.
-/

namespace ScriptLexer

inductive ReadError where
  | missing
  | notADirectory
  | isADirectory
  | nameTooLong
  | nulInName
  | other (cause : String)
  deriving DecidableEq

/-- What the system says of a read that fails; a missing file has no such text,
for it is a failure of its own. -/
def ReadError.cause : ReadError → String
  | missing => "No such file or directory (os error 2)"
  | notADirectory => "Not a directory (os error 20)"
  | isADirectory => "Is a directory (os error 21)"
  | nameTooLong => "File name too long (os error 36)"
  | nulInName => "file name contained an unexpected NUL byte"
  | other cause => cause

inductive FileTree.Entry where
  | file (bytes : List UInt8)
  | directory
  deriving DecidableEq

/-- The entries by their names from the root down, the latest first. The
directories above an entry are there without entries of their own. -/
structure FileTree where
  entries : List (List String × FileTree.Entry)
  deriving DecidableEq

namespace FileTree

def empty : FileTree := ⟨[]⟩

def names (path : String) : List String :=
  (Text.pieces '/' path.toList).map String.ofList

def insert (tree : FileTree) (path : String) (entry : Entry) : FileTree :=
  ⟨((names path).filter fun name => name != "" && name != ".", entry) :: tree.entries⟩

/-- What the names lead to, without `.` and `..` among them. -/
def find? (tree : FileTree) (names : List String) : Option Entry :=
  if names.isEmpty then some .directory
  else match tree.entries.lookup names with
    | some entry => some entry
    | none =>
      if tree.entries.any fun (other, _) => names.isPrefixOf other then some .directory
      else none

/-- Where a walk stands: at names below the root, or somewhere above the root. -/
inductive Position where
  | below (names : List String)
  | above
  deriving DecidableEq

def entryAt? (tree : FileTree) : Position → Option Entry
  | .below names => tree.find? names
  | .above => some .directory

/-- The longest name that a directory can hold, in bytes. -/
def longestName : Nat := 255

def longestPath : Nat := 4095

def step (tree : FileTree) (position : Position) (name : String) :
    Except ReadError Position :=
  if tree.entryAt? position ≠ some .directory then .error .notADirectory
  else if name = "" ∨ name = "." then .ok position
  else if name = ".." then
    match position with
    | .below [] => .ok .above
    | .below (first :: others) => .ok (.below (first :: others).dropLast)
    | .above => .ok .above
  else if longestName < Text.byteLength name.toList then .error .nameTooLong
  else
    match position with
    | .below names =>
      let next := Position.below (names ++ [name])
      if (tree.entryAt? next).isSome then .ok next else .error .missing
    | .above => .error .missing

def read (tree : FileTree) (path : String) : Except ReadError (List UInt8) := do
  if path.toList.contains '\x00' then throw .nulInName
  if path = "" then throw .missing
  if longestPath < Text.byteLength path.toList then throw .nameTooLong
  let start := if path.toList.head? = some '/' then Position.above else .below []
  let position ← (names path).foldlM tree.step start
  match tree.entryAt? position with
  | some (.file bytes) => return bytes
  | some .directory => throw .isADirectory
  | none => throw .missing

end FileTree

end ScriptLexer

/-
What became of one file.
-/
import Codemod.Rule.Chain

namespace Codemod

structure FileRecord where
  path : Path
  original : String
  content : String
  hits : HitCounts
  failures : List RuleFailure
  /-- Whether the new content is on the disk. -/
  written : Bool := false
  deriving DecidableEq, Repr

namespace FileRecord

def isModified (r : FileRecord) : Bool := r.original != r.content

def totalHits (r : FileRecord) : Nat := r.hits.total

end FileRecord

end Codemod

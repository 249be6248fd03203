import MeteredScript.Interner
import MeteredScript.Text.Search

/-!
Paths of native types: the segments of a dotted name, as names of one table. A dotted name with an
empty segment is malformed and stands for no path.
-/

namespace MeteredScript

structure ClassPath where
  segments : List Name
deriving DecidableEq, Inhabited, Repr

namespace ClassPath

/-- The segments of a dotted name, empty ones included. -/
def words (name : String) : List String :=
  (Text.split ['.'] name.toList).map String.ofList

/-- Interns the segments of a dotted name. Those before the first empty one are interned also when
the name is malformed. -/
def intern (name : String) : StateM Interner (Option ClassPath) := do
  let parts := words name
  let segments ← (parts.takeWhile (· ≠ "")).mapM Interner.intern
  return if "" ∈ parts then none else some ⟨segments⟩

/-- The segments of a dotted name as far as they are known, without interning any. -/
def query (names : Interner) (name : String) : Option (List (Option Name)) :=
  let parts := words name
  if "" ∈ parts then none else some (parts.map names.get?)

def simpleName (p : ClassPath) : Option Name := p.segments.getLast?

def isPrefixOf (p q : ClassPath) : Bool := p.segments.isPrefixOf q.segments

/-- The dotted name of a path. -/
def dotted (names : Interner) (p : ClassPath) : String :=
  ".".intercalate (p.segments.map names.lookup)

end ClassPath

end MeteredScript

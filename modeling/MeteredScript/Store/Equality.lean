import MeteredScript.Store

/-!
Equality of values. Numbers are equal across int and float; containers are equal if they are the
same container or have equal contents, the order of map entries and set elements apart. Contents
are compared to a depth that no path through distinct containers exceeds.
-/

namespace MeteredScript.Store

/-- Whether two numbers are equal; a pair of ints is compared exactly. -/
def sameNumber : Value → Value → Bool
  | .int a, .int b => a = b
  | a, b =>
    match a.asNumber?, b.asNumber? with
    | some x, some y => x.equal y
    | _, _ => false

/-- Whether every entry of `left` is found in `right`, and the two are equally many. -/
def sameEntries (same : Value → Value → Bool) (left right : List (Key × Value)) : Bool :=
  left.length = right.length &&
    left.all fun (k, v) => (right.lookup k).any (same v ·)

def sameElements (left right : List Key) : Bool :=
  left.length = right.length && left.all (· ∈ right)

/-- Equality of values through at most `depth` containers inside each other. -/
def sameTo (s : Store) : Nat → Value → Value → Bool
  | _, .null, .null => true
  | _, .bool a, .bool b => a = b
  | _, .str a, .str b => a = b
  | _, .native a, .native b => a = b
  | 0, .list a, .list b => a.target = b.target
  | depth + 1, .list a, .list b =>
    a.target = b.target || (s.items a).isEqv (s.items b) (sameTo s depth)
  | 0, .map a, .map b => a.target = b.target
  | depth + 1, .map a, .map b =>
    a.target = b.target || sameEntries (sameTo s depth) (s.entries a) (s.entries b)
  | _, .set a, .set b => a.target = b.target || sameElements (s.elements a) (s.elements b)
  | _, a, b => sameNumber a b

def same (s : Store) (a b : Value) : Bool := s.sameTo s.containers.size a b

end MeteredScript.Store

import Mediatheque.Text.Affix

/-!
# Object ids

An id is a path of components behind slashes, and the id of the root is a single
slash. Parents and ancestors are read off the text of an id alone, so that they
make sense for ids that no object has.

* `ObjectId.parent?`: the id without its last component;
* `ObjectId.isAncestor`: whether one id is another or lies above it;
* `ObjectId.normalize`: the id without trailing slashes;
* `ObjectId.prefixes`: the ids on the way from the root to an id.
-/

namespace Mediatheque

namespace ObjectId

/-- The text before the last slash. -/
def beforeLastSlash? : List Char → Option (List Char)
  | [] => none
  | c :: rest =>
    match beforeLastSlash? rest with
    | some start => some (c :: start)
    | none => if c = '/' then some [] else none

/-- The characters of the parent's id; the root and texts without a slash have none. -/
def parentChars? (id : List Char) : Option (List Char) :=
  if id = ['/'] then none
  else
    match beforeLastSlash? id with
    | none => none
    | some [] => some ['/']
    | some start => some start

/-- The id of the parent; the root and texts without a slash have none. -/
def parent? (id : String) : Option String := (parentChars? id.toList).map String.ofList

theorem length_beforeLastSlash? {s t : List Char} (h : beforeLastSlash? s = some t) :
    t.length < s.length := by
  induction s generalizing t with
  | nil => simp [beforeLastSlash?] at h
  | cons c rest ih =>
    rw [beforeLastSlash?] at h
    cases hr : beforeLastSlash? rest with
    | none =>
      rw [hr] at h
      by_cases hc : c = '/' <;> simp_all
    | some start =>
      rw [hr] at h
      simp only [Option.some.injEq] at h
      have := ih hr
      simp only [← h, List.length_cons]
      omega

/-- A weight that every step to the parent lowers: the length, and one more for
every id but the root. -/
def parentWeight (id : List Char) : Nat := if id = ['/'] then 0 else id.length + 1

theorem parentWeight_lt {id p : List Char} (h : parentChars? id = some p) :
    parentWeight p < parentWeight id := by
  unfold parentChars? at h
  split at h
  · simp at h
  · next hid =>
    split at h
    · simp at h
    · simp only [Option.some.injEq] at h
      simp [parentWeight, ← h, hid]
    · next start hne hs =>
      simp only [Option.some.injEq] at h
      have := length_beforeLastSlash? hs
      subst h
      simp only [parentWeight, hid]
      split
      · simp
      · simp only [if_false]
        omega

/-- The parents of an id, from its own up to the last. -/
def parentsChars (id : List Char) : List (List Char) :=
  match _ : parentChars? id with
  | none => []
  | some p => p :: parentsChars p
termination_by parentWeight id
decreasing_by exact parentWeight_lt ‹_›

/-- The parents of an id, from its own up to the last. -/
def parents (id : String) : List String := (parentsChars id.toList).map String.ofList

/-! ## Ancestors -/

def isAncestorChars (a d : List Char) : Bool :=
  if a = ['/'] then true
  else
    match dropPrefix? a d with
    | none => false
    | some [] => true
    | some (c :: _) => c = '/'

/-- Whether `d` is `a` itself or lies below it. The root is above every text. -/
def isAncestor (a d : String) : Bool := isAncestorChars a.toList d.toList

/-! ## The way from the root -/

/-- The characters of an id without trailing slashes; slashes alone are the root. -/
def normalizeChars (id : List Char) : List Char :=
  match dropTrailing (· = '/') id with
  | [] => if id.isEmpty then [] else ['/']
  | kept => kept

/-- The id without trailing slashes; slashes alone are the root. -/
def normalize (id : String) : String := String.ofList (normalizeChars id.toList)

/-- The beginnings of a text that end before a slash of its second part, and the
text itself, where `done` is its first part. -/
def prefixesFrom (done : List Char) : List Char → List (List Char)
  | [] => [done]
  | c :: rest =>
    if c = '/' then done :: prefixesFrom (done ++ [c]) rest else prefixesFrom (done ++ [c]) rest

/-- The ids on the way from the root to an id, the id last: its beginnings that end
before a slash, except for the slash it starts with. -/
def prefixes : List Char → List String
  | [] => []
  | c :: rest => (prefixesFrom [c] rest).map String.ofList

end ObjectId

end Mediatheque

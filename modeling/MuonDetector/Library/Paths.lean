import MuonDetector.Library.Texts

/-!
# Paths

The paths of `std::filesystem` on POSIX. Two of them are compared by their elements, so
that one path can be written in more than one way.
-/

namespace MuonDetector.Library.Paths

open MuonDetector.Library

abbrev Path := List Char

def isAbsolute (p : Path) : Bool := p.head? = some '/'

/-- The names between the slashes, and an empty one for a slash behind the last. -/
def elements (p : Path) : List Path :=
  let names := (p.splitOn '/').filter (· ≠ [])
  if names ≠ [] ∧ p.getLast? = some '/' then names ++ [[]] else names

/-- `operator==`. -/
def Same (p q : Path) : Prop := isAbsolute p = isAbsolute q ∧ elements p = elements q

instance (p q : Path) : Decidable (Same p q) := inferInstanceAs (Decidable (_ ∧ _))

/-- `operator/`. -/
def append (p q : Path) : Path :=
  if isAbsolute q then q
  else if p = [] ∨ p.getLast? = some '/' then p ++ q
  else p ++ '/' :: q

theorem isAbsolute_append {p : Path} (h : isAbsolute p = true) (q : Path) :
    isAbsolute (append p q) = true := by
  rw [append]
  split
  · assumption
  · cases p with
    | nil => cases h
    | cons c p =>
      split <;> exact h

/-- What stands behind the last dot, with the dot, unless the name begins with it. -/
def extension (name : Path) : Path :=
  if name = ['.', '.'] ∨ name.rdropWhile (· ≠ '.') = [] ∨ name.rdropWhile (· ≠ '.') = ['.'] then []
  else '.' :: name.rtakeWhile (· ≠ '.')

/-- The extension begins at the last dot, where there is something in front of it. -/
theorem extension_append {stem ext : Path} (hstem : stem ≠ []) (hext : '.' ∉ ext)
    (hdots : stem ++ '.' :: ext ≠ ['.', '.']) : extension (stem ++ '.' :: ext) = '.' :: ext := by
  have hall : ∀ c ∈ ext.reverse, decide (c ≠ '.') = true := fun c hc =>
    decide_eq_true fun hdot => hext (hdot ▸ List.mem_reverse.mp hc)
  have hreverse : (stem ++ '.' :: ext).reverse = ext.reverse ++ '.' :: stem.reverse := by simp
  have hdrop : (stem ++ '.' :: ext).rdropWhile (· ≠ '.') = stem ++ ['.'] := by
    rw [List.rdropWhile, hreverse, List.dropWhile_append_of_pos hall]
    simp
  have htake : (stem ++ '.' :: ext).rtakeWhile (· ≠ '.') = ext := by
    rw [List.rtakeWhile, hreverse, List.takeWhile_append_of_pos hall]
    simp
  have hone : ¬ stem ++ ['.'] = ['.'] := by simpa using hstem
  rw [extension, hdrop, htake, if_neg]
  rintro (h | h | h)
  · exact hdots h
  · simp at h
  · exact hone h

/-- The last name of a path. -/
def filename (p : Path) : Path := p.rtakeWhile (· ≠ '/')

theorem flatten_filter_ne_nil (ts : List Path) : (ts.filter (· ≠ [])).flatten = ts.flatten := by
  induction ts with
  | nil => rfl
  | cons t ts ih =>
    cases t with
    | nil => exact ih
    | cons c t => exact congrArg ((c :: t) ++ ·) ih

theorem flatten_elements (p : Path) : (elements p).flatten = p.filter (· ≠ '/') := by
  have hnames : ((p.splitOn '/').filter (· ≠ [])).flatten = p.filter (· ≠ '/') := by
    rw [flatten_filter_ne_nil, Texts.flatten_splitOn]
  rw [elements]
  split
  · rw [List.flatten_append, hnames]
    exact List.append_nil _
  · exact hnames

/-- The same path has every other character equally often. -/
theorem Same.count {p q : Path} (h : Same p q) {c : Char} (hc : c ≠ '/') :
    p.count c = q.count c := by
  have hflat := congrArg (fun names => names.flatten.count c) h.2
  simpa [flatten_elements, List.count_filter, hc] using hflat

end MuonDetector.Library.Paths

import Ably.Go.Strings

/-!
# `path`: `Clean`, `Dir` and `Join`

The paginators resolve the relative links of a response with the `path`
package.  `Clean` is Go's lexical processing, stated here over the elements of
the path rather than its bytes: empty and `.` elements go, a `..` removes the
element before it, a rooted path cannot climb above its root, and a relative
one keeps the `..`s it cannot resolve.  The result is `/` followed by the
elements of a rooted path, the elements of a relative one, or `.` for nothing.
-/

namespace Ably.Go

namespace Path

open Strings

/-- The elements `Clean` keeps, the last kept first in `acc`. -/
def cleanElems (rooted : Bool) : List (List Char) → List (List Char) → List (List Char)
  | acc, [] => acc.reverse
  | acc, e :: es =>
    if e = [] ∨ e = ['.'] then cleanElems rooted acc es
    else if e = ['.', '.'] then
      match acc with
      | a :: acc' =>
        if a = ['.', '.'] then cleanElems rooted (e :: acc) es else cleanElems rooted acc' es
      | [] => if rooted then cleanElems rooted [] es else cleanElems rooted [e] es
    else cleanElems rooted (e :: acc) es

/-- `path.Clean`. -/
def clean (p : String) : String :=
  match p.data with
  | [] => "."
  | c :: _ =>
    let body := joinSlash (cleanElems (c = '/') [] (splitSlash p.data))
    if c = '/' then ⟨'/' :: body⟩ else if body = [] then "." else ⟨body⟩

/-- `path.Dir`: everything up to the last `/`, cleaned. -/
def dir (p : String) : String :=
  clean ⟨(p.data.reverse.dropWhile (· ≠ '/')).reverse⟩

/-- `path.Join(a, b)`. -/
def join (a b : String) : String :=
  if a = "" ∧ b = "" then ""
  else clean (if a = "" then b else a ++ "/" ++ b)

/-- `Clean` never returns the empty string: nothing cleans to `.`. -/
theorem clean_ne_empty (p : String) : clean p ≠ "" := by
  unfold clean
  split
  · decide
  · intro h
    simp only at h
    split at h
    · exact absurd (congrArg String.data h) (by simp)
    · split at h
      · exact absurd h (by decide)
      · exact ‹¬_› (congrArg String.data h)

theorem join_ne_empty {a b : String} (hb : b ≠ "") : join a b ≠ "" := by
  unfold join
  rw [if_neg (by simp [hb])]
  exact clean_ne_empty _

end Path

end Ably.Go

import Ably.Go.Url
import Ably.Proto

/-!
# Pagination parameters

`ScopeParams.EncodeValues` and `PaginateParams.EncodeValues` (`state.go`) write
a request's query parameters into a `url.Values`, and `buildPaginatedPath`
appends them to a path.  `ScopeParams` rejects a window whose start is after its
end.  `PaginateParams` embeds a `ScopeParams`, checks the limit and the direction
itself, and then calls the scope's `EncodeValues` without looking at what it
returns: an inverted window passes, and none of `start`, `end` and `unit` is
written (`encodeValues_drops_scope_error`).

A `time.Time` is the instant it names; `unixMilli`, which the source calls but
does not define, is a parameter.  `out` is a map: `Set` on a nil `url.Values`
panics, which the model does not express, and the one caller,
`buildPaginatedPath`, passes `url.Values{}`.
-/

namespace Ably

open Go

/-- A `time.Time`, as the instant it names: nanoseconds from Go's zero time,
January 1 of year 1, UTC. -/
structure Time where
  nsec : Int
  deriving DecidableEq, Repr

/-- `t.IsZero()`. -/
def Time.isZero (t : Time) : Bool := t.nsec = 0

/-- `t.After(u)`. -/
def Time.after (t u : Time) : Bool := u.nsec < t.nsec

/-- `ScopeParams`. -/
structure ScopeParams where
  start : Time
  end_ : Time
  unit : String
  deriving DecidableEq, Repr

/-- `PaginateParams`, with its embedded `ScopeParams`. -/
structure PaginateParams where
  scope : ScopeParams
  limit : Int
  direction : String
  deriving DecidableEq, Repr

variable (unixMilli : Time → Int)

/-- `ScopeParams.EncodeValues`: the map as it leaves it, and the error. -/
def ScopeParams.encodeValues (s : ScopeParams) (out : Values) : Values × Option String :=
  if !s.start.isZero && !s.end_.isZero && s.start.after s.end_ then
    (out, some "start mzust be before end")
  else
    let out := if !s.start.isZero then out.set "start" (toString (unixMilli s.start)) else out
    let out := if !s.end_.isZero then out.set "end" (toString (unixMilli s.end_)) else out
    let out := if s.unit != "" then out.set "unit" s.unit else out
    (out, none)

/-- `PaginateParams.EncodeValues`; the scope's error is dropped. -/
def PaginateParams.encodeValues (p : PaginateParams) (out : Values) : Values × Option String :=
  let out :=
    if p.limit < 0 then out.set "limit" (toString (100 : Int))
    else if p.limit ≠ 0 then out.set "limit" (toString p.limit) else out
  if p.direction = "" ∨ p.direction = "backwards" ∨ p.direction = "forwards" then
    let out := if p.direction = "" then out else out.set "direction" p.direction
    ((p.scope.encodeValues unixMilli out).1, none)
  else (out, some ("Invalid value for direction: " ++ p.direction))

/-- `PaginatedResult.buildPaginatedPath`. -/
def buildPaginatedPath (path : String) (params : Option PaginateParams) : Except ErrorInfo String :=
  match params with
  | none => .ok path
  | some p =>
    match p.encodeValues unixMilli Values.empty with
    | (_, some err) => .error ⟨.literal 50000, err⟩
    | (values, none) =>
      let queryString := values.encode
      if 0 < queryString.length then .ok (path ++ "?" ++ queryString) else .ok path

/-! ## The dropped error -/

/-- An inverted window, start 2 ns and end 1 ns after the zero time: the scope
rejects it, but `PaginateParams` reports no error and writes nothing, and the
path is built without a query. -/
theorem encodeValues_drops_scope_error :
    ∀ unixMilli : Time → Int,
      (ScopeParams.encodeValues unixMilli ⟨⟨2⟩, ⟨1⟩, ""⟩ Values.empty).2 =
          some "start mzust be before end" ∧
        PaginateParams.encodeValues unixMilli ⟨⟨⟨2⟩, ⟨1⟩, ""⟩, 0, ""⟩ Values.empty =
          (Values.empty, none) ∧
        buildPaginatedPath unixMilli "/stats" (some ⟨⟨⟨2⟩, ⟨1⟩, ""⟩, 0, ""⟩) = .ok "/stats" := by
  intro u
  refine ⟨rfl, rfl, ?_⟩
  have henc : PaginateParams.encodeValues u ⟨⟨⟨2⟩, ⟨1⟩, ""⟩, 0, ""⟩ Values.empty =
      (Values.empty, none) := rfl
  simp [buildPaginatedPath, henc, Values.encode_empty]

end Ably

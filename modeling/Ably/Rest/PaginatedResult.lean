import Ably.Rest.Params
import Ably.Rest.PaginatedResultNew

/-!
# `PaginatedResult`, the page-per-value paginator

`newPaginatedResult` (`hosts_test.go`) builds the path of a request, queries
it, checks the status and the Ably error headers, and decodes the page.
`Next` takes the last `rel="next"` link of the page (`paginationHeaders`,
`addMatch`) and requests it resolved by `buildPath`: against the directory of
the page's own path, its query removed.

`PaginatedResultNew` resolves every link against the directory of the first
path instead, fixed by `load`.  The two agree on a page whose directory is that
one (`nextPage_eq_nextLink`), which the server's `./resource?…` links keep, and
so on a server whose next links all stay in that directory they walk the same
pages, call for call, from a rooted request path that escaping leaves as it is
(`paginators_walk_in_step`).  For any other path the link `load` queries is the
escaped path, and `Next` resolves against the directory of that link, not of
the path.  A link that changes directory sends them apart from the page after
it on (`goTo_resolves_against_first_dir`).

## Honest boundary

`query`, `respCheck`, the decoder (by default `decodePaginatedResult`, which
calls `decodeResp`, not among the source files), the names of the Ably error
headers and `unixMilli` are parameters.  The request's `typ`, `opts` and
`logger` reach the model only through the decoder.  The caches `headers` and
`items` are left out: they hold functions of `links` and `typItems`.  Errors
are kept as what they are built from: the text of
`malformedPaginatedResponseError`, and of `strconv.Atoi`'s `*NumError`, is
not rendered.
-/

namespace Ably

open Go Link

/-- An error `newPaginatedResult` returns. -/
inductive PageError where
  /-- `buildPaginatedPath`'s `newError(50000, err)`. -/
  | info (e : ErrorInfo)
  /-- An error handed on from `query`, `respCheck` or the decoder. -/
  | passed (msg : String)
  /-- `strconv.Atoi`'s `*NumError` for the text it was given; `range` when the
  text is a number out of the range of `int`. -/
  | atoi (num : String) (range : Bool)
  /-- `malformedPaginatedResponseError(resp)`: `invalid PaginatedResult HTTP
  response; status: %d; body (first %d bytes): %q`, of the status and the first
  200 bytes of the body, and `; body read error: %w` when `io.ReadFull` fails
  with an error that is not `io.EOF`. -/
  | malformed (status : Nat) (body : List UInt8) (readErr : Bool)
  deriving DecidableEq, Repr

/-- `strconv.Atoi(s)`: an optional sign and decimal digits, in the range of a
64-bit `int`; the error says whether the text was a number out of range. -/
def atoi (s : String) : Except PageError Int :=
  let (neg, ds) : Bool × List Char :=
    match s.data with
    | '-' :: ds => (true, ds)
    | '+' :: ds => (false, ds)
    | ds => (false, ds)
  if ds ≠ [] ∧ ds.all Char.isDigit then
    let n : Int := ds.foldl (fun n d => 10 * n + (d.toNat - '0'.toNat)) 0
    let v := if neg then -n else n
    if -9223372036854775808 ≤ v ∧ v < 9223372036854775808 then .ok v else .error (.atoi s true)
  else .error (.atoi s false)

/-- `malformedPaginatedResponseError(resp)`: `io.ReadFull` into 200 bytes gives
`io.EOF` for an empty body and `io.ErrUnexpectedEOF` for a shorter one. -/
def malformedPaginatedResponseError (resp : Response) : PageError :=
  .malformed resp.statusCode (resp.body.take 200) (0 < resp.body.length ∧ resp.body.length < 200)

/-- `PaginatedResult`, with its decoded page `typItems` of type `Items`. -/
structure PaginatedResult (Items : Type) where
  path : String
  links : List String
  typItems : Option Items
  statusCode : Nat
  success : Bool
  errorCode : Int
  errorMessage : String
  respHeaders : List (String × List String)
  deriving DecidableEq, Repr

/-- `p.addMatch(matches)`: the url under the rel, in the map `p.headers`. -/
def addMatch (headers : List (String × String)) (m : String × String) : List (String × String) :=
  (m.2, m.1) :: headers.filter (·.1 ≠ m.2)

/-- `p.paginationHeaders()`, from the links of the page. -/
def paginationHeaders (links : List String) : List (String × String) :=
  links.foldl (fun headers link =>
    match findStringSubmatch link.data with
    | some m => addMatch headers m
    | none => headers) []

/-- `p.buildPath(origPath, newRelativePath)`. -/
def buildPath (origPath newRelativePath : String) : String :=
  Path.join (Path.dir ⟨origPath.data.takeWhile (· ≠ '?')⟩) newRelativePath

section Pages

variable (unixMilli : Time → Int) (query : String → Except String Response)
  (respCheck : Response → Option String) {Items : Type} (decoder : Response → Except String Items)
  (errorCodeHeader errorMessageHeader : String)

/-- `newPaginatedResult(ctx, opts, req)`, for `req.path = path` and
`req.params = params`. -/
def newPaginatedResult (path : String) (params : Option PaginateParams) :
    Except PageError (PaginatedResult Items) := do
  let builtPath ← (buildPaginatedPath unixMilli path params).mapError .info
  let resp ← (query builtPath).mapError .passed
  if let some e := respCheck resp then throw (.passed e)
  let success := decide (200 ≤ resp.statusCode ∧ resp.statusCode < 300)
  let errorCode ←
    if resp.get errorCodeHeader ≠ "" then atoi (resp.get errorCodeHeader)
    else if !success then throw (malformedPaginatedResponseError resp)
    else pure 0
  let errorMessage ←
    if resp.get errorMessageHeader ≠ "" then pure (resp.get errorMessageHeader)
    else if !success then throw (malformedPaginatedResponseError resp)
    else pure ""
  let typItems ←
    if resp.statusCode ≠ 204 then some <$> (decoder resp).mapError .passed else pure none
  pure ⟨builtPath, resp.values "Link", typItems, resp.statusCode, success, errorCode, errorMessage,
    resp.header⟩

/-- The path `p.Next(ctx)` requests, `nextPage`; none without a next link. -/
def PaginatedResult.nextPage (p : PaginatedResult Items) : Option String :=
  ((paginationHeaders p.links).lookup "next").map (buildPath p.path)

/-- `p.Next(ctx)`: the next page, none without a next link. -/
def PaginatedResult.next (p : PaginatedResult Items) :
    Except PageError (Option (PaginatedResult Items)) :=
  match p.nextPage with
  | none => .ok none
  | some nextPage =>
    some <$> newPaginatedResult unixMilli query respCheck decoder errorCodeHeader errorMessageHeader
      nextPage none

/-- `n` calls of `p.Next(ctx)`, each on the page the one before returned: the
pages, up to the first call that finds no next page; the first error ends them. -/
def PaginatedResult.follow : Nat → PaginatedResult Items → Except PageError (List (PaginatedResult Items))
  | 0, _ => .ok []
  | n + 1, p =>
    match p.next unixMilli query respCheck decoder errorCodeHeader errorMessageHeader with
    | .error e => .error e
    | .ok none => .ok []
    | .ok (some p') => (PaginatedResult.follow n p').map (p' :: ·)

end Pages

/-! ## The next link of a page -/

theorem lookup_filter_ne {hs : List (String × String)} {r rel : String} (h : r ≠ rel) :
    (hs.filter fun x => !decide (x.1 = r)).lookup rel = hs.lookup rel := by
  induction hs with
  | nil => rfl
  | cons x xs ih =>
    obtain ⟨k, v⟩ := x
    by_cases hk : k = r
    · subst hk
      simp [List.lookup_cons, beq_eq_false_iff_ne.mpr (Ne.symm h), ih]
    · simp [List.lookup_cons, hk, ih]

/-- `paginationHeaders` keeps, for each rel, the url of its last link. -/
theorem lookup_paginationHeaders (rel : String) (links : List String) :
    (paginationHeaders links).lookup rel = lastRel rel links := by
  suffices h : ∀ hs : List (String × String),
      (links.foldl (fun headers link =>
        match findStringSubmatch link.data with
        | some m => addMatch headers m
        | none => headers) hs).lookup rel = (lastRel rel links).or (hs.lookup rel) by
    simpa [paginationHeaders] using h []
  induction links with
  | nil => intro hs; rfl
  | cons l ls ih =>
    intro hs
    rw [List.foldl_cons, ih, lastRel]
    cases lastRel rel ls with
    | some u => rfl
    | none =>
      rcases findStringSubmatch l.data with _ | ⟨u, r⟩
      · rfl
      · by_cases hr : r = rel
        · subst hr; simp [addMatch, List.lookup_cons]
        · simp [addMatch, List.lookup_cons, beq_eq_false_iff_ne.mpr (Ne.symm hr),
            lookup_filter_ne hr, hr]

/-- The path `Next` requests: the page's last `rel="next"` link, resolved against
the directory of the page's path without its query. -/
theorem nextPage_eq {Items : Type} (p : PaginatedResult Items) :
    p.nextPage = (lastRel "next" p.links).map (buildPath p.path) := by
  rw [PaginatedResult.nextPage, lookup_paginationHeaders]

/-- Where the page's directory is the base path, `Next` requests the link
`PaginatedResultNew` holds after `goTo` took the same response. -/
theorem nextPage_eq_nextLink {Items : Type} {p : PaginatedResult Items} {q : PaginatedResultNew}
    {res : Response} (hlinks : p.links = res.values "Link")
    (hnext : q.nextLink = (PaginatedResultNew.nextOf q.basePath res).getD "")
    (hdir : Path.dir ⟨p.path.data.takeWhile (· ≠ '?')⟩ = q.basePath) :
    p.nextPage = if q.nextLink = "" then none else some q.nextLink := by
  rw [nextPage_eq, hnext, hlinks, PaginatedResultNew.nextOf]
  cases h : lastRel "next" (res.values "Link") with
  | none => rfl
  | some u =>
    have hne : Path.join q.basePath u ≠ "" := Path.join_ne_empty (lastRel_ne_empty h)
    simp only [Option.map_some', buildPath, hdir, Option.getD_some, hne, if_false]

/-! ## The two paginators in step

`Follows` says that an old page and a new paginator stand on the same page of
the server: the response the new one holds is the one the old page was built
from, and both resolve its next link against the same directory, so both ask
next for the same link.  One call of `Next` and one of `next` keep it
(`Follows.next`); on a server whose `rel="next"` links stay in that directory
it holds along every chain of calls (`Follows.follow`), from `load` on
(`paginators_walk_in_step`). -/

section Step

variable {unixMilli : Time → Int} {query : String → Except String Response}
  {respCheck : Response → Option String} {Items : Type} {decoder : Response → Except String Items}
  {errorCodeHeader errorMessageHeader : String} {Page : Type}
  {decodeResp : Option Response → Except String Page} {dir : String}

theorem bind_eq_ok {ε α β : Type} {x : Except ε α} {f : α → Except ε β} {b : β}
    (h : x >>= f = .ok b) : ∃ a, x = .ok a ∧ f a = .ok b := by
  cases x with
  | error e => cases h
  | ok a => exact ⟨a, rfl, h⟩

/-- The shape of `typItems` in `newPaginatedResult`: decode, or take a value. -/
theorem ite_bind_eq_ok {ε α β : Type} {c : Prop} [Decidable c] {x : Except ε α} {v : α}
    {k : α → Except ε β} {b : β} (h : (if c then x >>= k else pure v >>= k) = .ok b) :
    ∃ a, k a = .ok b := by
  split_ifs at h
  · exact (bind_eq_ok h).imp fun _ => And.right
  · exact ⟨v, h⟩

/-- The shape of `errorCode` and `errorMessage` in `newPaginatedResult`: read a
header, fail, or take a default. -/
theorem ite_ite_bind_eq_ok {ε α β : Type} {c₁ c₂ : Prop} [Decidable c₁] [Decidable c₂]
    {x : Except ε α} {e : ε} {v : α} {k : α → Except ε β} {b : β}
    (h : (if c₁ then x >>= k else if c₂ then throw e >>= k else pure v >>= k) = .ok b) :
    ∃ a, k a = .ok b := by
  split_ifs at h
  · exact (bind_eq_ok h).imp fun _ => And.right
  · cases h
  · exact ⟨v, h⟩

/-- A page `newPaginatedResult` builds at a link, without parameters, is the
server's answer there: every branch that returns ends in the same literal. -/
theorem newPaginatedResult_ok {link : String} {p : PaginatedResult Items}
    (h : newPaginatedResult unixMilli query respCheck decoder errorCodeHeader errorMessageHeader
      link none = .ok p) :
    ∃ r, query link = .ok r ∧ p.path = link ∧ p.links = r.values "Link" ∧
      p.statusCode = r.statusCode ∧ p.respHeaders = r.header := by
  obtain ⟨_, hbp, h⟩ := bind_eq_ok h
  cases hbp
  obtain ⟨r, hr, h⟩ := bind_eq_ok h
  refine ⟨r, ?_, ?_⟩
  · cases hq : query link <;> rw [hq] at hr <;> cases hr; rfl
  · dsimp only at h
    -- `respCheck`, then `errorCode`, `errorMessage` and `typItems`, then the literal
    split at h
    · obtain ⟨_, h', -⟩ := bind_eq_ok h; cases h'
    obtain ⟨_, -, h⟩ := bind_eq_ok h
    obtain ⟨_, h⟩ := ite_ite_bind_eq_ok h
    obtain ⟨_, h⟩ := ite_ite_bind_eq_ok h
    obtain ⟨_, h⟩ := ite_bind_eq_ok h
    cases h
    exact ⟨rfl, rfl, rfl, rfl⟩

theorem PaginatedResult.next_eq_ok_some {p p' : PaginatedResult Items}
    (h : p.next unixMilli query respCheck decoder errorCodeHeader errorMessageHeader =
      .ok (some p')) :
    ∃ link, p.nextPage = some link ∧
      newPaginatedResult unixMilli query respCheck decoder errorCodeHeader errorMessageHeader
        link none = .ok p' := by
  rcases hn : p.nextPage with _ | link <;> simp only [PaginatedResult.next, hn] at h
  · cases h
  · refine ⟨link, rfl, ?_⟩
    rcases hx : newPaginatedResult unixMilli query respCheck decoder errorCodeHeader
      errorMessageHeader link none with e | p'' <;> rw [hx] at h <;> cases h
    rfl

theorem PaginatedResult.next_eq_ok_none {p : PaginatedResult Items}
    (h : p.next unixMilli query respCheck decoder errorCodeHeader errorMessageHeader = .ok none) :
    p.nextPage = none := by
  rcases hn : p.nextPage with _ | link <;> simp only [PaginatedResult.next, hn] at h
  · rfl
  · rcases hx : newPaginatedResult unixMilli query respCheck decoder errorCodeHeader
      errorMessageHeader link none with e | p'' <;> rw [hx] at h <;> cases h

/-- The old page `p` and the new paginator `q` stand on the same page, walked
from the directory `dir`: `p` was fetched from its path, `q` is past the first
page and holds the response `p` was built from, and both resolve that
response's next link against `dir`. -/
def Follows (query : String → Except String Response) (dir : String) (p : PaginatedResult Items)
    (q : PaginatedResultNew) : Prop :=
  q.basePath = dir ∧ q.first = false ∧ Path.dir ⟨p.path.data.takeWhile (· ≠ '?')⟩ = dir ∧
    ∃ r, query p.path = .ok r ∧ q.res = some r ∧ p.links = r.values "Link" ∧
      p.statusCode = r.statusCode ∧ p.respHeaders = r.header ∧
      q.nextLink = (PaginatedResultNew.nextOf dir r).getD ""

/-- What the two paginators ask of the server to stay in step: every
`rel="next"` link it sends, resolved against `dir`, names a page in `dir`. -/
def NextStaysIn (query : String → Except String Response) (dir : String) : Prop :=
  ∀ link r u, query link = .ok r → lastRel "next" (r.values "Link") = some u →
    Path.dir ⟨(Path.join dir u).data.takeWhile (· ≠ '?')⟩ = dir

/-- A page `Next` returns and the paginator the next `next` leaves stand on the
same page again. -/
theorem Follows.next (hs : NextStaysIn query dir) {p p' : PaginatedResult Items}
    {q : PaginatedResultNew} (h : Follows query dir p q)
    (hp : p.next unixMilli query respCheck decoder errorCodeHeader errorMessageHeader =
      .ok (some p')) :
    Follows query dir p' (PaginatedResultNew.next query decodeResp q).1 := by
  obtain ⟨hb, hf, hd, r, hq, -, hl, -, -, hnl⟩ := h
  obtain ⟨link, hn, hp'⟩ := PaginatedResult.next_eq_ok_some hp
  obtain ⟨r', hq', rfl, hl', hst, hhd⟩ := newPaginatedResult_ok hp'
  have hpage := nextPage_eq_nextLink hl (hb ▸ hnl) (hb ▸ hd)
  rw [hn] at hpage
  split_ifs at hpage with hne
  have hlink : q.nextLink = p'.path := (Option.some.inj hpage).symm
  obtain ⟨hb', hf', hres', hnl'⟩ :=
    PaginatedResultNew.next_of_fetch query decodeResp hf hne (hlink ▸ hq')
  have hnx : PaginatedResultNew.nextOf dir r = some q.nextLink := by
    cases hx : PaginatedResultNew.nextOf dir r with
    | none => rw [hx] at hnl; exact absurd hnl hne
    | some l => rw [hx] at hnl; rw [hnl]; rfl
  obtain ⟨u, hu, hj⟩ := Option.map_eq_some'.mp hnx
  refine ⟨hb'.trans hb, hf', ?_, r', hq', hres', hl', hst, hhd, hb ▸ hb' ▸ hnl'⟩
  rw [← hlink, ← hj]
  exact hs _ r u hq hu

/-- When `Next` finds no next page, the next `next` returns `false`. -/
theorem Follows.next_none {p : PaginatedResult Items} {q : PaginatedResultNew}
    (h : Follows query dir p q)
    (hp : p.next unixMilli query respCheck decoder errorCodeHeader errorMessageHeader = .ok none) :
    (PaginatedResultNew.next query decodeResp q).2 = none := by
  obtain ⟨hb, hf, hd, r, -, -, hl, -, -, hnl⟩ := h
  have hpage := nextPage_eq_nextLink hl (hb ▸ hnl) (hb ▸ hd)
  rw [PaginatedResult.next_eq_ok_none hp] at hpage
  split_ifs at hpage with hne
  simp only [PaginatedResultNew.next, PaginatedResultNew.advance_of_nextLink_empty hf hne]

/-- Along every chain of calls of `Next` that returns, the new paginator after as
many calls of `next` stands on the same page, and where `Next` finds no next
page `next` returns `false`. -/
theorem Follows.follow (hs : NextStaysIn query dir) {n : Nat} {p : PaginatedResult Items}
    {q : PaginatedResultNew} {ps : List (PaginatedResult Items)} (h : Follows query dir p q)
    (hf : p.follow unixMilli query respCheck decoder errorCodeHeader errorMessageHeader n = .ok ps) :
    (∀ i (hi : i < ps.length), Follows query dir (ps.get ⟨i, hi⟩)
      ((fun q => (PaginatedResultNew.next query decodeResp q).1)^[i + 1] q)) ∧
    (ps.length < n → (PaginatedResultNew.next query decodeResp
      ((fun q => (PaginatedResultNew.next query decodeResp q).1)^[ps.length] q)).2 = none) := by
  induction n generalizing p q ps with
  | zero => cases hf; exact ⟨fun i hi => absurd hi (Nat.not_lt_zero i), fun h => absurd h (by simp)⟩
  | succ n ih =>
    rcases hx : p.next unixMilli query respCheck decoder errorCodeHeader errorMessageHeader
      with e | _ | p' <;> simp only [PaginatedResult.follow, hx] at hf
    · cases hf
    · cases hf
      exact ⟨fun i hi => absurd hi (Nat.not_lt_zero i), fun _ => h.next_none hx⟩
    · rcases hy : p'.follow unixMilli query respCheck decoder errorCodeHeader errorMessageHeader n
        with e | ps' <;> rw [hy] at hf <;> cases hf
      have h' : Follows query dir p' (PaginatedResultNew.next query decodeResp q).1 := h.next hs hx
      obtain ⟨ih₁, ih₂⟩ := ih h' hy
      refine ⟨fun i hi => ?_, fun hlt => ?_⟩
      · cases i with
        | zero => exact h'
        | succ i =>
          rw [Function.iterate_succ_apply]
          exact ih₁ i (Nat.lt_of_succ_lt_succ hi)
      · rw [List.length_cons, Function.iterate_succ_apply]
        exact ih₂ (Nat.lt_of_succ_lt_succ hlt)

/-- The two paginators walk the same pages of a server whose `rel="next"` links
stay in the directory of the request path, when the path is rooted and escaping
leaves it as it is, and `Next` starts from the link `load` queries: after `load`
and one `next`, and after each further `next`, the new paginator holds the
response of the page `Next` returned in turn and the same next link; where
`Next` finds no next page, `next` returns `false`. -/
theorem paginators_walk_in_step {path link : String} {params : Values}
    (hs : NextStaysIn query (Path.dir path)) (hroot : path.data.head? = some '/')
    (hesc : escapedPath path = path) (hlink : urlString path params.encode = link)
    (q : PaginatedResultNew) {p₀ : PaginatedResult Items} {n : Nat}
    {ps : List (PaginatedResult Items)}
    (h₀ : newPaginatedResult unixMilli query respCheck decoder errorCodeHeader errorMessageHeader
      link none = .ok p₀)
    (hf : p₀.follow unixMilli query respCheck decoder errorCodeHeader errorMessageHeader n =
      .ok ps) :
    let q₁ := (PaginatedResultNew.next query decodeResp (PaginatedResultNew.load query q path params).1).1
    (∀ i (hi : i < (p₀ :: ps).length), Follows query (Path.dir path) ((p₀ :: ps).get ⟨i, hi⟩)
      ((fun q => (PaginatedResultNew.next query decodeResp q).1)^[i] q₁)) ∧
    (ps.length < n → (PaginatedResultNew.next query decodeResp
      ((fun q => (PaginatedResultNew.next query decodeResp q).1)^[ps.length] q₁)).2 = none) := by
  intro q₁
  have hdir : Path.dir ⟨link.data.takeWhile (· ≠ '?')⟩ = Path.dir path := by
    rw [← hlink, takeWhile_urlString hroot hesc]
  obtain ⟨r, hq, hpath, hl, hst, hhd⟩ := newPaginatedResult_ok h₀
  let q' : PaginatedResultNew :=
    { q with basePath := Path.dir path, firstLink := urlString path params.encode, first := true }
  obtain ⟨-, hg₂, hg₃, hg₄, hg₅⟩ := PaginatedResultNew.goTo_ok q' (hlink ▸ hq)
  obtain ⟨hb, hf₁, hres, hnl⟩ := PaginatedResultNew.next_of_first query decodeResp hg₄
  have h₁ : Follows query (Path.dir path) p₀ q₁ :=
    ⟨hb.trans hg₂, hf₁, hpath ▸ hdir, r, hpath ▸ hq, hres.trans hg₃, hl, hst, hhd, hnl.trans hg₅⟩
  obtain ⟨h₂, h₃⟩ := h₁.follow hs hf
  refine ⟨fun i hi => ?_, h₃⟩
  cases i with
  | zero => exact h₁
  | succ i => exact h₂ i (Nat.lt_of_succ_lt_succ hi)

/-- On the two-page server of `samplePages`, whose next link is the sibling
`./messages?page=2`, `Next` returns the second page and then finds no next page;
the new paginator holds the same two responses and then returns `false`. -/
theorem paginators_walk_in_step_sample :
    NextStaysIn PaginatedResultNew.samplePages (Path.dir "/channels/x/messages") ∧
      "/channels/x/messages".data.head? = some '/' ∧
      escapedPath "/channels/x/messages" = "/channels/x/messages" ∧
      urlString "/channels/x/messages" Values.empty.encode = "/channels/x/messages" ∧
      ∃ p₀ ps, newPaginatedResult (fun t => t.nsec) PaginatedResultNew.samplePages (fun _ => none)
          (fun r => .ok r.body) "X-Ably-Errorcode" "X-Ably-Errormessage" "/channels/x/messages"
          none = .ok p₀ ∧
        p₀.follow (fun t => t.nsec) PaginatedResultNew.samplePages (fun _ => none)
          (fun r => .ok r.body) "X-Ably-Errorcode" "X-Ably-Errormessage" 2 = .ok ps ∧
        ps.length = 1 ∧
        let q₁ := (PaginatedResultNew.next PaginatedResultNew.samplePages
          PaginatedResultNew.sampleDecode (PaginatedResultNew.load PaginatedResultNew.samplePages
            .zero "/channels/x/messages" Values.empty).1).1
        (∀ i (hi : i < (p₀ :: ps).length), Follows PaginatedResultNew.samplePages
          (Path.dir "/channels/x/messages") ((p₀ :: ps).get ⟨i, hi⟩)
          ((fun q => (PaginatedResultNew.next PaginatedResultNew.samplePages
            PaginatedResultNew.sampleDecode q).1)^[i] q₁)) ∧
        (ps.length < 2 → (PaginatedResultNew.next PaginatedResultNew.samplePages
          PaginatedResultNew.sampleDecode ((fun q => (PaginatedResultNew.next
            PaginatedResultNew.samplePages PaginatedResultNew.sampleDecode q).1)^[ps.length]
              q₁)).2 = none) := by
  have hs : NextStaysIn PaginatedResultNew.samplePages (Path.dir "/channels/x/messages") := by
    intro link r u h hu
    unfold PaginatedResultNew.samplePages at h
    split_ifs at h <;> cases h
    · obtain rfl : u = "./messages?page=2" := Option.some.inj (hu.symm.trans (by decide))
      decide
    · cases hu
  have hu : urlString "/channels/x/messages" Values.empty.encode = "/channels/x/messages" := by
    rw [Values.encode_empty]; decide
  have hr : "/channels/x/messages".data.head? = some '/' := rfl
  have he : escapedPath "/channels/x/messages" = "/channels/x/messages" := by decide
  exact ⟨hs, hr, he, hu, _, _, rfl, rfl, rfl,
    @paginators_walk_in_step (fun t => t.nsec) PaginatedResultNew.samplePages (fun _ => none)
      (List UInt8) (fun r => .ok r.body) "X-Ably-Errorcode" "X-Ably-Errormessage" (List UInt8)
      PaginatedResultNew.sampleDecode _ _ _ hs hr he hu .zero _ _ _ rfl rfl⟩

end Step

/-! ## A link to another directory -/

/-- A server whose first page links into another directory, and whose second
page links to a sibling of itself. -/
def dirServer (link : String) : Except String Response :=
  if link = "/channels/x/messages" then
    .ok ⟨200, [("Link", ["<../other/messages?page=2>; rel=\"next\""])], []⟩
  else if link = "/channels/other/messages?page=2" then
    .ok ⟨200, [("Link", ["<./messages?page=3>; rel=\"next\""])], []⟩
  else .error "404"

/-- `newPaginatedResult` for `dirServer`, with no response check and a decoder
that reads nothing. -/
def dirPage (path : String) : Except PageError (PaginatedResult Unit) :=
  newPaginatedResult (fun t => t.nsec) dirServer (fun _ => none) (fun _ => .ok ())
    "X-Ably-Errorcode" "X-Ably-Errormessage" path none

/-- `Next` for `dirServer`, as `dirPage` builds pages. -/
def dirNext (p : PaginatedResult Unit) : Except PageError (Option (PaginatedResult Unit)) :=
  p.next (fun t => t.nsec) dirServer (fun _ => none) (fun _ => .ok ())
    "X-Ably-Errorcode" "X-Ably-Errormessage"

/-- Both paginators go from the first page to `/channels/other/messages?page=2`;
on that page `Next` requests the sibling `/channels/other/messages?page=3`, while
`PaginatedResultNew` resolves the same link against `/channels/x`, the
directory of the first path, and its next `next` requests
`/channels/x/messages?page=3`. -/
theorem goTo_resolves_against_first_dir :
    (dirPage "/channels/x/messages").toOption.map (·.nextPage) =
        some (some "/channels/other/messages?page=2") ∧
      (PaginatedResultNew.load dirServer .zero "/channels/x/messages" .empty).1.nextLink =
        "/channels/other/messages?page=2" ∧
      (dirPage "/channels/x/messages" >>= dirNext).toOption.map (·.bind (·.nextPage)) =
        some (some "/channels/other/messages?page=3") ∧
      (PaginatedResultNew.next dirServer (fun _ => .ok ())
        (PaginatedResultNew.next dirServer (fun _ => .ok ())
          (PaginatedResultNew.load dirServer .zero "/channels/x/messages" .empty).1).1).1.nextLink =
        "/channels/x/messages?page=3" := by
  simp only [PaginatedResultNew.load, PaginatedResultNew.First, Values.encode_empty]
  decide

end Ably

import Mathlib.Tactic.SplitIfs
import Ably.Rest.Link
import Ably.Go.Url

/-!
# `PaginatedResultNew` and its item iterator

`PaginatedResultNew` (`hosts_test.go`) walks a server's pages by their
`Link` headers.  `load` fixes `basePath`, the directory of the request path,
and the first link, the path with its query; `First` goes to the first link;
`goTo` queries a link, forgets the old next link and resolves every
`rel="next"` and `rel="first"` link of the response against `basePath`; `next`
goes to the next link unless it is on the first page, and decodes the page.

`loadItems` wraps this in a closure over `nextItem` and `pageLen` that hands
out the indices of the items of each page in turn.  The spec's item iterator
is stated here as its own machine, `ItemStream`: it enters a page, yields its
indices, and follows the page's next link, until a page is empty, has no next
link, or fails to load.  `Tracks` ties the closure's state to a point of that
stream, one call of the closure makes one step of the stream
(`ItemsState.next_tracks`), and so up to the end of the stream the closure
returns exactly what the stream does, and never panics
(`loadItems_run_eq_stream`).  Past the end of the stream, and for any
server, no call panics either, and every index it returns lies below the
length of the page it holds (`Reachable.next_index_lt`).

The page iterator, `next` called again and again after `load`, is stated the
same way as a stream of pages, `PageStream`: for every sequence of calls, each
answered by a server of its own, it returns the pages the stream does
(`load_pages_eq_stream`), so a page that fails to decode is skipped, a failed
query is made again at the same link by the next call, and once a page has no
next link every call returns `false`.  `goTo` also takes
each `rel="first"` link it meets as the first link, so `First` reloads the page
the server names; for a server whose `rel="first"` links lead back to the first
page, reloading after any number of calls returns the same pages as the first
load (`first_reloads_same_pages`).

## Honest boundary

`query`, the decoding `decodeResp` of a page into the destination
`pageDecoder` gives, and that page's length, are parameters: none of them is
among the source files, and the page a call decodes into matters to the
closure only through its length.  A failed query is taken to leave no
response.  Errors are their texts.  Page lengths are lengths of Go slices, far
below `2^63`, so `nextItem + 1` does not wrap.
-/

namespace Ably

open Go Link

/-- `PaginatedResultNew`; `query`, which it stores, is a parameter of its
operations instead. -/
structure PaginatedResultNew where
  basePath : String
  nextLink : String
  firstLink : String
  res : Option Response
  err : Option String
  first : Bool
  deriving DecidableEq, Repr

namespace PaginatedResultNew

/-- The zero value the wrappers declare before `load`. -/
def zero : PaginatedResultNew := ⟨"", "", "", none, none, false⟩

section Pages

variable (query : String → Except String Response)

/-- One iteration of `goTo`'s loop over the `Link` values of a response. -/
def applyLink (p : PaginatedResultNew) (rawLink : String) : PaginatedResultNew :=
  match findStringSubmatch rawLink.data with
  | none => p
  | some (relPath, rel) =>
    let path := Path.join p.basePath relPath
    if rel = "first" then { p with firstLink := path }
    else if rel = "next" then { p with nextLink := path }
    else p

/-- `p.goTo(ctx, link)`: the paginator after it, and the error it returns. -/
def goTo (p : PaginatedResultNew) (link : String) : PaginatedResultNew × Option String :=
  match query link with
  | .error e => ({ p with res := none }, some e)
  | .ok res => ((res.values "Link").foldl applyLink { p with res := some res, nextLink := "" }, none)

/-- `p.First(ctx)`; the field `first` has the lower-case name. -/
def First (p : PaginatedResultNew) : PaginatedResultNew × Option String :=
  goTo query { p with first := true } p.firstLink

/-- `p.load(ctx, r)`, for `r.path = path` and `r.params = params`. -/
def load (p : PaginatedResultNew) (path : String) (params : Values) :
    PaginatedResultNew × Option String :=
  First query { p with basePath := Path.dir path, firstLink := urlString path params.encode }

/-- The part of `p.next(ctx, into)` before decoding: past the first page, go to
the next link; whether there is a page to decode. -/
def advance (p : PaginatedResultNew) : PaginatedResultNew × Bool :=
  if p.first then (p, true)
  else if p.nextLink = "" then (p, false)
  else
    match goTo query p p.nextLink with
    | (p, some e) => ({ p with err := some e }, false)
    | (p, none) => ({ p with err := none }, true)

variable {Page : Type} (decodeResp : Option Response → Except String Page)

/-- `p.next(ctx, into)`: the page decoded into `into` when it returns `true`. -/
def next (p : PaginatedResultNew) : PaginatedResultNew × Option Page :=
  match advance query p with
  | (p, false) => (p, none)
  | (p, true) =>
    match decodeResp p.res with
    | .error e => ({ p with first := false, err := some e }, none)
    | .ok page => ({ p with first := false, err := none }, some page)

/-! ## The item iterator -/

/-- What the function `loadItems` returns captures beside the paginator. -/
structure ItemsState where
  p : PaginatedResultNew
  pageLen : Nat
  nextItem : Nat
  deriving DecidableEq, Repr

variable (pageLength : Page → Nat)

/-- `p.loadItems(ctx, r, pageDecoder)`: the state of the function it returns. -/
def loadItems (p : PaginatedResultNew) (path : String) (params : Values) :
    Except String ItemsState :=
  match load query p path params with
  | (_, some e) => .error e
  | (p, none) => .ok ⟨p, 0, 0⟩

/-- The end of a call: hand out `nextItem` and move on modulo `pageLen`, which
panics for `0`. -/
def ItemsState.yield (it : ItemsState) : Option ((Nat × Bool) × ItemsState) :=
  if it.pageLen = 0 then none
  else some ((it.nextItem, true), { it with nextItem := (it.nextItem + 1) % it.pageLen })

/-- One call of the function `loadItems` returns: its result and the state after
it, or none when it panics. -/
def ItemsState.next (it : ItemsState) : Option ((Nat × Bool) × ItemsState) :=
  if it.nextItem = 0 then
    match PaginatedResultNew.next query decodeResp it.p with
    | (p, none) => some ((0, false), { it with p := p })
    | (p, some page) =>
      if pageLength page = 0 then some ((0, false), { it with p := p, pageLen := 0 })
      else ItemsState.yield { it with p := p, pageLen := pageLength page }
  else it.yield

/-- `n` calls of the function: their results, or none if one panics. -/
def ItemsState.run : Nat → ItemsState → Option (List (Nat × Bool))
  | 0, _ => some []
  | n + 1, it =>
    match it.next query decodeResp pageLength with
    | none => none
    | some (o, it') => (ItemsState.run n it').map (o :: ·)

end Pages

/-! ## `goTo` -/

section GoTo

variable {query : String → Except String Response}

/-- The link `goTo` takes from a response as the next one: its last `rel="next"`
link, resolved against `basePath`. -/
def nextOf (basePath : String) (res : Response) : Option String :=
  (lastRel "next" (res.values "Link")).map (Path.join basePath)

theorem nextOf_ne_some_empty (basePath : String) (res : Response) :
    nextOf basePath res ≠ some "" := by
  intro h
  obtain ⟨u, hu, he⟩ := Option.map_eq_some'.mp h
  exact Path.join_ne_empty (lastRel_ne_empty hu) he

/-- One `Link` value sets the link of its rel, resolved; `goTo` keeps the rels
`first` and `next`. -/
theorem applyLink_links (q : PaginatedResultNew) (l : String) :
    (applyLink q l).nextLink = ((lastRel "next" [l]).map (Path.join q.basePath)).getD q.nextLink ∧
      (applyLink q l).firstLink =
        ((lastRel "first" [l]).map (Path.join q.basePath)).getD q.firstLink := by
  simp only [applyLink, lastRel]
  rcases findStringSubmatch l.data with _ | ⟨u, r⟩
  · exact ⟨rfl, rfl⟩
  · by_cases h₁ : r = "first"
    · subst h₁; simp
    · by_cases h₂ : r = "next" <;> simp [h₁, h₂]

/-- The loop of `goTo` keeps the base path, the response and `first`, and leaves
the last `rel="next"` and the last `rel="first"` link, resolved, as the next and
the first link. -/
theorem foldl_applyLink (links : List String) (q : PaginatedResultNew) :
    (links.foldl applyLink q).basePath = q.basePath ∧ (links.foldl applyLink q).res = q.res ∧
      (links.foldl applyLink q).first = q.first ∧
      (links.foldl applyLink q).nextLink =
        ((lastRel "next" links).map (Path.join q.basePath)).getD q.nextLink ∧
      (links.foldl applyLink q).firstLink =
        ((lastRel "first" links).map (Path.join q.basePath)).getD q.firstLink := by
  induction links generalizing q with
  | nil => simp [lastRel]
  | cons l ls ih =>
    have hq : (applyLink q l).basePath = q.basePath ∧ (applyLink q l).res = q.res ∧
        (applyLink q l).first = q.first := by
      unfold applyLink; split <;> (try split_ifs) <;> simp
    obtain ⟨h₁, h₂, h₃, h₄, h₅⟩ := ih (applyLink q l)
    obtain ⟨hn, hf⟩ := applyLink_links q l
    refine ⟨h₁.trans hq.1, h₂.trans hq.2.1, h₃.trans hq.2.2, ?_, ?_⟩
    · rw [List.foldl_cons, h₄, hq.1, hn, lastRel_cons "next" l ls]
      cases lastRel "next" ls <;> rfl
    · rw [List.foldl_cons, h₅, hq.1, hf, lastRel_cons "first" l ls]
      cases lastRel "first" ls <;> rfl

theorem goTo_ok (p : PaginatedResultNew) {link : String} {res : Response}
    (h : query link = .ok res) :
    (goTo query p link).2 = none ∧ (goTo query p link).1.basePath = p.basePath ∧
      (goTo query p link).1.res = some res ∧ (goTo query p link).1.first = p.first ∧
      (goTo query p link).1.nextLink = (nextOf p.basePath res).getD "" := by
  obtain ⟨h₁, h₂, h₃, h₄, -⟩ :=
    foldl_applyLink (res.values "Link") { p with res := some res, nextLink := "" }
  unfold goTo
  rw [h]
  exact ⟨rfl, h₁, h₂, h₃, h₄⟩

theorem goTo_error {p : PaginatedResultNew} {link e : String} (h : query link = .error e) :
    goTo query p link = ({ p with res := none }, some e) := by
  simp only [goTo, h]

theorem goTo_eq_of_ok (p : PaginatedResultNew) {link : String} {res : Response}
    (h : query link = .ok res) : goTo query p link = ((goTo query p link).1, none) :=
  Prod.ext rfl (goTo_ok p h).1

/-- `goTo` keeps the base path, and keeps the first link unless the response it
gets has a `rel="first"` link, which it then takes, resolved. -/
theorem goTo_firstLink (p : PaginatedResultNew) (link : String) :
    (goTo query p link).1.basePath = p.basePath ∧
      ((goTo query p link).1.firstLink = p.firstLink ∨
        ∃ r u, query link = .ok r ∧ lastRel "first" (r.values "Link") = some u ∧
          (goTo query p link).1.firstLink = Path.join p.basePath u) := by
  cases hq : query link with
  | error e => rw [goTo_error hq]; exact ⟨rfl, .inl rfl⟩
  | ok r =>
    obtain ⟨h₁, -, -, -, h₅⟩ :=
      foldl_applyLink (r.values "Link") { p with res := some r, nextLink := "" }
    have hg : goTo query p link =
        ((r.values "Link").foldl applyLink { p with res := some r, nextLink := "" }, none) := by
      simp only [goTo, hq]
    rw [hg]
    refine ⟨h₁, ?_⟩
    cases hu : lastRel "first" (r.values "Link") with
    | none => left; rw [h₅, hu]; rfl
    | some u => exact .inr ⟨r, u, rfl, hu, by rw [h₅, hu]; rfl⟩

/-! ### `advance`, branch by branch -/

theorem advance_of_first {p : PaginatedResultNew} (h : p.first = true) :
    advance query p = (p, true) := by
  simp [advance, h]

theorem advance_of_nextLink_empty {p : PaginatedResultNew} (hf : p.first = false)
    (h : p.nextLink = "") : advance query p = (p, false) := by
  simp [advance, hf, h]

theorem advance_of_error {p : PaginatedResultNew} {e : String} (hf : p.first = false)
    (hl : p.nextLink ≠ "") (hq : query p.nextLink = .error e) : (advance query p).2 = false := by
  simp [advance, hf, hl, goTo_error hq]

theorem advance_of_ok {p : PaginatedResultNew} {res : Response} (hf : p.first = false)
    (hl : p.nextLink ≠ "") (hq : query p.nextLink = .ok res) :
    advance query p = ({ (goTo query p p.nextLink).1 with err := none }, true) := by
  simp only [advance, hf, hl, Bool.false_eq_true, if_false]
  rw [goTo_eq_of_ok p hq]

end GoTo

/-! ## The item stream -/

/-- The item iterator as the spec describes it: the first page, loaded and not
yet decoded; a page being read, as its length, the number of its items handed
out, and the link of the page after it; or the end. -/
inductive ItemStream where
  | loaded (res : Response)
  | reading (len idx : Nat) (nextLink : Option String)
  | stopped
  deriving DecidableEq, Repr

section Stream

variable (query : String → Except String Response) {Page : Type}
  (decodeResp : Option Response → Except String Page) (pageLength : Page → Nat)
  (basePath : String)

/-- Entering a page: its first item, or the end when it is empty or fails to
decode. -/
def ItemStream.enter (res : Response) : (Nat × Bool) × ItemStream :=
  match decodeResp (some res) with
  | .error _ => ((0, false), .stopped)
  | .ok page =>
    if pageLength page = 0 then ((0, false), .stopped)
    else ((0, true), .reading (pageLength page) 1 (nextOf basePath res))

/-- One item of the stream: the next index of the page, or else the page after
it; the end when there is none or it fails to load. -/
def ItemStream.step : ItemStream → (Nat × Bool) × ItemStream
  | .loaded res => ItemStream.enter decodeResp pageLength basePath res
  | .reading len idx nx =>
    if idx < len then ((idx, true), .reading len (idx + 1) nx)
    else
      match nx with
      | none => ((0, false), .stopped)
      | some link =>
        match query link with
        | .error _ => ((0, false), .stopped)
        | .ok res => ItemStream.enter decodeResp pageLength basePath res
  | .stopped => ((0, false), .stopped)

/-- The first `n` items of the stream. -/
def ItemStream.run : Nat → ItemStream → List (Nat × Bool)
  | 0, _ => []
  | n + 1, c => (c.step query decodeResp pageLength basePath).1 ::
      ItemStream.run n (c.step query decodeResp pageLength basePath).2

/-- How the closure's state stands for a point of the stream. -/
def Tracks (it : ItemsState) : ItemStream → Prop
  | .loaded res => it.p.basePath = basePath ∧ it.p.first = true ∧ it.p.res = some res ∧
      it.p.nextLink = (nextOf basePath res).getD "" ∧ it.nextItem = 0
  | .reading len idx nx => it.p.basePath = basePath ∧ it.p.first = false ∧ it.pageLen = len ∧
      0 < idx ∧ idx ≤ len ∧ it.nextItem = idx % len ∧ it.p.nextLink = nx.getD "" ∧
      nx ≠ some ""
  | .stopped => True

theorem ItemStream.step_stopped {c : ItemStream}
    (h : (c.step query decodeResp pageLength basePath).2 = .stopped) :
    (c.step query decodeResp pageLength basePath).1.2 = false := by
  have enter : ∀ res, (ItemStream.enter decodeResp pageLength basePath res).2 = .stopped →
      (ItemStream.enter decodeResp pageLength basePath res).1.2 = false := by
    intro res
    unfold ItemStream.enter
    split <;> (try split_ifs) <;> simp
  cases c with
  | loaded res => exact enter res h
  | reading len idx nx =>
    simp only [ItemStream.step] at h ⊢
    split_ifs at h ⊢
    rcases nx with _ | link
    · rfl
    · dsimp only at h ⊢
      cases hq : query link with
      | error e => rfl
      | ok res =>
        simp only [hq] at h ⊢
        exact enter res h
  | stopped => rfl

/-- A call at the start of a page whose response `advance` has ready enters it
as the stream does. -/
theorem ItemsState.next_enter {it : ItemsState} {q : PaginatedResultNew} {res : Response}
    (h0 : it.nextItem = 0) (hadv : advance query it.p = (q, true)) (hb : q.basePath = basePath)
    (hres : q.res = some res) (hnl : q.nextLink = (nextOf basePath res).getD "") :
    ∃ it', it.next query decodeResp pageLength =
        some ((ItemStream.enter decodeResp pageLength basePath res).1, it') ∧
      Tracks basePath it' (ItemStream.enter decodeResp pageLength basePath res).2 := by
  simp only [ItemsState.next, h0, if_true, PaginatedResultNew.next, hadv, hres]
  cases hd : decodeResp (some res) with
  | error e =>
    simp only [ItemStream.enter, hd]
    exact ⟨_, rfl, trivial⟩
  | ok page =>
    by_cases hL : pageLength page = 0
    · simp only [ItemStream.enter, hd, hL, if_true]
      exact ⟨_, rfl, trivial⟩
    · simp only [ItemStream.enter, hd, hL, if_false, ItemsState.yield, h0, zero_add]
      exact ⟨_, rfl, hb, rfl, rfl, Nat.one_pos, Nat.one_le_iff_ne_zero.mpr hL, rfl, hnl,
        nextOf_ne_some_empty basePath res⟩

/-- A call at the start of a page where `advance` finds nothing to decode
returns `(0, false)`. -/
theorem ItemsState.next_of_advance_false {it : ItemsState} (h0 : it.nextItem = 0)
    (hadv : (advance query it.p).2 = false) :
    ∃ it', it.next query decodeResp pageLength = some ((0, false), it') ∧
      Tracks basePath it' .stopped := by
  rcases h : advance query it.p with ⟨q, b⟩
  rw [h] at hadv
  subst hadv
  simp only [ItemsState.next, h0, if_true, PaginatedResultNew.next, h]
  exact ⟨_, rfl, trivial⟩

/-- One call of the closure makes one step of the stream. -/
theorem ItemsState.next_tracks {it : ItemsState} {c : ItemStream} (h : Tracks basePath it c)
    (hc : c ≠ .stopped) :
    ∃ it', it.next query decodeResp pageLength =
        some ((c.step query decodeResp pageLength basePath).1, it') ∧
      Tracks basePath it' (c.step query decodeResp pageLength basePath).2 := by
  cases c with
  | loaded res =>
    obtain ⟨hb, hf, hres, hnl, h0⟩ := h
    exact ItemsState.next_enter query decodeResp pageLength basePath h0
      (advance_of_first hf) hb hres hnl
  | reading len idx nx =>
    obtain ⟨hb, hf, hlen, hpos, hle, hnext, hnl, hne⟩ := h
    simp only [ItemStream.step]
    by_cases hi : idx < len
    · -- inside the page: hand out `idx`
      have hidx : it.nextItem = idx := by rw [hnext, Nat.mod_eq_of_lt hi]
      have hlen0 : len ≠ 0 := Nat.ne_of_gt (Nat.lt_of_le_of_lt (Nat.zero_le _) hi)
      simp only [hi, if_true, ItemsState.next, ItemsState.yield, hidx, hlen,
        Nat.pos_iff_ne_zero.mp hpos, if_false, hlen0]
      exact ⟨_, rfl, hb, hf, rfl, Nat.succ_pos _, hi, rfl, hnl, hne⟩
    · -- past the page's last item: go to the next page
      have h0 : it.nextItem = 0 := by
        rw [hnext, Nat.le_antisymm hle (Nat.not_lt.mp hi), Nat.mod_self]
      simp only [hi, if_false]
      cases nx with
      | none =>
        have hadv := @advance_of_nextLink_empty query it.p hf hnl
        exact ItemsState.next_of_advance_false query decodeResp pageLength basePath h0
          (by rw [hadv])
      | some link =>
        have hlink : link ≠ "" := fun h' => hne (by rw [h'])
        simp only [Option.getD_some] at hnl
        dsimp only
        cases hq : query link with
        | error e =>
          exact ItemsState.next_of_advance_false query decodeResp pageLength basePath h0
            (advance_of_error hf (hnl ▸ hlink) (hnl ▸ hq))
        | ok res =>
          obtain ⟨-, hg₂, hg₃, -, hg₅⟩ := goTo_ok it.p hq
          rw [← hnl] at hq
          exact ItemsState.next_enter query decodeResp pageLength basePath h0
            (advance_of_ok hf (hnl ▸ hlink) hq) (hnl ▸ hg₂.trans hb) (hnl ▸ hg₃)
            (by rw [hnl, ← hb]; exact hg₅)
  | stopped => exact absurd rfl hc

/-- Up to the stream's end, `n` calls of the closure return its first `n` items. -/
theorem ItemsState.run_tracks {it : ItemsState} {c : ItemStream} (h : Tracks basePath it c)
    (hc : c ≠ .stopped) (n : Nat)
    (hn : ((c.run query decodeResp pageLength basePath n).dropLast.all (·.2)) = true) :
    it.run query decodeResp pageLength n = some (c.run query decodeResp pageLength basePath n) := by
  induction n generalizing it c with
  | zero => rfl
  | succ n ih =>
    obtain ⟨it', hstep, htr⟩ := ItemsState.next_tracks query decodeResp pageLength basePath h hc
    simp only [ItemsState.run, hstep, ItemStream.run]
    cases n with
    | zero => rfl
    | succ m =>
      simp only [ItemStream.run] at hn
      rw [List.dropLast_cons_of_ne_nil (List.cons_ne_nil _ _)] at hn
      simp only [List.all_cons, Bool.and_eq_true] at hn
      have hc' : (c.step query decodeResp pageLength basePath).2 ≠ .stopped := fun hs => by
        simp [ItemStream.step_stopped query decodeResp pageLength basePath hs] at hn
      rw [ih htr hc' (by simp only [ItemStream.run]; exact hn.2)]
      rfl

end Stream

section Load

variable {query : String → Except String Response} {Page : Type}
  {decodeResp : Option Response → Except String Page} {pageLength : Page → Nat}

/-- The item iterator of `loadItems` yields the indices of each page in turn,
following the next links while the pages are non-empty, and ends as the spec's
stream does: every call up to that end returns, with the stream's item. -/
theorem loadItems_run_eq_stream (p : PaginatedResultNew) (path : String) (params : Values)
    {res : Response} (hq : query (urlString path params.encode) = .ok res) (n : Nat)
    (hn : ((ItemStream.run query decodeResp pageLength (Path.dir path) n (.loaded res)).dropLast.all
      (·.2)) = true) :
    ∃ it, loadItems query p path params = .ok it ∧
      it.run query decodeResp pageLength n =
        some (ItemStream.run query decodeResp pageLength (Path.dir path) n (.loaded res)) := by
  let q : PaginatedResultNew :=
    { p with basePath := Path.dir path, firstLink := urlString path params.encode, first := true }
  obtain ⟨-, hg₂, hg₃, hg₄, hg₅⟩ := goTo_ok q hq
  have hload : loadItems query p path params = .ok ⟨(goTo query q q.firstLink).1, 0, 0⟩ := by
    simp only [loadItems, load, First]
    rw [goTo_eq_of_ok q hq]
  have htr : Tracks (Path.dir path) ⟨(goTo query q q.firstLink).1, 0, 0⟩ (.loaded res) :=
    ⟨hg₂, hg₄, hg₃, hg₅, rfl⟩
  exact ⟨_, hload, ItemsState.run_tracks query decodeResp pageLength _ htr (by simp) n hn⟩

/-- A server of two pages, of two items and of one, the first linking to the
second; a page's items are the bytes of its body. -/
def samplePages (link : String) : Except String Response :=
  if link = "/channels/x/messages" then
    .ok ⟨200, [("Link", ["<./messages?page=2>; rel=\"next\""])], [1, 2]⟩
  else if link = "/channels/x/messages?page=2" then .ok ⟨200, [], [3]⟩
  else .error "404"

/-- Decoding a page into the list of its items. -/
def sampleDecode (res : Option Response) : Except String (List UInt8) :=
  .ok ((res.map Response.body).getD [])

theorem samplePages_first : samplePages (urlString "/channels/x/messages" Values.empty.encode) =
    .ok ⟨200, [("Link", ["<./messages?page=2>; rel=\"next\""])], [1, 2]⟩ := by
  have hu : urlString "/channels/x/messages" Values.empty.encode = "/channels/x/messages" := by
    rw [Values.encode_empty]; decide
  rw [hu, samplePages, if_pos rfl]

theorem loadItems_run_eq_stream_sample :
    samplePages (urlString "/channels/x/messages" Values.empty.encode) =
        .ok ⟨200, [("Link", ["<./messages?page=2>; rel=\"next\""])], [1, 2]⟩ ∧
      ((ItemStream.run samplePages sampleDecode List.length (Path.dir "/channels/x/messages") 4
        (.loaded ⟨200, [("Link", ["<./messages?page=2>; rel=\"next\""])], [1, 2]⟩)).dropLast.all
        (·.2)) = true ∧
      ItemStream.run samplePages sampleDecode List.length (Path.dir "/channels/x/messages") 4
        (.loaded ⟨200, [("Link", ["<./messages?page=2>; rel=\"next\""])], [1, 2]⟩) =
        [(0, true), (1, true), (0, true), (0, false)] ∧
      ∃ it, loadItems samplePages zero "/channels/x/messages" Values.empty = .ok it ∧
        it.run samplePages sampleDecode List.length 4 =
          some [(0, true), (1, true), (0, true), (0, false)] := by
  have h₁ := samplePages_first
  have h₂ : ItemStream.run samplePages sampleDecode List.length (Path.dir "/channels/x/messages") 4
      (.loaded ⟨200, [("Link", ["<./messages?page=2>; rel=\"next\""])], [1, 2]⟩) =
      [(0, true), (1, true), (0, true), (0, false)] := by decide
  have h₃ := loadItems_run_eq_stream zero "/channels/x/messages" Values.empty h₁ 4 (by rw [h₂]; rfl)
  rw [h₂] at h₃
  exact ⟨h₁, by rw [h₂]; rfl, h₂, h₃⟩

end Load

/-! ## No panic, for any server -/

section Safety

variable (query : String → Except String Response) {Page : Type}
  (decodeResp : Option Response → Except String Page) (pageLength : Page → Nat)

/-- The states of the function `loadItems` returns, call after call. -/
inductive ItemsState.Reachable : ItemsState → Prop
  | load {p : PaginatedResultNew} {path : String} {params : Values} {it : ItemsState} :
      loadItems query p path params = .ok it → ItemsState.Reachable it
  | next {it it' : ItemsState} {o : Nat × Bool} :
      ItemsState.Reachable it → it.next query decodeResp pageLength = some (o, it') →
        ItemsState.Reachable it'

/-- The closure's invariant: between pages, or inside one. -/
def ItemsState.Sane (it : ItemsState) : Prop := it.nextItem = 0 ∨ it.nextItem < it.pageLen

theorem ItemsState.yield_sane {it : ItemsState} (h : it.nextItem < it.pageLen) :
    ∃ it', it.yield = some ((it.nextItem, true), it') ∧ it'.Sane ∧ it.nextItem < it'.pageLen := by
  have hpos : it.pageLen ≠ 0 := Nat.ne_of_gt (Nat.lt_of_le_of_lt (Nat.zero_le _) h)
  exact ⟨{ it with nextItem := (it.nextItem + 1) % it.pageLen }, by simp [ItemsState.yield, hpos],
    Or.inr (Nat.mod_lt _ (Nat.pos_of_ne_zero hpos)), h⟩

theorem ItemsState.next_sane {it : ItemsState} (h : it.Sane) :
    ∃ o it', it.next query decodeResp pageLength = some (o, it') ∧ it'.Sane ∧
      (o.2 = true → o.1 < it'.pageLen) := by
  by_cases h0 : it.nextItem = 0
  · simp only [ItemsState.next, h0, if_true]
    rcases PaginatedResultNew.next query decodeResp it.p with ⟨p, _ | page⟩
    · exact ⟨_, _, rfl, Or.inl rfl, by simp⟩
    · by_cases hL : pageLength page = 0
      · simp only [hL, if_true]
        exact ⟨_, _, rfl, Or.inl rfl, by simp⟩
      · obtain ⟨it', hy, hs, hlt⟩ := @ItemsState.yield_sane ⟨p, pageLength page, 0⟩
          (Nat.pos_of_ne_zero hL)
        simp only [hL, if_false, hy]
        exact ⟨_, _, rfl, hs, fun _ => hlt⟩
  · have hlt := h.resolve_left h0
    obtain ⟨it', hy, hs, hlt'⟩ := ItemsState.yield_sane hlt
    simp only [ItemsState.next, h0, if_false, hy]
    exact ⟨_, _, rfl, hs, fun _ => hlt'⟩

theorem ItemsState.Reachable.sane {it : ItemsState}
    (h : ItemsState.Reachable query decodeResp pageLength it) : it.Sane := by
  induction h with
  | load h =>
    simp only [loadItems] at h
    split at h
    · cases h
    · cases h; exact Or.inl rfl
  | next _ hstep ih =>
    obtain ⟨o, it', hn, hs, -⟩ := ItemsState.next_sane query decodeResp pageLength ih
    rw [hstep] at hn
    cases hn
    exact hs

/-- Whatever the server answers, before the end of the stream and after it, no
call of the closure panics on `% pageLen`, and every index it returns lies below
the length of the page it then holds. -/
theorem ItemsState.Reachable.next_index_lt {it : ItemsState}
    (h : ItemsState.Reachable query decodeResp pageLength it) :
    ∃ o it', it.next query decodeResp pageLength = some (o, it') ∧ (o.2 = true → o.1 < it'.pageLen) := by
  obtain ⟨o, it', hn, -, hlt⟩ := ItemsState.next_sane query decodeResp pageLength h.sane
  exact ⟨o, it', hn, hlt⟩

/-- The sample server's iterator just after `loadItems`. -/
theorem ItemsState.Reachable.next_index_lt_sample :
    ∃ o it', ItemsState.next samplePages sampleDecode List.length
      ⟨⟨"/channels/x", "/channels/x/messages?page=2", "/channels/x/messages",
        some ⟨200, [("Link", ["<./messages?page=2>; rel=\"next\""])], [1, 2]⟩, none, true⟩, 0, 0⟩ =
        some (o, it') ∧ (o.2 = true → o.1 < it'.pageLen) :=
  ItemsState.Reachable.next_index_lt samplePages sampleDecode List.length
    (@ItemsState.Reachable.load samplePages _ sampleDecode List.length zero "/channels/x/messages"
      Values.empty _
      (by simp only [loadItems, PaginatedResultNew.load, First, Values.encode_empty]; rfl))

end Safety

/-! ## The page iterator -/

/-- The page iterator as a stream of pages: the first page, loaded and not yet
returned, or the link of the page after the last one returned. -/
inductive PageStream where
  | loaded (res : Response)
  | returned (nextLink : Option String)
  deriving DecidableEq, Repr

section PageIterator

variable (query : String → Except String Response) {Page : Type}
  (decodeResp : Option Response → Except String Page) (basePath : String)

/-- Returning a loaded page: the page, none when it fails to decode; either way
the stream moves on to the page's next link. -/
def PageStream.read (res : Response) : Option Page × PageStream :=
  ((decodeResp (some res)).toOption, .returned (nextOf basePath res))

/-- One call of the page iterator: the loaded page; past it, the page at the
next link, nothing once there is no next link, and nothing, the link kept, when
the query fails. -/
def PageStream.step : PageStream → Option Page × PageStream
  | .loaded res => PageStream.read decodeResp basePath res
  | .returned none => (none, .returned none)
  | .returned (some link) =>
    match query link with
    | .error _ => (none, .returned (some link))
    | .ok res => PageStream.read decodeResp basePath res

/-- The first `n` pages of the stream. -/
def PageStream.run : Nat → PageStream → List (Option Page)
  | 0, _ => []
  | n + 1, c => (c.step query decodeResp basePath).1 ::
      PageStream.run n (c.step query decodeResp basePath).2

/-- `n` calls of `p.next(ctx, into)`: the page each decodes, none when it
returns `false`. -/
def pages : Nat → PaginatedResultNew → List (Option Page)
  | 0, _ => []
  | n + 1, p => (next query decodeResp p).2 :: pages n (next query decodeResp p).1

/-- How a paginator stands for a point of the page stream. -/
def PageTracks (p : PaginatedResultNew) : PageStream → Prop
  | .loaded res => p.basePath = basePath ∧ p.first = true ∧ p.res = some res ∧
      p.nextLink = (nextOf basePath res).getD ""
  | .returned nx => p.basePath = basePath ∧ p.first = false ∧ p.nextLink = nx.getD "" ∧
      nx ≠ some ""

/-- `next` on the first page reads it: it keeps the paginator's base path,
response and next link, and leaves the first page. -/
theorem next_of_first {p : PaginatedResultNew} (hf : p.first = true) :
    (next query decodeResp p).1.basePath = p.basePath ∧ (next query decodeResp p).1.first = false ∧
      (next query decodeResp p).1.res = p.res ∧
      (next query decodeResp p).1.nextLink = p.nextLink := by
  simp only [next, advance_of_first hf]
  split <;> exact ⟨rfl, rfl, rfl, rfl⟩

/-- `next` past the first page, on a next link the server answers, holds the
answer and the answer's next link. -/
theorem next_of_fetch {p : PaginatedResultNew} {res : Response} (hf : p.first = false)
    (hl : p.nextLink ≠ "") (hq : query p.nextLink = .ok res) :
    (next query decodeResp p).1.basePath = p.basePath ∧ (next query decodeResp p).1.first = false ∧
      (next query decodeResp p).1.res = some res ∧
      (next query decodeResp p).1.nextLink = (nextOf p.basePath res).getD "" := by
  obtain ⟨-, hg₂, hg₃, -, hg₅⟩ := goTo_ok p hq
  simp only [next, advance_of_ok hf hl hq]
  split <;> exact ⟨hg₂, rfl, hg₃, hg₅⟩

/-- `next` on a paginator whose response `advance` has ready reads it as the
stream does. -/
theorem next_read {p q : PaginatedResultNew} {res : Response} (hadv : advance query p = (q, true))
    (hb : q.basePath = basePath) (hres : q.res = some res)
    (hnl : q.nextLink = (nextOf basePath res).getD "") :
    (next query decodeResp p).2 = (PageStream.read decodeResp basePath res).1 ∧
      PageTracks basePath (next query decodeResp p).1 (PageStream.read decodeResp basePath res).2 := by
  simp only [next, hadv, hres, PageStream.read]
  cases decodeResp (some res) <;>
    exact ⟨rfl, hb, rfl, hnl, nextOf_ne_some_empty basePath res⟩

/-- One call of `next` makes one step of the page stream. -/
theorem next_page_tracks {p : PaginatedResultNew} {c : PageStream} (h : PageTracks basePath p c) :
    (next query decodeResp p).2 = (c.step query decodeResp basePath).1 ∧
      PageTracks basePath (next query decodeResp p).1 (c.step query decodeResp basePath).2 := by
  cases c with
  | loaded res =>
    obtain ⟨hb, hf, hres, hnl⟩ := h
    exact next_read query decodeResp basePath (advance_of_first hf) hb hres hnl
  | returned nx =>
    obtain ⟨hb, hf, hnl, hne⟩ := h
    cases nx with
    | none =>
      simp only [next, advance_of_nextLink_empty hf hnl, PageStream.step]
      exact ⟨trivial, hb, hf, hnl, hne⟩
    | some link =>
      simp only [Option.getD_some] at hnl
      have hlink : p.nextLink ≠ "" := fun h' => hne (congrArg some (hnl.symm.trans h'))
      simp only [PageStream.step]
      cases hq : query link with
      | error e =>
        rw [← hnl] at hq
        simp only [next, advance, hf, hlink, goTo_error hq, Bool.false_eq_true, if_false]
        exact ⟨trivial, hb, rfl, hnl, hne⟩
      | ok res =>
        obtain ⟨-, hg₂, hg₃, -, hg₅⟩ := goTo_ok p hq
        rw [← hnl] at hq
        exact next_read query decodeResp basePath (advance_of_ok hf hlink hq)
          (hnl ▸ hg₂.trans hb) (hnl ▸ hg₃) (by rw [hnl, ← hb]; exact hg₅)

theorem pages_eq_run {p : PaginatedResultNew} {c : PageStream} (h : PageTracks basePath p c)
    (n : Nat) : pages query decodeResp n p = PageStream.run query decodeResp basePath n c := by
  induction n generalizing p c with
  | zero => rfl
  | succ n ih =>
    obtain ⟨h₁, h₂⟩ := next_page_tracks query decodeResp basePath h
    simp only [pages, PageStream.run, h₁, ih h₂]

end PageIterator

/-! ## A server that answers each call its own way

`PageTracks` does not mention the server, so one call of `next` makes one step
of the stream whatever the server answers at that call.  Running the iterator
with one server per call makes the retry observable: a link whose query fails
is queried again by the next call, which may be answered. -/

section Servers

variable {Page : Type} (decodeResp : Option Response → Except String Page) (basePath : String)

/-- One call of `p.next(ctx, into)` per server, the server answering that call:
the page each decodes, none when it returns `false`. -/
def pagesOn : List (String → Except String Response) → PaginatedResultNew → List (Option Page)
  | [], _ => []
  | server :: servers, p =>
    (next server decodeResp p).2 :: pagesOn servers (next server decodeResp p).1

/-- The page stream, one step per server, the server answering that step. -/
def PageStream.runOn : List (String → Except String Response) → PageStream → List (Option Page)
  | [], _ => []
  | server :: servers, c => (c.step server decodeResp basePath).1 ::
      PageStream.runOn servers (c.step server decodeResp basePath).2

theorem pagesOn_eq_runOn : ∀ (servers : List (String → Except String Response))
    {p : PaginatedResultNew} {c : PageStream}, PageTracks basePath p c →
      pagesOn decodeResp servers p = PageStream.runOn decodeResp basePath servers c
  | [], _, _, _ => rfl
  | server :: servers, _, _, h => by
    obtain ⟨h₁, h₂⟩ := next_page_tracks server decodeResp basePath h
    simp only [pagesOn, PageStream.runOn, h₁, pagesOn_eq_runOn servers h₂]

end Servers

/-- `load` makes the paginator stand at the start of the page stream. -/
theorem load_tracks {query : String → Except String Response} (p : PaginatedResultNew)
    (path : String) (params : Values) {res : Response}
    (hq : query (urlString path params.encode) = .ok res) :
    (load query p path params).2 = none ∧
      PageTracks (Path.dir path) (load query p path params).1 (.loaded res) := by
  obtain ⟨hg₁, hg₂, hg₃, hg₄, hg₅⟩ := goTo_ok
    { p with basePath := Path.dir path, firstLink := urlString path params.encode, first := true } hq
  exact ⟨hg₁, hg₂, hg₄, hg₃, hg₅⟩

/-- The page iterator, from `load` on, for any number of calls and whatever the
server answers at each: each `next` returns the page reached by following the
next links, resolved against the first directory; it returns `false` for a page
that fails to decode, the next call moving past it, for a failed query, the next
call querying the same link again, and for good once a page has no next link. -/
theorem load_pages_eq_stream {query : String → Except String Response} {Page : Type}
    (decodeResp : Option Response → Except String Page) (p : PaginatedResultNew) (path : String)
    (params : Values) {res : Response} (hq : query (urlString path params.encode) = .ok res)
    (servers : List (String → Except String Response)) :
    (load query p path params).2 = none ∧
      pagesOn decodeResp servers (load query p path params).1 =
        PageStream.runOn decodeResp (Path.dir path) servers (.loaded res) :=
  (load_tracks p path params hq).imp_right (pagesOn_eq_runOn decodeResp _ servers)

/-- A server that is down. -/
def downServer (_ : String) : Except String Response := .error "503"

/-- The second page's query fails once and is answered at the next call: the
iterator returns the first page, then `false`, then the second page. -/
theorem load_pages_eq_stream_sample :
    samplePages (urlString "/channels/x/messages" Values.empty.encode) =
        .ok ⟨200, [("Link", ["<./messages?page=2>; rel=\"next\""])], [1, 2]⟩ ∧
      (load samplePages zero "/channels/x/messages" Values.empty).2 = none ∧
      pagesOn sampleDecode [samplePages, downServer, samplePages]
          (load samplePages zero "/channels/x/messages" Values.empty).1 =
        [some [1, 2], none, some [3]] := by
  have hrun : PageStream.runOn sampleDecode (Path.dir "/channels/x/messages")
      [samplePages, downServer, samplePages]
      (.loaded ⟨200, [("Link", ["<./messages?page=2>; rel=\"next\""])], [1, 2]⟩) =
      [some [1, 2], none, some [3]] := by decide
  obtain ⟨h₁, h₂⟩ := load_pages_eq_stream sampleDecode zero "/channels/x/messages" Values.empty
    samplePages_first [samplePages, downServer, samplePages]
  exact ⟨samplePages_first, h₁, h₂.trans hrun⟩

/-! ## Reloading the first page

`goTo` takes every `rel="first"` link it meets as the first link, so what
`First` reloads is the server's choice.  For a server whose `rel="first"` links
lead back to the first page, every paginator `next` reaches keeps a first link
that does, so `First` restarts the page stream. -/

section Reload

variable {query : String → Except String Response} {dir : String} {res : Response}

/-- What the reload asks of the server: every `rel="first"` link it sends,
resolved against `dir`, leads to the page `res`. -/
def FirstLinksLead (query : String → Except String Response) (dir : String) (res : Response) :
    Prop :=
  ∀ link r u, query link = .ok r → lastRel "first" (r.values "Link") = some u →
    query (Path.join dir u) = .ok res

/-- The paginator resolves links against `dir`, and its first link leads to the
page `res`. -/
def FirstLeads (query : String → Except String Response) (dir : String) (res : Response)
    (p : PaginatedResultNew) : Prop :=
  p.basePath = dir ∧ query p.firstLink = .ok res

theorem goTo_firstLeads (hs : FirstLinksLead query dir res) {p : PaginatedResultNew}
    (h : FirstLeads query dir res p) (link : String) :
    FirstLeads query dir res (goTo query p link).1 := by
  obtain ⟨hb, hl | ⟨r, u, hq, hu, hl⟩⟩ := @goTo_firstLink query p link
  · exact ⟨hb.trans h.1, hl ▸ h.2⟩
  · refine ⟨hb.trans h.1, ?_⟩
    rw [hl, h.1]
    exact hs link r u hq hu

theorem advance_firstLeads (hs : FirstLinksLead query dir res) {p : PaginatedResultNew}
    (h : FirstLeads query dir res p) : FirstLeads query dir res (advance query p).1 := by
  have hg := goTo_firstLeads hs h p.nextLink
  unfold advance
  split_ifs
  · exact h
  · exact h
  · rcases hgo : goTo query p p.nextLink with ⟨q, _ | e⟩ <;> rw [hgo] at hg <;> exact hg

theorem next_firstLeads {Page : Type} (decodeResp : Option Response → Except String Page)
    (hs : FirstLinksLead query dir res) {p : PaginatedResultNew} (h : FirstLeads query dir res p) :
    FirstLeads query dir res (next query decodeResp p).1 := by
  have ha := advance_firstLeads hs h
  unfold next
  rcases hadv : advance query p with ⟨q, _ | _⟩ <;> rw [hadv] at ha
  · exact ha
  · dsimp only
    split <;> exact ha

/-- `First` on a paginator whose first link leads to `res` starts the page stream
at `res`. -/
theorem First_of_firstLeads (hs : FirstLinksLead query dir res) {p : PaginatedResultNew}
    (h : FirstLeads query dir res p) :
    (First query p).2 = none ∧ PageTracks dir (First query p).1 (.loaded res) ∧
      FirstLeads query dir res (First query p).1 := by
  obtain ⟨hg₁, hg₂, hg₃, hg₄, hg₅⟩ := goTo_ok { p with first := true } h.2
  exact ⟨hg₁, ⟨hg₂.trans h.1, hg₄, hg₃, h.1 ▸ hg₅⟩,
    @goTo_firstLeads query dir res hs { p with first := true } h p.firstLink⟩

/-- Reloading the first page, after any number of calls of `next`, returns the
same pages as the first load did: for a fixed server whose `rel="first"` links
lead back to the first page, `First` succeeds, and every number of calls of
`next` after it returns what the same calls returned after `load`. -/
theorem first_reloads_same_pages {Page : Type} (decodeResp : Option Response → Except String Page)
    (p : PaginatedResultNew) (path : String) (params : Values)
    (hq : query (urlString path params.encode) = .ok res)
    (hs : FirstLinksLead query (Path.dir path) res) (k n : Nat) :
    let p₀ := (load query p path params).1
    let pₖ := (fun q => (next query decodeResp q).1)^[k] p₀
    (First query pₖ).2 = none ∧
      pages query decodeResp n (First query pₖ).1 = pages query decodeResp n p₀ := by
  intro p₀ pₖ
  have h₀ := @First_of_firstLeads query (Path.dir path) res hs
    { p with basePath := Path.dir path, firstLink := urlString path params.encode } ⟨rfl, hq⟩
  have hₖ : ∀ k, FirstLeads query (Path.dir path) res
      ((fun q => (next query decodeResp q).1)^[k] p₀) := by
    intro k
    induction k with
    | zero => exact h₀.2.2
    | succ k ih => rw [Function.iterate_succ_apply']; exact next_firstLeads decodeResp hs ih
  obtain ⟨hf, htr, -⟩ := First_of_firstLeads hs (hₖ k)
  exact ⟨hf, (pages_eq_run query decodeResp _ htr n).trans
    (pages_eq_run query decodeResp _ h₀.2.1 n).symm⟩

/-- The server of `samplePages`, each page also linking to the first with a path
of its own. -/
def sampleFirstPages (link : String) : Except String Response :=
  if link = "/channels/x/messages" then
    .ok ⟨200, [("Link", ["<./messages?page=2>; rel=\"next\"", "<./messages>; rel=\"first\""])],
      [1, 2]⟩
  else if link = "/channels/x/messages?page=2" then
    .ok ⟨200, [("Link", ["<./messages>; rel=\"first\""])], [3]⟩
  else .error "404"

theorem first_reloads_same_pages_sample :
    let res : Response :=
      ⟨200, [("Link", ["<./messages?page=2>; rel=\"next\"", "<./messages>; rel=\"first\""])],
        [1, 2]⟩
    sampleFirstPages (urlString "/channels/x/messages" Values.empty.encode) = .ok res ∧
      FirstLinksLead sampleFirstPages (Path.dir "/channels/x/messages") res ∧
      let p₀ := (load sampleFirstPages zero "/channels/x/messages" Values.empty).1
      let pₖ := (fun q => (next sampleFirstPages sampleDecode q).1)^[2] p₀
      (First sampleFirstPages pₖ).2 = none ∧
        pages sampleFirstPages sampleDecode 2 (First sampleFirstPages pₖ).1 =
          pages sampleFirstPages sampleDecode 2 p₀ := by
  intro res
  have hu : urlString "/channels/x/messages" Values.empty.encode = "/channels/x/messages" := by
    rw [Values.encode_empty]; decide
  have hj : Path.join (Path.dir "/channels/x/messages") "./messages" = "/channels/x/messages" := by
    decide
  have hq : sampleFirstPages (urlString "/channels/x/messages" Values.empty.encode) = .ok res := by
    rw [hu, sampleFirstPages, if_pos rfl]
  have hs : FirstLinksLead sampleFirstPages (Path.dir "/channels/x/messages") res := by
    intro link r u h hr
    unfold sampleFirstPages at h
    split_ifs at h <;> cases h <;>
      obtain rfl : u = "./messages" := Option.some.inj (hr.symm.trans (by decide)) <;>
      rw [hj, sampleFirstPages, if_pos rfl]
  exact ⟨hq, hs,
    first_reloads_same_pages sampleDecode zero "/channels/x/messages" Values.empty hq hs 2 2⟩

end Reload

end PaginatedResultNew

end Ably

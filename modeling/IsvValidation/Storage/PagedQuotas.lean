import IsvValidation.Config.Response
import IsvValidation.Host.Text
import IsvValidation.Library.Paging
import IsvValidation.Library.Sequence

/-!
# Quota listings which are served in pages

`_paginate` of the VAST provider and the two listings of the WEKA provider follow the next link or the
next token of each page, for at most `_MAX_PAGES` pages. All rows of a chain of pages are returned when
the pages they leave hold none; they leave what comes behind the last page they may ask for, and behind
a link or a token which they take for none.
-/

namespace IsvValidation.Storage

open Config Host Library Library.Paging

/-- `_MAX_PAGES`. -/
def maxPages : ℕ := 1000

/-! ## VAST -/

/-- The part of a path before the parameters of its last segment. -/
def splitParams (path : List Char) : List Char :=
  path.rdropWhile (· != '/') ++ (path.rtakeWhile (· != '/')).takeWhile (· != ';')

/-- Strings and URLs as Python reads them; the checks on the authority of a URL are its own. -/
structure UrlHost extends Unicode where
  validAuthority : List Char → Bool

/-- Path and query of an absolute URL behind its scheme, as `urlparse` tells them apart. -/
def parsePath (host : UrlHost) (text : List Char) : Except PyError String :=
  let text := text.filter fun c ↦ c != '\t' && c != '\r' && c != '\n'
  let isDelimiter (c : Char) := c == '/' || c == '?' || c == '#'
  if host.validAuthority (text.takeWhile fun c ↦ !isDelimiter c) then
    let target := (text.dropWhile fun c ↦ !isDelimiter c).takeWhile (· != '#')
    let path := splitParams (target.takeWhile (· != '?'))
    let query := (target.dropWhile (· != '?')).tail
    .ok (.ofList (if query.isEmpty then path else path ++ '?' :: query))
  else .error (.valueError "Invalid URL")

/-- `VastApi._extract_path`. -/
def extractPath (host : UrlHost) (url : String) : Except PyError String :=
  let url := host.strip url
  if Text.startsWith url "http://" then parsePath host (url.toList.drop "http://".length)
  else if Text.startsWith url "https://" then parsePath host (url.toList.drop "https://".length)
  else .ok url

/-- One round of the loop of `VastApi._paginate`; the paths of the links are kept as seen. -/
def paginateStep (host : UrlHost) (request : String → Except PyError Json)
    (state : String × List String) : Except PyError (Page (String × List String) Json) := do
  match ← request state.1 with
  | .arr data => return ⟨data, none⟩
  | .obj data =>
    match data.lookup "results" with
    | none => return ⟨[], none⟩
    | some results =>
      let rows ← results.elements
      match (data.lookup "next").filter Json.truthy with
      | none => return ⟨rows, none⟩
      | some (.str nextUrl) =>
        let nextPath ← extractPath host nextUrl
        if nextPath = "" ∨ nextPath ∈ state.2 then return ⟨rows, none⟩
        else return ⟨rows, some (nextPath, nextPath :: state.2)⟩
      | some nextUrl => throw (.attributeError s!"'{nextUrl.typeName}' object has no attribute 'strip'")
  | _ => return ⟨[], none⟩

/-- `VastApi._paginate`. -/
def paginate (host : UrlHost) (request : String → Except PyError Json) (startPath : String) :
    Except PyError (List Json) :=
  gathered (gather (paginateStep host request) maxPages (startPath, []) [])

/-! ## WEKA -/

/-- `WekaApi._request_envelope`, as the fields of what it returns. -/
def envelope (payload : Json) : List (String × Json) :=
  match payload with
  | .obj fields => fields
  | other => [("data", other)]

/-- `fields.get(key)`. -/
def field (fields : List (String × Json)) (key : String) : Json := (fields.lookup key).getD .null

/-- The rows of a page: a single object is a page of one row. -/
def pageRows : Json → Option (List Json)
  | .arr rows => some rows
  | .obj row => some [.obj row]
  | _ => none

/-- How Python writes a value, and a sorted list of keys. -/
structure Writer where
  str : Json → String
  sorted : List String → String

/-- The token of the next page, with which the loop goes on. -/
def nextToken (writer : Writer) (place : Option Json) (fields : List (String × Json)) :
    Option (Option Json) :=
  let token := field fields "next_token"
  if token.truthy = false ∨ place.any (fun last ↦ writer.str token == writer.str last) then none
  else some (some token)

/-- The page of directory quotas in an answer. -/
def directoryPage (writer : Writer) (fsUid : String) (fields : List (String × Json)) :
    Except PyError Json :=
  match field fields "data" with
  | .null =>
    let quotas := field fields "quotas"
    match if quotas.truthy then quotas else field fields "results" with
    | .null =>
      let keys := writer.sorted (fields.map Prod.fst)
      .error (.other "StorageApiError"
        s!"unexpected /fileSystems/{fsUid}/quota response shape: keys={keys}")
    | page => .ok page
  | page => .ok page

/-- One round of the loop of `WekaApi._list_directory_quotas`, after the token of the page before. -/
def directoryStep (writer : Writer) (fsUid : String) (request : Option String → Except PyError Json)
    (place : Option Json) : Except PyError (Page (Option Json) Json) := do
  let fields := envelope (← request (place.map writer.str))
  match pageRows (← directoryPage writer fsUid fields) with
  | none => return ⟨[], none⟩
  | some rows => return ⟨rows, nextToken writer place fields⟩

/-- `WekaApi._list_directory_quotas` of a file system which its caller names. -/
def listDirectoryQuotaRows (writer : Writer) (fsUid : String)
    (request : Option String → Except PyError Json) : Except PyError (List Json) :=
  gathered (gather (directoryStep writer fsUid request) maxPages none [])

/-- The page of user quotas in an answer. -/
def userPage (fields : List (String × Json)) : Except PyError Json := .ok (field fields "data")

/-- One round of the loop of `WekaApi._list_user_quota_rows`. -/
def userStep (writer : Writer) (request : Option String → Except PyError Json)
    (place : Option Json) : Except PyError (Page (Option Json) Json) := do
  let fields := envelope (← request (place.map writer.str))
  match pageRows (← userPage fields) with
  | none => return ⟨[], none⟩
  | some rows => return ⟨rows.filter Json.isObject, nextToken writer place fields⟩

/-- `WekaApi._list_user_quota_rows`. -/
def listUserQuotaRows (writer : Writer) (request : Option String → Except PyError Json) :
    Except PyError (List Json) :=
  gathered (gather (userStep writer request) maxPages none [])

/-! ## Backends -/

/-- The links and tokens with which a backend says that no page follows. -/
structure Endings where
  final : Json → Bool
  null : final .null = true
  falsy : ∀ token, final token = true → token.truthy = false

/-- A page which the WEKA backend serves behind this token: a listing of objects, and the next token. -/
def offered (writer : Writer) (page : List (String × Json) → Except PyError Json) (endings : Endings)
    (request : Option String → Except PyError Json) (place : Option Json) :
    Except PyError (Page (Option Json) Json) := do
  let fields := envelope (← request (place.map writer.str))
  match pageRows (← page fields) with
  | none => throw (.valueError "not a page")
  | some rows =>
    if rows.all Json.isObject then
      let token := field fields "next_token"
      return ⟨rows, if endings.final token then none else some (some token)⟩
    else throw (.valueError "not a row")

/-- A page which the VAST backend serves: at the start, or where it resolves this link to. -/
def offeredResults (startPath : String) (resolve : String → String) (endings : Endings)
    (request : String → Except PyError Json) (place : Option String) :
    Except PyError (Page (Option String) Json) := do
  match ← request (place.elim startPath resolve) with
  | .arr data => return ⟨data, none⟩
  | .obj data =>
    match data.lookup "results" with
    | some (.arr rows) =>
      let next := field data "next"
      if endings.final next then return ⟨rows, none⟩
      else
        match next with
        | .str link => return ⟨rows, some (some link)⟩
        | _ => throw (.valueError "not a link")
    | _ => throw (.valueError "not a page")
  | _ => throw (.valueError "not a page")

/-- The provider reads the links of these pages as the backend resolves them. -/
def ReadsRight (host : UrlHost) (resolve : String → String)
    (pages : List (Option String × List Json)) : Prop :=
  ∀ page ∈ pages, ∀ link, page.1 = some link → link ≠ "" →
    extractPath host link = .ok (resolve link)

/-- A token which is not taken for none. -/
def followsToken (_ next : Option Json) : Bool := next.any Json.truthy

/-- A link which is not taken for none. -/
def followsLink (resolve : String → String) (_ next : Option String) : Bool :=
  next.any fun link ↦ link != "" && resolve link != ""

/-! ## The listings of WEKA -/

section Weka

variable {writer : Writer} {page : List (String × Json) → Except PyError Json} {endings : Endings}
  {request : Option String → Except PyError Json}

/-- With the guard against a token which is the one before. -/
def goesOnToken (writer : Writer) (place next : Option Json) : Bool :=
  next.any fun token ↦ token.truthy && !place.any fun last ↦ writer.str token == writer.str last

theorem nextToken_eq (place : Option Json) (fields : List (String × Json)) :
    nextToken writer place fields =
      (if endings.final (field fields "next_token") then none
        else some (some (field fields "next_token"))).filter (goesOnToken writer place) := by
  unfold nextToken
  by_cases hfinal : endings.final (field fields "next_token") = true
  · simp [hfinal, endings.falsy _ hfinal]
  · rw [if_neg hfinal, Option.filter_some]
    have hgoes : goesOnToken writer place (some (field fields "next_token")) =
        ((field fields "next_token").truthy && !place.any fun last ↦
          writer.str (field fields "next_token") == writer.str last) := rfl
    by_cases htruthy : (field fields "next_token").truthy = true
    · match hlast : place.any fun last ↦
          writer.str (field fields "next_token") == writer.str last with
      | true => simp [hgoes, hlast]
      | false => simp [hgoes, hlast, htruthy]
    · simp [hgoes, htruthy]

theorem offered_eq_ok {place : Option Json} {served : Page (Option Json) Json}
    (h : offered writer page endings request place = .ok served) :
    ∃ payload value rows, request (place.map writer.str) = .ok payload ∧
      page (envelope payload) = .ok value ∧ pageRows value = some rows ∧
      rows.all Json.isObject = true ∧
      served = ⟨rows, if endings.final (field (envelope payload) "next_token") then none
        else some (some (field (envelope payload) "next_token"))⟩ := by
  have ⟨payload, hpayload, hrest⟩ := bind_eq_ok.mp h
  have ⟨value, hvalue, hpage⟩ := bind_eq_ok.mp hrest
  match hrows : pageRows value with
  | none =>
    rw [hrows] at hpage
    exact nomatch hpage
  | some rows =>
    rw [hrows] at hpage
    simp only at hpage
    by_cases hall : rows.all Json.isObject = true
    · rw [if_pos hall] at hpage
      exact ⟨payload, value, rows, hpayload, hvalue, hrows, hall, (Except.ok.inj hpage).symm⟩
    · rw [if_neg hall] at hpage
      exact nomatch hpage

theorem heeds_directoryStep (fsUid : String) :
    Heeds (goesOnToken writer) (offered writer (directoryPage writer fsUid) endings request)
      (directoryStep writer fsUid request) := by
  intro place served h
  have ⟨payload, value, rows, hpayload, hvalue, hrows, _, hserved⟩ := offered_eq_ok h
  rw [hserved, ← nextToken_eq, directoryStep, hpayload]
  simp only [bind, Except.bind, hvalue, hrows]
  rfl

theorem heeds_userStep :
    Heeds (goesOnToken writer) (offered writer userPage endings request)
      (userStep writer request) := by
  intro place served h
  have ⟨payload, value, rows, hpayload, hvalue, hrows, hall, hserved⟩ := offered_eq_ok h
  have hkept : rows.filter Json.isObject = rows :=
    List.filter_eq_self.mpr fun row hrow ↦ List.all_eq_true.mp hall row hrow
  rw [hserved, ← nextToken_eq, userStep, hpayload]
  simp only [bind, Except.bind, hvalue, hrows, hkept]
  rfl

/-- In a chain of pages the guard against a repeated token stops nothing. -/
theorem followed_token {place : Option Json} {pages : List (Option Json × List Json)}
    (h : Chain (offered writer page endings request) place pages) :
    followed (goesOnToken writer) pages = followed followsToken pages := by
  apply followed_congr
  refine h.pairwise_read_ne.imp fun {first second} hne ↦ ?_
  unfold goesOnToken followsToken
  match hsecond : second.1 with
  | none => rfl
  | some token =>
    have hguard : (first.1.any fun last ↦ writer.str token == writer.str last) = false := by
      match hfirst : first.1 with
      | none => rfl
      | some last =>
        rw [Option.any_some, beq_eq_false_iff_ne]
        intro heq
        apply hne
        rw [hfirst, hsecond, offered, offered, Option.map_some, Option.map_some, heq]
    rw [Option.any_some, Option.any_some, hguard, Bool.not_false, Bool.and_true]

end Weka

/-- A listing returns these rows or raises. -/
def WholeOrRaises (result : Except PyError (List Json)) (rows : List Json) : Prop :=
  result = .ok rows ∨ ∃ error, result = .error error

theorem wholeOrRaises_ok {rows all : List Json} : WholeOrRaises (.ok rows) all ↔ rows = all := by
  simp [WholeOrRaises]

/-! ## The listing of VAST -/

section Vast

variable {host : UrlHost} {startPath : String} {resolve : String → String} {endings : Endings}
  {request : String → Except PyError Json}

/-- The loop goes on to where a link leads. -/
def follow (resolve : String → String) (seen : List String) : Option String → String × List String
  | none => ("", seen)
  | some link => (resolve link, resolve link :: seen)

theorem link_of_next {data : List (String × Json)} {rows : List Json}
    {served : Page (Option String) Json}
    (h : (match field data "next" with
      | .str link => .ok ⟨rows, some (some link)⟩
      | _ => .error (.valueError "not a link") : Except PyError (Page (Option String) Json)) =
        .ok served) :
    ∃ link, data.lookup "next" = some (.str link) ∧ ⟨rows, some (some link)⟩ = served := by
  unfold field at h
  match hnext : data.lookup "next" with
  | none =>
    rw [hnext] at h
    exact nomatch h
  | some next =>
    rw [hnext, Option.getD_some] at h
    match next with
    | .str link => exact ⟨link, rfl, Except.ok.inj h⟩
    | .null | .bool _ | .int _ | .float _ | .nonFinite _ | .arr _ | .obj _ => exact nomatch h

/-- One round over a page which is served, where its link is read right and leads to a new place. -/
theorem paginateStep_offered {place : Option String} {served : Page (Option String) Json}
    (h : offeredResults startPath resolve endings request place = .ok served) {seen : List String}
    (hright : ∀ link, served.next = some (some link) → link ≠ "" →
      extractPath host link = .ok (resolve link))
    (hnew : ∀ link, served.next = some (some link) → resolve link ∉ seen) :
    paginateStep host request (place.elim startPath resolve, seen) = .ok ⟨served.rows,
      (served.next.filter (followsLink resolve place)).map (follow resolve seen)⟩ := by
  unfold offeredResults at h
  have ⟨payload, hpayload, hrest⟩ := bind_eq_ok.mp h
  rw [paginateStep, hpayload]
  match payload with
  | .arr data =>
    rw [← Except.ok.inj hrest]
    rfl
  | .obj data =>
    simp only at hrest
    match hresults : data.lookup "results" with
    | some (.arr rows) =>
      rw [hresults] at hrest
      simp only at hrest
      simp only [bind, Except.bind, hresults, Json.elements]
      by_cases hfinal : endings.final (field data "next") = true
      · rw [if_pos hfinal] at hrest
        rw [← Except.ok.inj hrest]
        have hnone : (data.lookup "next").filter Json.truthy = none := by
          have hfalsy := endings.falsy _ hfinal
          rw [field] at hfalsy
          match hnext : data.lookup "next" with
          | none => rfl
          | some next =>
            rw [hnext, Option.getD_some] at hfalsy
            rw [Option.filter_some, if_neg (by rw [hfalsy]; exact Bool.false_ne_true)]
        rw [hnone]
        rfl
      · rw [if_neg hfinal] at hrest
        have ⟨link, hlink, hserved⟩ := link_of_next hrest
        rw [hlink]
        by_cases hempty : link = ""
        · rw [← hserved, hempty]
          rfl
        · have hpath := hright link (by rw [← hserved]) hempty
          have hunseen := hnew link (by rw [← hserved])
          have htruthy : (Json.str link).truthy = true := bne_iff_ne.mpr hempty
          rw [Option.filter_some, if_pos htruthy]
          simp only [hpath, hunseen, or_false, ← hserved, Option.filter_some, followsLink,
            Option.any_some]
          by_cases hresolved : resolve link = ""
          · simp [hresolved, pure, Except.pure]
          · simp [hresolved, hempty, follow, pure, Except.pure]
    | none | some .null | some (.bool _) | some (.int _) | some (.float _) | some (.nonFinite _)
    | some (.str _) | some (.obj _) =>
      rw [hresults] at hrest
      exact nomatch hrest
  | .null | .bool _ | .int _ | .float _ | .nonFinite _ | .str _ => exact nomatch hrest

theorem offered_congr {place other : Option String}
    (h : place.elim startPath resolve = other.elim startPath resolve) :
    offeredResults startPath resolve endings request place =
      offeredResults startPath resolve endings request other := by
  rw [offeredResults, offeredResults, h]

/-- The loop reads the pages of a chain which it follows; the links it has seen never stop it. -/
theorem paginateStep_chain {place : Option String} {pages : List (Option String × List Json)}
    (h : Chain (offeredResults startPath resolve endings request) place pages)
    (hright : ReadsRight host resolve pages) {seen : List String}
    (hseen : ∀ page ∈ pages.tail, ∀ link, page.1 = some link → resolve link ∉ seen) :
    ∃ visited, Chain (paginateStep host request) (place.elim startPath resolve, seen) visited ∧
      visited.map Prod.snd = (followed (followsLink resolve) pages).map Prod.snd := by
  induction h generalizing seen with
  | @last place rows served =>
    have hstep := @paginateStep_offered host startPath resolve endings request place _ served seen
      (fun _ hlink ↦ nomatch hlink) (fun _ hlink ↦ nomatch hlink)
    exact ⟨_, .last hstep, rfl⟩
  | @more place next rows pages served rest ih =>
    have ⟨nextRows, after, hpages⟩ := rest.head_eq
    have hstep := @paginateStep_offered host startPath resolve endings request place _ served seen
      (fun link hlink hne ↦ hright (next, nextRows) (by rw [hpages]; simp) link
        (Option.some.inj hlink) hne)
      (fun link hlink ↦ hseen (next, nextRows) (by rw [hpages]; simp) link (Option.some.inj hlink))
    rw [Option.filter_some] at hstep
    by_cases hfollows : followsLink resolve place next = true
    · rw [if_pos hfollows, Option.map_some] at hstep
      match next with
      | some link =>
        have hrest : ∃ visited, Chain (paginateStep host request)
            (resolve link, resolve link :: seen) visited ∧
            visited.map Prod.snd = (followed (followsLink resolve) pages).map Prod.snd := by
          apply ih (fun page hpage ↦ hright page (List.mem_cons_of_mem _ hpage))
          intro page hpage other hother hmem
          match List.mem_cons.mp hmem with
          | .inl heq =>
            have hpair := rest.pairwise_read_ne
            rw [hpages] at hpair hpage
            apply (List.pairwise_cons.mp hpair).1 page hpage
            apply offered_congr
            rw [hother]
            exact heq.symm
          | .inr hold =>
            exact hseen page (List.mem_of_mem_tail hpage) other hother hold
        have ⟨visited, hvisited, hrows⟩ := hrest
        refine ⟨_, .more hstep hvisited, ?_⟩
        rw [hpages] at hrows ⊢
        rw [followed, if_pos hfollows, List.map_cons, List.map_cons, hrows]
    · rw [if_neg hfollows] at hstep
      refine ⟨_, .last hstep, ?_⟩
      rw [hpages, followed, if_neg hfollows]
      rfl

end Vast

/-! ## Where links lead -/

section Links

variable {host : UrlHost} {link : String}

/-- A link which is no absolute URL is the path it leads to. -/
theorem extractPath_relative (hstrip : host.strip link = link)
    (hhttp : Text.startsWith link "http://" = false)
    (hhttps : Text.startsWith link "https://" = false) : extractPath host link = .ok link := by
  rw [extractPath, hstrip, hhttp, hhttps]
  rfl

end Links

/-! ## Whole listings -/

theorem rowsOf_take_eq {σ τ : Type} {pages : List (σ × List Json)} {others : List (τ × List Json)}
    (h : pages.map Prod.snd = others.map Prod.snd) (limit : ℕ) :
    rowsOf (pages.take limit) = rowsOf (others.take limit) := by
  rw [rowsOf, rowsOf, List.flatMap_def, List.flatMap_def, List.map_take, List.map_take, h]

theorem paginate_eq {host : UrlHost} {startPath : String} {resolve : String → String}
    {endings : Endings} {request : String → Except PyError Json}
    {pages : List (Option String × List Json)}
    (h : Chain (offeredResults startPath resolve endings request) none pages)
    (hright : ReadsRight host resolve pages) :
    paginate host request startPath =
      .ok (rowsOf (taken (followsLink resolve) maxPages pages)) := by
  have ⟨visited, hvisited, hrows⟩ := @paginateStep_chain host startPath resolve endings request none
    pages h hright [] fun _ _ _ _ ↦ List.not_mem_nil
  rw [paginate, taken, ← rowsOf_take_eq hrows]
  exact gathered_chain hvisited maxPages

/-- Each listing returns all rows of a chain of pages, or raises, exactly when no row stands behind the
last page it may ask for or behind a link or a token which it takes for none; whatever a backend answers,
it asks for so many pages at most. -/
theorem listings_whole_iff (host : UrlHost) (writer : Writer) (endings : Endings) :
    (∀ startPath resolve request pages,
        Chain (offeredResults startPath resolve endings request) none pages →
        ReadsRight host resolve pages →
        (WholeOrRaises (paginate host request startPath) (rowsOf pages) ↔
          rowsOf (left (followsLink resolve) maxPages pages) = [])) ∧
      (∀ fsUid request pages,
        Chain (offered writer (directoryPage writer fsUid) endings request) none pages →
        (WholeOrRaises (listDirectoryQuotaRows writer fsUid request) (rowsOf pages) ↔
          rowsOf (left followsToken maxPages pages) = [])) ∧
      (∀ request pages, Chain (offered writer userPage endings request) none pages →
        (WholeOrRaises (listUserQuotaRows writer request) (rowsOf pages) ↔
          rowsOf (left followsToken maxPages pages) = [])) ∧
      (∀ request startPath,
        (asked (paginateStep host request) maxPages (startPath, [])).length ≤ maxPages) ∧
      ∀ fsUid request,
        (asked (directoryStep writer fsUid request) maxPages none).length ≤ maxPages ∧
        (asked (userStep writer request) maxPages none).length ≤ maxPages := by
  refine ⟨?_, ?_, ?_, fun _ _ ↦ length_asked_le _ _,
    fun _ _ ↦ ⟨length_asked_le _ _, length_asked_le _ _⟩⟩
  · intro startPath resolve request pages h hright
    rw [paginate_eq h hright, wholeOrRaises_ok, rowsOf_taken_eq_iff]
  · intro fsUid request pages h
    rw [listDirectoryQuotaRows, gathered_heeds (heeds_directoryStep fsUid) h, wholeOrRaises_ok,
      ← rowsOf_taken_eq_iff, taken, taken, followed_token h]
  · intro request pages h
    rw [listUserQuotaRows, gathered_heeds heeds_userStep h, wholeOrRaises_ok,
      ← rowsOf_taken_eq_iff, taken, taken, followed_token h]

/-! ## A collection of a thousand and one pages -/

/-- The path of so many slashes. -/
def slashes (n : ℕ) : String := .ofList (List.replicate n '/')

/-- A server whose pages hold one row each, and link to a path which is longer by a slash. -/
def slashServer (path : String) : Except PyError Json :=
  .ok (.obj [("results", .arr [.int 1]),
    ("next", if path.length < 1001 then .str (path ++ "/") else .null)])

def plainHost : UrlHost where
  lower := fun text ↦ text
  isSpace := fun c ↦ c == ' '
  isAlnum := Char.isAlphanum
  validAuthority := fun _ ↦ true

/-- Whatever is false says that no page follows. -/
def plainEndings : Endings where
  final := fun token ↦ !token.truthy
  null := rfl
  falsy := fun token h ↦ by simpa using h

theorem slashes_append (n : ℕ) : slashes n ++ "/" = slashes (n + 1) := by
  rw [slashes, slashes, List.replicate_succ', String.ofList_append]

theorem length_slashes (n : ℕ) : (slashes n).length = n := by
  rw [slashes, String.length_ofList, List.length_replicate]

theorem slashes_ne_empty (n : ℕ) : slashes (n + 1) ≠ "" := by
  intro hempty
  have hlength := length_slashes (n + 1)
  rw [hempty] at hlength
  exact nomatch hlength

theorem extractPath_slashes (n : ℕ) : extractPath plainHost (slashes n) = .ok (slashes n) := by
  have hlist : (slashes n).toList = List.replicate n '/' := String.toList_ofList
  have hstrip : plainHost.strip (slashes n) = slashes n := by
    rw [Unicode.strip, hlist, slashes]
    have hdrop : (List.replicate n '/').dropWhile plainHost.isSpace = List.replicate n '/' := by
      cases n <;> rfl
    rw [hdrop, List.rdropWhile, List.reverse_replicate, hdrop, List.reverse_replicate]
  apply extractPath_relative hstrip
  · rw [Text.startsWith, hlist]
    cases n <;> rfl
  · rw [Text.startsWith, hlist]
    cases n <;> rfl

theorem slashServer_offered {place : Option String} {n : ℕ}
    (hplace : place.elim (slashes 1) id = slashes n) :
    offeredResults (slashes 1) id plainEndings slashServer place =
      .ok ⟨[.int 1], if n < 1001 then some (some (slashes (n + 1))) else none⟩ := by
  have htruthy : (Json.str (slashes (n + 1))).truthy = true := bne_iff_ne.mpr (slashes_ne_empty n)
  rw [offeredResults, hplace, slashServer, length_slashes, slashes_append]
  by_cases hn : n < 1001
  · rw [if_pos hn, if_pos hn]
    simp [bind, Except.bind, field, plainEndings, htruthy, List.lookup_cons, pure, Except.pure]
  · rw [if_neg hn, if_neg hn]
    rfl

theorem slashServer_chain {place : Option String} {n left : ℕ}
    (hplace : place.elim (slashes 1) id = slashes n) (hleft : n + left = 1001) :
    ∃ pages, Chain (offeredResults (slashes 1) id plainEndings slashServer) place pages ∧
      pages.map Prod.snd = List.replicate (left + 1) [.int 1] ∧
      ∀ page ∈ pages.tail, ∃ m, page.1 = some (slashes (m + 1)) := by
  induction left generalizing place n with
  | zero =>
    have hoffered := slashServer_offered hplace
    rw [if_neg (by omega)] at hoffered
    exact ⟨_, .last hoffered, rfl, fun _ h ↦ (nomatch h)⟩
  | succ left ih =>
    have hoffered := slashServer_offered hplace
    rw [if_pos (by omega)] at hoffered
    have ⟨pages, hpages, hrows, hlinks⟩ := @ih (some (slashes (n + 1))) (n + 1) rfl (by omega)
    refine ⟨_, .more hoffered hpages, ?_, ?_⟩
    · rw [List.map_cons, hrows]
      rfl
    · have ⟨rows, rest, heq⟩ := hpages.head_eq
      rw [heq] at hlinks ⊢
      exact List.forall_mem_cons.mpr ⟨⟨n, rfl⟩, hlinks⟩

/-- The last row of so many pages is not returned, and nothing is raised. -/
theorem last_page_lost :
    ∃ pages, Chain (offeredResults (slashes 1) id plainEndings slashServer) none pages ∧
      ReadsRight plainHost id pages ∧ rowsOf pages = List.replicate 1001 (.int 1) ∧
      paginate plainHost slashServer (slashes 1) = .ok (List.replicate 1000 (.int 1)) := by
  have ⟨pages, hpages, hrows, hlinks⟩ := @slashServer_chain none 1 1000 rfl rfl
  have ⟨rows, rest, hhead⟩ := hpages.head_eq
  have hright : ReadsRight plainHost id pages := by
    intro page hpage link hlink _
    rw [hhead] at hpage hlinks
    match List.mem_cons.mp hpage with
    | .inl heq =>
      rw [heq] at hlink
      exact nomatch hlink
    | .inr hmem =>
      have ⟨m, hm⟩ := hlinks page hmem
      rw [hm] at hlink
      rw [← Option.some.inj hlink]
      exact extractPath_slashes (m + 1)
  have hfollowed : followed (followsLink id) pages = pages := by
    apply followed_eq_self
    intro next hnext place
    have ⟨m, hm⟩ := hlinks next hnext
    rw [hm, followsLink, Option.any_some, id_eq, Bool.and_self, bne_iff_ne]
    exact slashes_ne_empty m
  refine ⟨pages, hpages, hright, ?_, ?_⟩
  · rw [rowsOf, List.flatMap_def, hrows, List.flatten_replicate_singleton]
  · rw [paginate_eq hpages hright, taken, hfollowed, rowsOf, List.flatMap_def, List.map_take, hrows,
      List.take_replicate, List.flatten_replicate_singleton]
    rfl

end IsvValidation.Storage
